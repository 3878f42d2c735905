import DoubleSwap.Analyser.Records

/-! The classifier of the records of one page. Nine patterns in three groups
are tried in order; each is searched as a subsequence by one greedy scan. -/
namespace Analyser

open Text

/-- The part of the regular expression language that the patterns use. -/
inductive Atom where
  | char (c : Char)
  /-- `.*`, any run of characters other than a line feed. -/
  | anyRun
  deriving DecidableEq, Repr

/-- Read the source text of a pattern. -/
def compile : Text → List Atom
  | '.' :: '*' :: rest => .anyRun :: compile rest
  | c :: rest => .char c :: compile rest
  | [] => []

/-- Try `rest` after every run of characters that `.` matches. -/
def matchRun (rest : Text → Bool) : Text → Bool
  | [] => rest []
  | c :: s => rest (c :: s) || (c != '\n' && matchRun rest s)

/-- `re.fullmatch(pattern, s)`. -/
def fullmatch : List Atom → Text → Bool
  | [], s => s.isEmpty
  | .char c :: pattern, d :: s => c == d && fullmatch pattern s
  | .char _ :: _, [] => false
  | .anyRun :: pattern, s => matchRun (fullmatch pattern) s

/-- One pattern list of the source, such as
`[r"OUT H NONE", r"OUT G.* NONE", r"IN H NONE", r"OUT G NONE"]`. -/
def patternSet (patterns : List String) : List (List Atom) :=
  patterns.map fun pattern => compile pattern.toList

def patternGroups : List (List (List (List Atom))) :=
  [[patternSet ["OUT H NONE", "OUT G.* NONE", "IN H NONE", "OUT G NONE"],
    patternSet ["OUT H NONE", "OUT G.* NONE", "OUT G NONE", "IN H NONE"],
    patternSet ["OUT H NONE", "IN H NONE", "OUT G.* NONE", "OUT G NONE"]],
   [patternSet ["OUT H NONE", "OUT G.* NONE", "IN H CACHE", "OUT G NONE"],
    patternSet ["OUT H NONE", "OUT G.* NONE", "OUT G NONE", "IN H CACHE"],
    patternSet ["OUT H NONE", "IN H CACHE", "OUT G.* NONE", "OUT G NONE"]],
   [patternSet ["OUT H NONE", "OUT G.* NONE", "IN H WP", "OUT G NONE"],
    patternSet ["OUT H NONE", "OUT G.* NONE", "OUT G NONE", "IN H WP"],
    patternSet ["OUT H NONE", "IN H WP", "OUT G.* NONE", "OUT G NONE"]]]

/-- The scan for one pattern list. The remaining patterns are those from
`pattern_set[index]` on; the scan succeeds when none remains. -/
def scan : List (List Atom) → List Text → Bool
  | [], _ => true
  | _ :: _, [] => false
  | pattern :: patterns, dataType :: dataTypes =>
      if fullmatch pattern dataType then scan patterns dataTypes
      else scan (pattern :: patterns) dataTypes

/-- `" ".join(remaining_data.split()[:3])`. -/
def scannedType (entry : Entry) : Text := joinWords ((words entry.dataType).take 3)

/-- `contains_sequence`: the number of the first group with a pattern list
that occurs, or zero. -/
def containsSequence (sortedEntries : List Entry) : Nat :=
  match patternGroups.findIdx? (·.any fun set => scan set (sortedEntries.map scannedType)) with
  | some index => index + 1
  | none => 0

end Analyser
