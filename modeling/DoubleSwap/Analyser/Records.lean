import DoubleSwap.Text.Decimal
import DoubleSwap.Data.GroupDict

/-! The line parsers of the analyser and the selection of one qemu process.
Lines are read from logs that the kernels of the host and of the guest append
to. Python exceptions are values of `Except`. -/
namespace Analyser

open Text

/-- The exceptions that the analyser's own code can raise and then catches. -/
inductive PyError where
  | fileNotFound
  | unicodeDecode
  /-- `int` was called on a text that is not a numeral. -/
  | valueError (literal : Text)
  | indexError
  /-- A local variable was read before its first assignment. -/
  | unboundLocal
  deriving DecidableEq, Repr

/-- A text file as the analyser reads it: the lines that iteration yields, and
whether the end is reached (`decodes`) or a decoding error stops it there. -/
structure TextFile where
  lines : List Text
  decodes : Bool
  deriving DecidableEq, Repr

/-- `open(path, "rt")` followed by `file.readlines()`. -/
def readlines (file : Option TextFile) : Except PyError (List Text) :=
  match file with
  | none => .error .fileNotFound
  | some file => if file.decodes then .ok file.lines else .error .unicodeDecode

theorem readlines_eq_ok {file : Option TextFile} {lines : List Text} :
    readlines file = .ok lines ↔
      ∃ log, file = some log ∧ log.decodes = true ∧ log.lines = lines := by
  cases file with
  | none => simp [readlines]
  | some log => cases hDecodes : log.decodes <;> simp [readlines, hDecodes]

/-- `int(s, 10)`. -/
def int (s : Text) : Except PyError Int :=
  match parseInt s with
  | some value => .ok value
  | none => .error (.valueError s)

/-- The five values that `parse_line` returns for a host line. -/
structure HostRecord where
  pfn : Int
  dataType : Text
  timestamp : Text
  processName : Text
  startTime : Int
  deriving DecidableEq, Repr

/-- What the merge keeps of a record of one page. -/
structure Entry where
  timestamp : Text
  dataType : Text
  deriving DecidableEq, Repr

def HostRecord.keyed (r : HostRecord) : Int × Entry := (r.pfn, ⟨r.timestamp, r.dataType⟩)

/-- `parse_line`. A line of fewer than seven fields has no record; with more
than seven fields the start time is the last of them. -/
def parseLine (line : Text) : Except PyError (Option HostRecord) :=
  match words (strip line) with
  | t0 :: t1 :: t2 :: t3 :: t4 :: t5 :: t6 :: rest => do
      let pfn ← int t0
      let startTime ← int ((t6 :: rest).getLast (List.cons_ne_nil t6 rest))
      return some ⟨pfn, joinWords [t1, t2, t3], t4, t5, startTime⟩
  | _ => return none

/-- `parse_line_guest`. A guest line carries no process. -/
def parseLineGuest (line : Text) : Except PyError (Option (Int × Entry)) :=
  match words (strip line) with
  | t0 :: t1 :: t2 :: t3 :: t4 :: _ => do
      let pfn ← int t0
      return some (pfn, ⟨t4, joinWords [t1, t2, t3]⟩)
  | _ => return none

/-- `time_to_microseconds`. The last part of the stamp is added as it stands. -/
def timeToMicroseconds (timestamp : Text) : Except PyError Int := do
  let parts := timestamp.splitOn ':'
  let part (i : Nat) : Except PyError Int :=
    match parts[i]? with
    | some text => int text
    | none => .error .indexError
  let hours := (← part 0) * 3600 * 1000000
  let minutes := (← part 1) * 60 * 1000000
  let microseconds ← part 2
  return hours + minutes + microseconds

/-- The process name that the analyser looks for. -/
def qemuName : Text := "qemu-system-x86".toList

/-- One iteration of the loop of `filter_qemu_process`. The dictionary
`qemu_processes` only ever has the key `qemuName`; this is its value. -/
def filterQemuStep (selected : Option Int) (record : Option HostRecord) : Option Int :=
  match record with
  | none => selected
  | some r =>
      if r.processName = qemuName then
        match selected with
        | none => some r.startTime
        | some time => if r.startTime < time then some r.startTime else some time
      else selected

/-- `filter_qemu_process`: the least start time of a qemu record, if any. -/
def filterQemuProcess (lines : List Text) : Except PyError (Option Int) :=
  lines.foldlM (fun selected line => (parseLine line).map (filterQemuStep selected)) none

/-- The test of the collecting loop on a parsed record of exactly seven fields. -/
def accepts (selected : Int) (r : HostRecord) : Bool :=
  r.processName = qemuName && r.startTime = selected && (intText r.pfn).length = 15 &&
    r.timestamp ≠ [] && r.dataType ≠ []

/-- The record that the collecting loop takes from a line, if it takes one. -/
def acceptLine (selected : Int) (line : Text) : Except PyError (Option HostRecord) :=
  if (words (strip line)).length = 7 then
    (parseLine line).map fun record => record.filter (accepts selected)
  else .ok none

end Analyser
