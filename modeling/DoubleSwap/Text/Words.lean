import Mathlib.Data.List.TakeWhile
import Mathlib.Tactic

/-! Character lists and the white-space splitting of a scripting language.
A field is a maximal run of characters that are not white space; splitting
never yields an empty field. Nothing here depends on what the fields mean. -/

/-- Text read from or written to a file, as its decoded characters. -/
abbrev Text := List Char

namespace Text

/-- The characters that separate fields (Unicode white space). -/
def isSpace (c : Char) : Bool :=
  (9 ≤ c.toNat && c.toNat ≤ 13) || (28 ≤ c.toNat && c.toNat ≤ 32) ||
    c.toNat == 0x85 || c.toNat == 0xa0 || c.toNat == 0x1680 ||
    (0x2000 ≤ c.toNat && c.toNat ≤ 0x200a) || c.toNat == 0x2028 || c.toNat == 0x2029 ||
    c.toNat == 0x202f || c.toNat == 0x205f || c.toNat == 0x3000

/-- Remove the characters that satisfy `p` from both ends. -/
def stripWith (p : Char → Bool) (s : Text) : Text :=
  ((s.dropWhile p).reverse.dropWhile p).reverse

/-- `s.strip()`. -/
def strip (s : Text) : Text := stripWith isSpace s

/-- `s.split()`: the fields between runs of white space. -/
def words (s : Text) : List Text := (s.splitOnP isSpace).filter (· ≠ [])

/-- `" ".join(fields)`. -/
def joinWords (fields : List Text) : Text := [' '].intercalate fields

/-- `s.split(sep)` for a separator of two characters. The pieces may be empty. -/
def splitPair (first second : Char) : Text → List Text
  | [] => [[]]
  | [c] => [[c]]
  | c :: d :: rest =>
      if c = first ∧ d = second then [] :: splitPair first second rest
      else (splitPair first second (d :: rest)).modifyHead (c :: ·)

/-- A field as `words` yields it: not empty and without white space. -/
def IsWord (w : Text) : Prop := w ≠ [] ∧ ∀ c ∈ w, isSpace c = false

@[simp] theorem words_nil : words [] = [] := by simp [words, List.splitOnP_nil]

/-- A separator ends every field of the text before it. All the equations
for `words` below follow from this one. -/
theorem words_append_space (s rest : Text) {c : Char} (hc : isSpace c = true) :
    words (s ++ c :: rest) = words s ++ words rest := by
  rw [words, List.splitOnP_append_cons s rest hc, List.filter_append]
  rfl

theorem words_cons_space {c : Char} (hc : isSpace c = true) (s : Text) :
    words (c :: s) = words s := by
  simpa using words_append_space [] s hc

theorem words_eq_nil_of_spaces {s : Text} (h : ∀ c ∈ s, isSpace c = true) : words s = [] := by
  induction s with
  | nil => exact words_nil
  | cons c s ih =>
      rw [words_cons_space (h c List.mem_cons_self)]
      exact ih (fun d hd => h d (List.mem_cons_of_mem _ hd))

theorem words_append_spaces (s tail : Text) (h : ∀ c ∈ tail, isSpace c = true) :
    words (s ++ tail) = words s := by
  cases tail with
  | nil => rw [List.append_nil]
  | cons c tail =>
      rw [words_append_space s tail (h c List.mem_cons_self),
        words_eq_nil_of_spaces (fun d hd => h d (List.mem_cons_of_mem _ hd)), List.append_nil]

theorem words_singleton {w : Text} (hw : IsWord w) : words w = [w] := by
  rw [words, List.splitOnP_eq_singleton hw.2]
  simp [hw.1]

theorem words_word_space {w : Text} (hw : IsWord w) {c : Char} (hc : isSpace c = true)
    (rest : Text) : words (w ++ c :: rest) = w :: words rest := by
  rw [words_append_space w rest hc, words_singleton hw]
  rfl

private theorem not_of_mem_splitOnP {p : Char → Bool} {s field : Text}
    (hField : field ∈ s.splitOnP p) : ∀ c ∈ field, p c = false := by
  induction s generalizing field with
  | nil =>
      rw [List.splitOnP_nil, List.mem_singleton] at hField
      subst hField
      simp
  | cons d s ih =>
      rw [List.splitOnP_cons_eq_if_modifyHead] at hField
      split_ifs at hField with hd
      · rcases List.mem_cons.mp hField with rfl | hField
        · simp
        · exact ih hField
      · obtain ⟨first, others, hSplit⟩ := List.exists_cons_of_ne_nil (List.splitOnP_ne_nil p s)
        rw [hSplit, List.modifyHead_cons] at hField
        rcases List.mem_cons.mp hField with rfl | hField
        · intro c hc
          rcases List.mem_cons.mp hc with rfl | hc
          · simpa using hd
          · exact ih (hSplit ▸ List.mem_cons_self) c hc
        · exact ih (hSplit ▸ List.mem_cons_of_mem _ hField)

/-- Every field of a text is a word, whatever the text. -/
theorem isWord_of_mem_words {s w : Text} (hw : w ∈ words s) : IsWord w := by
  obtain ⟨hSplit, hNonempty⟩ := List.mem_filter.mp hw
  exact ⟨by simpa using hNonempty, not_of_mem_splitOnP hSplit⟩

theorem words_dropWhile_isSpace (s : Text) : words (s.dropWhile isSpace) = words s := by
  induction s with
  | nil => rfl
  | cons c s ih =>
      by_cases hc : isSpace c = true
      · rw [List.dropWhile_cons_of_pos hc, ih, words_cons_space hc]
      · rw [List.dropWhile_cons_of_neg hc]

/-- Stripping first does not change the fields. -/
@[simp] theorem words_strip (s : Text) : words (strip s) = words s := by
  rw [← words_dropWhile_isSpace s]
  have hSplit : s.dropWhile isSpace =
      strip s ++ ((s.dropWhile isSpace).reverse.takeWhile isSpace).reverse := by
    rw [strip, stripWith, ← List.reverse_append, List.takeWhile_append_dropWhile,
      List.reverse_reverse]
  conv_rhs => rw [hSplit]
  refine (words_append_spaces _ _ ?_).symm
  intro c hc
  exact List.mem_takeWhile_imp (List.mem_reverse.mp hc)

theorem joinWords_cons_cons (w next : Text) (fields : List Text) :
    joinWords (w :: next :: fields) = w ++ ' ' :: joinWords (next :: fields) := by
  simp [joinWords, List.intercalate, List.intersperse]

/-- Joining words with one blank and splitting again gives the words back. -/
theorem words_joinWords {fields : List Text} (h : ∀ w ∈ fields, IsWord w) :
    words (joinWords fields) = fields := by
  induction fields with
  | nil => exact words_nil
  | cons w fields ih =>
      have hw := h w List.mem_cons_self
      cases fields with
      | nil => simpa [joinWords] using words_singleton hw
      | cons next fields =>
          rw [joinWords_cons_cons, words_word_space hw (by decide),
            ih (fun v hv => h v (List.mem_cons_of_mem _ hv))]

/-- Blanks at the end go, and nothing else, when neither end of the text
before them is a blank. -/
theorem strip_append_spaces {s tail : Text} (hFirst : ∀ c ∈ s.head?, isSpace c = false)
    (hLast : ∀ c ∈ s.getLast?, isSpace c = false) (hTail : ∀ c ∈ tail, isSpace c = true) :
    strip (s ++ tail) = s := by
  have hKeep (t : Text) (ht : ∀ c ∈ t.head?, isSpace c = false) : t.dropWhile isSpace = t := by
    cases t with
    | nil => rfl
    | cons c t => rw [List.dropWhile_cons_of_neg (by simp [ht c rfl])]
  cases s with
  | nil =>
      have hNone : tail.dropWhile isSpace = [] := List.dropWhile_eq_nil_iff.mpr hTail
      rw [List.nil_append, strip, stripWith, hNone]
      rfl
  | cons c s =>
      have hFront : (c :: s ++ tail).dropWhile isSpace = c :: s ++ tail :=
        hKeep _ (by simpa using hFirst)
      have hBack : (c :: s ++ tail).reverse.dropWhile isSpace = (c :: s).reverse := by
        rw [List.reverse_append, List.dropWhile_append_of_pos
          (fun d hd => hTail d (List.mem_reverse.mp hd))]
        exact hKeep _ (by rwa [List.head?_reverse])
      rw [strip, stripWith, hFront, hBack, List.reverse_reverse]

/-- A text without the second character of the separator is one piece. -/
theorem splitPair_eq_singleton {first second : Char} {s : Text} (h : second ∉ s) :
    splitPair first second s = [s] := by
  induction s with
  | nil => rfl
  | cons c s ih =>
      cases s with
      | nil => rfl
      | cons d s =>
          have hPair : ¬ (c = first ∧ d = second) := by
            rintro ⟨-, rfl⟩
            exact h (List.mem_cons_of_mem _ List.mem_cons_self)
          rw [splitPair, if_neg hPair, ih (fun hMem => h (List.mem_cons_of_mem _ hMem))]
          rfl

/-- The first separator ends the first piece. -/
theorem splitPair_append {first second : Char} (hne : first ≠ second) {s : Text}
    (h : second ∉ s) (rest : Text) :
    splitPair first second (s ++ first :: second :: rest) =
      s :: splitPair first second rest := by
  induction s with
  | nil => rw [List.nil_append, splitPair, if_pos ⟨rfl, rfl⟩]
  | cons c s ih =>
      have hTail := ih fun hMem => h (List.mem_cons_of_mem _ hMem)
      cases s with
      | nil =>
          rw [List.nil_append] at hTail
          rw [List.cons_append, List.nil_append, splitPair, if_neg (fun hPair => hne hPair.2),
            hTail]
          rfl
      | cons d s =>
          have hPair : ¬ (c = first ∧ d = second) := by
            rintro ⟨-, rfl⟩
            exact h (List.mem_cons_of_mem _ List.mem_cons_self)
          rw [List.cons_append] at hTail
          rw [List.cons_append, List.cons_append, splitPair, if_neg hPair, hTail]
          rfl

end Text
