import DoubleSwap.Text.Words

/-! Unsigned decimal numerals as `printf` writes them and as `int` reads them.
The reader accepts more than the writers produce: signs, surrounding blanks,
single underscores between digits, and the decimal digits of any script. -/
namespace Text

/-- `%lu` and `%llu`: the decimal numeral without leading zeros. -/
def decimal (n : Nat) : Text := Nat.toDigits 10 n

/-- `%0<width>lu`: the numeral padded with zeros on the left. -/
def padded (width n : Nat) : Text := (decimal n).leftpad width '0'

/-- `str(z)` for an integer of either sign. -/
def intText : Int → Text
  | .ofNat n => decimal n
  | .negSucc n => '-' :: decimal (n + 1)

/-- The zero of each range of ten consecutive decimal digits (Unicode `Nd`). -/
def digitZeros : List Nat :=
  [0x30, 0x660, 0x6f0, 0x7c0, 0x966, 0x9e6, 0xa66, 0xae6, 0xb66, 0xbe6, 0xc66, 0xce6, 0xd66,
    0xde6, 0xe50, 0xed0, 0xf20, 0x1040, 0x1090, 0x17e0, 0x1810, 0x1946, 0x19d0, 0x1a80, 0x1a90,
    0x1b50, 0x1bb0, 0x1c40, 0x1c50, 0xa620, 0xa8d0, 0xa900, 0xa9d0, 0xa9f0, 0xaa50, 0xabf0,
    0xff10, 0x104a0, 0x10d30, 0x11066, 0x110f0, 0x11136, 0x111d0, 0x112f0, 0x11450, 0x114d0,
    0x11650, 0x116c0, 0x11730, 0x118e0, 0x11950, 0x11c50, 0x11d50, 0x11da0, 0x16a60, 0x16ac0,
    0x16b50, 0x1d7ce, 0x1d7d8, 0x1d7e2, 0x1d7ec, 0x1d7f6, 0x1e140, 0x1e2f0, 0x1e950, 0x1fbf0]

def digitValue (c : Char) : Option Nat :=
  (digitZeros.find? fun base => base ≤ c.toNat && c.toNat < base + 10).map (c.toNat - ·)

/-- Continue a numeral whose value so far is `acc`. An underscore must be
followed by a digit. -/
def digitsFrom (acc : Nat) : Text → Option Nat
  | [] => some acc
  | '_' :: c :: rest => (digitValue c).bind fun d => digitsFrom (10 * acc + d) rest
  | c :: rest => (digitValue c).bind fun d => digitsFrom (10 * acc + d) rest

def parseDigits : Text → Option Nat
  | [] => none
  | c :: rest => (digitValue c).bind fun d => digitsFrom d rest

/-- The blanks that `int` skips around a numeral. -/
def isIntBlank (c : Char) : Bool := isSpace c && !(28 ≤ c.toNat && c.toNat ≤ 31)

/-- `int(s, 10)`, with `none` for the `ValueError`. The optional length limit
of recent interpreters is not part of it. -/
def parseInt (s : Text) : Option Int :=
  match stripWith isIntBlank s with
  | '-' :: rest => (parseDigits rest).map fun n => -(n : Int)
  | '+' :: rest => (parseDigits rest).map Int.ofNat
  | rest => (parseDigits rest).map Int.ofNat

/-- Only ASCII digits, and at least one of them. -/
def IsNumeral (s : Text) : Prop := s ≠ [] ∧ ∀ c ∈ s, c.isDigit = true

theorem toNat_of_isDigit {c : Char} (h : c.isDigit = true) : 48 ≤ c.toNat ∧ c.toNat ≤ 57 := by
  simp only [Char.isDigit, ge_iff_le, Bool.and_eq_true, decide_eq_true_eq] at h
  exact ⟨h.1, h.2⟩

theorem digitValue_of_isDigit {c : Char} (h : c.isDigit = true) :
    digitValue c = some (c.toNat - 48) := by
  obtain ⟨hLow, hHigh⟩ := toNat_of_isDigit h
  have hFirst : (48 ≤ c.toNat && c.toNat < 48 + 10) = true := by
    simp only [Bool.and_eq_true, decide_eq_true_eq]
    omega
  have hZeros : digitZeros = 48 :: digitZeros.tail := rfl
  rw [digitValue, hZeros, List.find?_cons_of_pos (by exact hFirst)]
  rfl

/-- One more digit. -/
theorem digitsFrom_cons_of_isDigit {c : Char} (h : c.isDigit = true) (acc : Nat) (rest : Text) :
    digitsFrom acc (c :: rest) = digitsFrom (10 * acc + (c.toNat - 48)) rest := by
  have hUnderscore : c ≠ '_' := by
    rintro rfl
    exact absurd h (by decide)
  rw [digitsFrom]
  · rw [digitValue_of_isDigit h]
    rfl
  · intro d tail hEq
    exact absurd hEq hUnderscore

/-- On plain digits the reader computes the positional value. -/
theorem digitsFrom_of_digits {s : Text} (h : ∀ c ∈ s, c.isDigit = true) (acc : Nat) :
    digitsFrom acc s = some (Nat.ofDigitChars 10 s acc) := by
  induction s generalizing acc with
  | nil => simp [digitsFrom]
  | cons c s ih =>
      rw [digitsFrom_cons_of_isDigit (h c List.mem_cons_self),
        ih (fun d hd => h d (List.mem_cons_of_mem _ hd)), Nat.ofDigitChars_cons]
      rfl

/-- A numeral is read as its digits. -/
theorem parseDigits_of_isNumeral {s : Text} (h : IsNumeral s) :
    parseDigits s = some (Nat.ofDigitChars 10 s 0) := by
  obtain ⟨c, rest, rfl⟩ := List.exists_cons_of_ne_nil h.1
  have hDigit := h.2 c List.mem_cons_self
  rw [parseDigits, digitValue_of_isDigit hDigit, Nat.ofDigitChars_cons]
  simpa using digitsFrom_of_digits (fun d hd => h.2 d (List.mem_cons_of_mem _ hd)) (c.toNat - 48)

theorem not_isSpace_of_isDigit {c : Char} (h : c.isDigit = true) : isSpace c = false := by
  obtain ⟨hLow, hHigh⟩ := toNat_of_isDigit h
  simp only [isSpace, Bool.or_eq_false_iff, Bool.and_eq_false_iff, decide_eq_false_iff_not,
    beq_eq_false_iff_ne, ne_eq]
  omega

/-- A character that is not a digit separates numerals. -/
theorem IsNumeral.beq_eq_false {s : Text} (h : IsNumeral s) {separator : Char}
    (hSeparator : separator.isDigit = false) : ∀ c ∈ s, (c == separator) = false := by
  intro c hc
  have hne : c ≠ separator := by
    rintro rfl
    rw [h.2 c hc] at hSeparator
    cases hSeparator
  exact beq_eq_false_iff_ne.mpr hne

/-- A numeral has no blanks. -/
theorem IsNumeral.isWord {s : Text} (h : IsNumeral s) : IsWord s :=
  ⟨h.1, fun c hc => not_isSpace_of_isDigit (h.2 c hc)⟩

theorem not_isIntBlank_of_isSpace {c : Char} (h : isSpace c = false) : isIntBlank c = false := by
  simp [isIntBlank, h]

theorem stripWith_of_forall {p : Char → Bool} {s : Text} (h : ∀ c ∈ s, p c = false) :
    stripWith p s = s := by
  have hDrop (t : Text) (ht : ∀ c ∈ t, p c = false) : t.dropWhile p = t := by
    cases t with
    | nil => rfl
    | cons c t => rw [List.dropWhile_cons_of_neg (by simp [ht c])]
  rw [stripWith, hDrop s h, hDrop s.reverse (fun c hc => h c (List.mem_reverse.mp hc)),
    List.reverse_reverse]

/-- A numeral without a sign is a number. -/
theorem parseInt_of_isNumeral {s : Text} (h : IsNumeral s) :
    parseInt s = some ((Nat.ofDigitChars 10 s 0 : Nat) : Int) := by
  have hStrip : stripWith isIntBlank s = s :=
    stripWith_of_forall fun c hc => not_isIntBlank_of_isSpace (not_isSpace_of_isDigit (h.2 c hc))
  obtain ⟨c, rest, rfl⟩ := List.exists_cons_of_ne_nil h.1
  have hDigit := h.2 c List.mem_cons_self
  have hMinus : c ≠ '-' := by
    rintro rfl
    exact absurd hDigit (by decide)
  have hPlus : c ≠ '+' := by
    rintro rfl
    exact absurd hDigit (by decide)
  simp only [parseInt, hStrip]
  split
  · next hEq => exact absurd (List.cons.inj hEq).1 hMinus
  · next hEq => exact absurd (List.cons.inj hEq).1 hPlus
  · rw [parseDigits_of_isNumeral h]
    rfl

/-- Every number has a numeral. -/
theorem isNumeral_decimal (n : Nat) : IsNumeral (decimal n) :=
  ⟨Nat.toDigits_ne_nil, fun _ hc => Nat.isDigit_of_mem_toDigits (by decide) (by decide) hc⟩

theorem isNumeral_padded (width n : Nat) : IsNumeral (padded width n) := by
  obtain ⟨hNonempty, hDigits⟩ := isNumeral_decimal n
  refine ⟨?_, ?_⟩
  · simp [padded, List.leftpad, hNonempty]
  · intro c hc
    rcases List.mem_append.mp hc with hc | hc
    · rw [List.eq_of_mem_replicate hc]
      decide
    · exact hDigits c hc

/-- A padded numeral is one field of a text that is split at another character. -/
theorem splitOnP_padded {separator : Char} (hSeparator : separator.isDigit = false)
    (width n : Nat) : (padded width n).splitOnP (· == separator) = [padded width n] :=
  List.splitOnP_eq_singleton ((isNumeral_padded width n).beq_eq_false hSeparator)

/-- `int` reads back what `%lu` wrote. -/
@[simp] theorem parseInt_decimal (n : Nat) : parseInt (decimal n) = some (n : Int) := by
  rw [parseInt_of_isNumeral (isNumeral_decimal n), decimal, Nat.ofDigitChars_ten_toDigits]

/-- Zero padding does not change the value of the digits. -/
theorem ofDigitChars_padded (width n : Nat) : Nat.ofDigitChars 10 (padded width n) 0 = n := by
  rw [padded, List.leftpad, Nat.ofDigitChars_append, Nat.ofDigitChars_replicate_zero,
    Nat.mul_zero, decimal, Nat.ofDigitChars_ten_toDigits]

/-- `int` reads it back as well. -/
@[simp] theorem parseInt_padded (width n : Nat) : parseInt (padded width n) = some (n : Int) := by
  rw [parseInt_of_isNumeral (isNumeral_padded width n), ofDigitChars_padded]

/-- A number that fits its width is written with exactly so many characters. -/
theorem length_padded {width n : Nat} (hWidth : 0 < width) (h : n < 10 ^ width) :
    (padded width n).length = width := by
  have hDigits : (decimal n).length ≤ width :=
    (Nat.length_toDigits_le_iff (by decide) hWidth).mpr h
  rw [padded, List.length_leftpad]
  omega

/-- A number of `k + 2` digits is written with `k + 2` characters. -/
theorem length_intText {z : Int} {k : Nat} (hLow : 10 ^ (k + 1) ≤ z) (hHigh : z < 10 ^ (k + 2)) :
    (intText z).length = k + 2 := by
  have hPositive : (0 : Int) ≤ z := le_trans (by positivity) hLow
  obtain ⟨n, rfl⟩ := Int.eq_ofNat_of_zero_le hPositive
  have hShort : (Nat.toDigits 10 n).length ≤ k + 2 :=
    (Nat.length_toDigits_le_iff (by decide) (by omega)).mpr (by exact_mod_cast hHigh)
  have hLong : ¬ (Nat.toDigits 10 n).length ≤ k + 1 := by
    rw [Nat.length_toDigits_le_iff (by decide) (by omega), not_lt]
    exact_mod_cast hLow
  show (Nat.toDigits 10 n).length = k + 2
  omega

/-- The first digits of a numeral are the numeral of a quotient. -/
theorem take_decimal {k : Nat} (hPos : 0 < k) (n : Nat) :
    (decimal n).take k = decimal (n / 10 ^ ((decimal n).length - k)) := by
  induction n using Nat.strongRecOn with
  | ind n ih =>
      by_cases hShort : (decimal n).length ≤ k
      · rw [List.take_of_length_le hShort, Nat.sub_eq_zero_of_le hShort, Nat.pow_zero, Nat.div_one]
      · have hTen : 10 ≤ n := by
          by_contra hDigit
          have hOne : (decimal n).length ≤ 1 :=
            (Nat.length_toDigits_le_iff (by decide) Nat.one_pos).mpr (by omega)
          omega
        have hLast : decimal n = decimal (n / 10) ++ [(n % 10).digitChar] :=
          Nat.toDigits_of_base_le (by decide) hTen
        have hLength : (decimal n).length = (decimal (n / 10)).length + 1 := by
          rw [hLast, List.length_append, List.length_singleton]
        have hExponent : (decimal n).length - k = (decimal (n / 10)).length - k + 1 := by omega
        rw [hExponent, Nat.pow_succ', ← Nat.div_div_eq_div_mul, ← ih (n / 10) (by omega), hLast,
          List.take_append_of_le_length (by omega)]

theorem isWord_intText (z : Int) : IsWord (intText z) := by
  cases z with
  | ofNat n => exact (isNumeral_decimal n).isWord
  | negSucc n =>
      refine ⟨List.cons_ne_nil _ _, ?_⟩
      intro c hc
      rcases List.mem_cons.mp hc with rfl | hc
      · decide
      · exact (isNumeral_decimal (n + 1)).isWord.2 c hc

/-- `int` reads back what `str` wrote. -/
@[simp] theorem parseInt_intText (z : Int) : parseInt (intText z) = some z := by
  cases z with
  | ofNat n => exact parseInt_decimal n
  | negSucc n =>
      have hStrip : stripWith isIntBlank ('-' :: decimal (n + 1)) = '-' :: decimal (n + 1) :=
        stripWith_of_forall fun c hc =>
          not_isIntBlank_of_isSpace ((isWord_intText (.negSucc n)).2 c hc)
      simp only [parseInt, intText, hStrip]
      rw [parseDigits_of_isNumeral (isNumeral_decimal (n + 1)), decimal,
        Nat.ofDigitChars_ten_toDigits]
      rfl

end Text
