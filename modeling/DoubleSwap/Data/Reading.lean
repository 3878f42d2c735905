import Mathlib.Data.List.Basic
import Mathlib.Tactic

/-! Programs that read a file from front to back. A read that finds too few
symbols leaves a mark, and after it every read fails. -/
namespace Reading

variable {β α γ : Type}

/-- A file: what was read, what is left, and whether a read has failed. -/
structure Source (β : Type) where
  past : List β
  rest : List β
  failed : Bool
  deriving DecidableEq, Repr

/-- A reader gives no value when it gives up. -/
def Reader (β α : Type) : Type := Source β → Option α × Source β

namespace Reader

instance : Monad (Reader β) where
  pure a := fun source => (some a, source)
  bind r f := fun source =>
    match r source with
    | (none, source') => (none, source')
    | (some a, source') => f a source'

def fail : Reader β α := fun source => (none, source)

/-- The next `length` symbols, or nothing when there are fewer. -/
def take (length : Nat) : Reader β (Option (List β)) := fun source =>
  if source.failed ∨ source.rest.length < length then (some none, { source with failed := true })
  else
    (some (some (source.rest.take length)),
      ⟨source.past ++ source.rest.take length, source.rest.drop length, false⟩)

/-- The next symbol, or nothing at the end of the file. -/
def next : Reader β (Option β) := do
  match ← take 1 with
  | some (symbol :: _) => return some symbol
  | _ => return none

/-- Whether a read has failed. -/
def failed : Reader β Bool := fun source => (some source.failed, source)

/-- The symbols that were read. -/
def past : Reader β (List β) := fun source => (some source.past, source)

/-- Read and give up when there are too few symbols. -/
def demand (length : Nat) : Reader β (List β) := do
  match ← take length with
  | none => fail
  | some symbols => return symbols

/-- A loop over an accumulator. -/
def repeatFrom (body : γ → Reader β γ) : Nat → γ → Reader β γ
  | 0, acc => pure acc
  | count + 1, acc => do
      let next ← body acc
      repeatFrom body count next

/-- A loop of at most `fuel` rounds, until the body gives a result. -/
def rounds {δ : Type} (body : γ → Reader β (γ ⊕ δ)) : Nat → γ → Reader β δ
  | 0, _ => fail
  | fuel + 1, acc => do
      match ← body acc with
      | .inl next => rounds body fuel next
      | .inr result => return result

/-- A loop that goes on until the body gives a result. Every round is to read
something, so that the length of the file bounds the number of rounds. -/
def loop {δ : Type} (body : γ → Reader β (γ ⊕ δ)) (acc : γ) : Reader β δ := fun source =>
  rounds body (source.rest.length + 1) acc source

end Reader

open Reader

/-- On a file that goes on with `used` the reader takes `used`, and it gives `a`. -/
def Reads (r : Reader β α) (used : List β) (a : α) : Prop :=
  ∀ past rest, r ⟨past, used ++ rest, false⟩ = (some a, ⟨past ++ used, rest, false⟩)

/-- A reader that gives up leaves the rest to nobody. -/
theorem bind_of_none {r : Reader β α} {source source' : Source β} (h : r source = (none, source'))
    (f : α → Reader β γ) : (r >>= f) source = (none, source') := by
  show (match r source with
    | (none, source') => (none, source')
    | (some a, source') => f a source') = _
  rw [h]

theorem bind_of_some {r : Reader β α} {source source' : Source β} {a : α}
    (h : r source = (some a, source')) (f : α → Reader β γ) : (r >>= f) source = f a source' := by
  show (match r source with
    | (none, source') => (none, source')
    | (some a, source') => f a source') = _
  rw [h]

/-- Two readers succeed if both do, one after the other. -/
theorem bind_eq_some_iff {r : Reader β α} {f : α → Reader β γ} {source source' : Source β} {c : γ} :
    (r >>= f) source = (some c, source') ↔
      ∃ a between, r source = (some a, between) ∧ f a between = (some c, source') := by
  rcases h : r source with ⟨_ | a, between⟩
  · rw [bind_of_none h]
    simp
  · rw [bind_of_some h]
    simp

/-- What was read although the reader would have given up. -/
theorem of_unless_fail {p : Prop} [Decidable p] {r : Reader β α} {source source' : Source β} {a : α}
    (h : (if p then fail else r) source = (some a, source')) :
    ¬ p ∧ r source = (some a, source') := by
  split_ifs at h with hp
  · cases h
  · exact ⟨hp, h⟩

/-- Readers can be regrouped. -/
theorem Reader.bind_assoc {δ : Type} (r : Reader β α) (f : α → Reader β γ) (g : γ → Reader β δ) :
    ((r >>= f) >>= g) = r >>= fun a => f a >>= g := by
  funext source
  rcases h : r source with ⟨_ | a, source'⟩
  · rw [bind_of_none h, bind_of_none (bind_of_none h f) g]
  · rw [bind_of_some h]
    show (match (r >>= f) source with
      | (none, source') => (none, source')
      | (some c, source') => g c source') = _
    rw [bind_of_some h]
    rfl

theorem reads_pure (a : α) : Reads (pure a : Reader β α) [] a := by
  intro past rest
  rw [List.append_nil]
  rfl

/-- What one reader uses up, and then the other. -/
theorem Reads.bind {r : Reader β α} {f : α → Reader β γ} {used more : List β} {a : α} {c : γ}
    (hFirst : Reads r used a) (hRest : Reads (f a) more c) :
    Reads (r >>= f) (used ++ more) c := by
  intro past rest
  rw [List.append_assoc, bind_of_some (hFirst past (more ++ rest)) f, hRest (past ++ used) rest,
    List.append_assoc]

/-- What is made of the value, without reading on. -/
theorem Reads.then_pure {r : Reader β α} {f : α → Reader β γ} {used : List β} {a : α} {c : γ}
    (h : Reads r used a) (hf : f a = pure c) : Reads (r >>= f) used c := by
  have hBind : Reads (r >>= f) (used ++ []) c := h.bind (hf ▸ reads_pure c)
  rwa [List.append_nil] at hBind

/-- Where there are enough symbols they are taken. -/
theorem reads_take (used : List β) : Reads (take used.length) used (some used) := by
  intro past rest
  rw [take, if_neg (by simp), List.take_left, List.drop_left]

theorem reads_demand (used : List β) : Reads (demand used.length) used used :=
  (reads_take used).then_pure rfl

theorem reads_next (symbol : β) : Reads next [symbol] (some symbol) :=
  (reads_take [symbol]).then_pure rfl

theorem reads_failed : Reads (failed : Reader β Bool) [] false := by
  intro past rest
  rw [List.append_nil]
  rfl

/-- The reader takes a part of the file from its front, and cutting the file
off makes it run into the end or is not noticed by it. -/
structure Sequential (r : Reader β α) : Prop where
  shrinks : ∀ source, (r source).2.rest.length ≤ source.rest.length
  sticky : ∀ source, source.failed = true → (r source).2.failed = true
  cut : ∀ past kept lost, (r ⟨past, kept, false⟩).2.failed = true ∨
    ∃ used tail, kept = used ++ tail ∧
      r ⟨past, kept ++ lost, false⟩ =
        ((r ⟨past, kept, false⟩).1, ⟨past ++ used, tail ++ lost, false⟩) ∧
      (r ⟨past, kept, false⟩).2 = ⟨past ++ used, tail, false⟩

/-- A reader that leaves the file alone and does not look ahead. -/
theorem sequential_of_still {r : Reader β α} (hStill : ∀ source, (r source).2 = source)
    (hValue : ∀ past rest rest', (r ⟨past, rest, false⟩).1 = (r ⟨past, rest', false⟩).1) :
    Sequential r where
  shrinks source := by rw [hStill]
  sticky source h := by rwa [hStill]
  cut past kept lost := by
    refine Or.inr ⟨[], kept, rfl, ?_, ?_⟩
    · rw [List.append_nil]
      exact Prod.ext (hValue past (kept ++ lost) kept) (hStill _)
    · rw [List.append_nil]
      exact hStill _

theorem sequential_pure (a : α) : Sequential (pure a : Reader β α) :=
  sequential_of_still (fun _ => rfl) (fun _ _ _ => rfl)

theorem sequential_fail : Sequential (fail : Reader β α) :=
  sequential_of_still (fun _ => rfl) (fun _ _ _ => rfl)

theorem sequential_failed : Sequential (failed : Reader β Bool) :=
  sequential_of_still (fun _ => rfl) (fun _ _ _ => rfl)

/-- What was read already is not changed by what comes later. -/
theorem sequential_past : Sequential (past : Reader β (List β)) :=
  sequential_of_still (fun _ => rfl) (fun _ _ _ => rfl)

/-- A reader that finds too few symbols is the only one that notices the end. -/
theorem sequential_take (length : Nat) : Sequential (take length : Reader β _) where
  shrinks source := by
    rw [take]
    split_ifs
    · exact Nat.le_refl _
    · exact (List.length_drop ..).trans_le (Nat.sub_le _ _)
  sticky source h := by rw [take, if_pos (Or.inl h)]
  cut past kept lost := by
    by_cases hShort : kept.length < length
    · left
      rw [take, if_pos (Or.inr hShort)]
    · right
      have hLong : ¬ (kept ++ lost).length < length := by
        rw [List.length_append]
        omega
      refine ⟨kept.take length, kept.drop length, (List.take_append_drop length kept).symm, ?_, ?_⟩
      · rw [take, take, if_neg (by simpa using hLong), if_neg (by simpa using hShort)]
        rw [List.take_append_of_le_length (by omega), List.drop_append_of_le_length (by omega)]
      · rw [take, if_neg (by simpa using hShort)]

/-- Two sequential readers, one after the other. -/
theorem Sequential.bind {r : Reader β α} {f : α → Reader β γ} (hFirst : Sequential r)
    (hRest : ∀ a, Sequential (f a)) : Sequential (r >>= f) := by
  have hSticky : ∀ source, (r source).2.failed = true → ((r >>= f) source).2.failed = true := by
    intro source h
    rcases hResult : r source with ⟨_ | a, source'⟩
    · rw [bind_of_none hResult f]
      rwa [hResult] at h
    · rw [bind_of_some hResult f]
      rw [hResult] at h
      exact (hRest a).sticky source' h
  refine ⟨fun source => ?_, fun source h => hSticky source (hFirst.sticky source h),
    fun past kept lost => ?_⟩
  · have hShrinks := hFirst.shrinks source
    rcases hResult : r source with ⟨_ | a, source'⟩
    · rw [bind_of_none hResult f]
      rwa [hResult] at hShrinks
    · rw [bind_of_some hResult f]
      rw [hResult] at hShrinks
      exact ((hRest a).shrinks source').trans hShrinks
  · rcases hFirst.cut past kept lost with hFailed | ⟨used, tail, hKept, hWhole, hPart⟩
    · exact Or.inl (hSticky _ hFailed)
    · rcases hResult : r ⟨past, kept, false⟩ with ⟨_ | a, source'⟩
      · rw [hResult] at hWhole hPart
        refine Or.inr ⟨used, tail, hKept, ?_, ?_⟩
        · rw [bind_of_none hWhole f, bind_of_none hResult f]
        · rwa [bind_of_none hResult f]
      · rw [hResult] at hWhole hPart
        obtain rfl : source' = ⟨past ++ used, tail, false⟩ := hPart
        rw [bind_of_some hWhole f, bind_of_some hResult f]
        rcases (hRest a).cut (past ++ used) tail lost with
          hFailed | ⟨more, tail', hTail, hRun, hEnd⟩
        · exact Or.inl hFailed
        · refine Or.inr ⟨used ++ more, tail', ?_, ?_, ?_⟩
          · rw [hKept, hTail, List.append_assoc]
          · rw [hRun, List.append_assoc]
          · rw [hEnd, List.append_assoc]

theorem sequential_demand (length : Nat) : Sequential (demand length : Reader β _) := by
  refine (sequential_take length).bind fun symbols => ?_
  cases symbols with
  | none => exact sequential_fail
  | some symbols => exact sequential_pure symbols

theorem sequential_next : Sequential (next : Reader β _) := by
  refine (sequential_take 1).bind fun symbols => ?_
  rcases symbols with _ | _ | ⟨symbol, _⟩
  · exact sequential_pure none
  · exact sequential_pure none
  · exact sequential_pure (some symbol)

/-- A loop with a counter, by induction on it. -/
theorem sequential_repeatFrom {body : γ → Reader β γ} (h : ∀ acc, Sequential (body acc))
    (count : Nat) (acc : γ) : Sequential (repeatFrom body count acc) := by
  induction count generalizing acc with
  | zero => exact sequential_pure acc
  | succ count ih => exact (h acc).bind ih

/-- A choice that does not depend on the source. -/
theorem Sequential.ite {p : Prop} [Decidable p] {r r' : Reader β α} (h : Sequential r)
    (h' : Sequential r') : Sequential (if p then r else r') := by
  split_ifs
  · exact h
  · exact h'

/-- A reader that takes the whole file fails on every shorter one. -/
theorem Sequential.fails_of_cut {r : Reader β α} (h : Sequential r) {past kept lost past' : List β}
    (hWhole : (r ⟨past, kept ++ lost, false⟩).2 = ⟨past', [], false⟩) (hLost : lost ≠ []) :
    (r ⟨past, kept, false⟩).2.failed = true := by
  rcases h.cut past kept lost with hFailed | ⟨used, tail, _, hRun, _⟩
  · exact hFailed
  · rw [hRun] at hWhole
    have hRest : tail ++ lost = [] := congrArg Source.rest hWhole
    exact absurd (List.append_eq_nil_iff.mp hRest).2 hLost

section Loop

variable {δ : Type} {body : γ → Reader β (γ ⊕ δ)}

/-- A round after which the loop goes on has read something. -/
def Consumes (body : γ → Reader β (γ ⊕ δ)) : Prop :=
  ∀ acc source next source', body acc source = (some (.inl next), source') →
    source'.rest.length < source.rest.length

/-- A symbol is read, or there is none. -/
theorem next_cases (source : Source β) :
    (∃ source', next source = (some none, source')) ∨
      ∃ b source', next source = (some (some b), source') ∧
        source'.rest.length < source.rest.length := by
  by_cases hShort : source.failed ∨ source.rest.length < 1
  · have hTake : take 1 source = (some none, { source with failed := true }) := if_pos hShort
    refine Or.inl ⟨{ source with failed := true }, ?_⟩
    rw [next, bind_of_some hTake]
    rfl
  · have hTake : take 1 source = (some (some (source.rest.take 1)),
        ⟨source.past ++ source.rest.take 1, source.rest.drop 1, false⟩) := if_neg hShort
    cases hRest : source.rest with
    | nil =>
        rw [hRest] at hShort
        exact absurd (Or.inr Nat.zero_lt_one) hShort
    | cons b rest =>
        rw [hRest] at hTake
        refine Or.inr ⟨b, ⟨source.past ++ [b], rest, false⟩, ?_, Nat.lt_succ_self _⟩
        rw [next, bind_of_some hTake]
        rfl

/-- Whenever the reader gives a value it has read something. -/
def Consuming (r : Reader β α) : Prop :=
  ∀ source a source', r source = (some a, source') → source'.rest.length < source.rest.length

/-- What follows may be empty. -/
theorem Consuming.bind {r : Reader β α} {f : α → Reader β γ} (h : Consuming r)
    (hRest : ∀ a, Sequential (f a)) : Consuming (r >>= f) := by
  intro source c source' hRun
  obtain ⟨a, between, hFirst, hSecond⟩ := bind_eq_some_iff.mp hRun
  have hShrinks := (hRest a).shrinks between
  rw [hSecond] at hShrinks
  exact hShrinks.trans_lt (h source a between hFirst)

/-- A reader that reads a symbol first, and has no value without one. -/
theorem consuming_of_next {f : Option β → Reader β α}
    (hNone : ∀ source, (f none source).1 = none) (hSome : ∀ b, Sequential (f (some b))) :
    Consuming (next >>= f) := by
  intro source a source' hRun
  rcases next_cases source with ⟨between, hNext⟩ | ⟨b, between, hNext, hLess⟩
  · rw [bind_of_some hNext] at hRun
    have hValue := hNone between
    rw [hRun] at hValue
    cases hValue
  · rw [bind_of_some hNext] at hRun
    have hShrinks := (hSome b).shrinks between
    rw [hRun] at hShrinks
    exact hShrinks.trans_lt hLess

theorem consumes_of_consuming (h : ∀ acc, Consuming (body acc)) : Consumes body :=
  fun acc source next source' hRun => h acc source (.inl next) source' hRun

/-- More rounds than there are symbols make no difference. -/
theorem rounds_eq (h : Consumes body) {fuel fuel' : Nat} {acc : γ} {source : Source β}
    (hFuel : source.rest.length < fuel) (hFuel' : source.rest.length < fuel') :
    rounds body fuel acc source = rounds body fuel' acc source := by
  induction fuel generalizing fuel' acc source with
  | zero => exact absurd hFuel (Nat.not_lt_zero _)
  | succ fuel ih =>
      cases fuel' with
      | zero => exact absurd hFuel' (Nat.not_lt_zero _)
      | succ fuel' =>
          rw [rounds, rounds]
          rcases hBody : body acc source with ⟨_ | next | result, source'⟩
          · rw [bind_of_none hBody, bind_of_none hBody]
          · rw [bind_of_some hBody, bind_of_some hBody]
            have hLess := h acc source next source' hBody
            exact ih (by omega) (by omega)
          · rw [bind_of_some hBody, bind_of_some hBody]

/-- One round and then the others. -/
theorem loop_eq (h : Consumes body) (acc : γ) :
    loop body acc = body acc >>= fun
      | .inl next => loop body next
      | .inr result => pure result := by
  funext source
  rw [loop, rounds]
  rcases hBody : body acc source with ⟨_ | next | result, source'⟩
  · rw [bind_of_none hBody, bind_of_none hBody]
  · rw [bind_of_some hBody, bind_of_some hBody]
    have hLess := h acc source next source' hBody
    exact rounds_eq h hLess (Nat.lt_succ_self _)
  · rw [bind_of_some hBody, bind_of_some hBody]

/-- On these symbols the loop gets from one state to the other. -/
def Advances (body : γ → Reader β (γ ⊕ δ)) (used : List β) (acc acc' : γ) : Prop :=
  ∀ more result, Reads (loop body acc') more result → Reads (loop body acc) (used ++ more) result

/-- No round uses up nothing. -/
theorem advances_refl (acc : γ) : Advances body [] acc acc := fun _ _ h => h

/-- The rounds for the first symbols, and those for the next. -/
theorem Advances.trans {used used' : List β} {acc acc' acc'' : γ}
    (hFirst : Advances body used acc acc') (hRest : Advances body used' acc' acc'') :
    Advances body (used ++ used') acc acc'' := by
  intro more result h
  rw [List.append_assoc]
  exact hFirst _ _ (hRest _ _ h)

/-- A single round. -/
theorem Advances.of_reads (h : Consumes body) {used : List β} {acc acc' : γ}
    (hBody : Reads (body acc) used (.inl acc')) : Advances body used acc acc' := by
  intro more result hRest
  rw [loop_eq h]
  exact hBody.bind hRest

/-- The last round ends the loop. -/
theorem reads_loop_of_end (h : Consumes body) {used : List β} {acc : γ} {result : δ}
    (hBody : Reads (body acc) used (.inr result)) : Reads (loop body acc) used result := by
  rw [loop_eq h]
  exact hBody.then_pure rfl

/-- The rounds of a loop, by induction on the fuel. -/
theorem sequential_rounds (h : ∀ acc, Sequential (body acc)) (fuel : Nat) (acc : γ) :
    Sequential (rounds body fuel acc) := by
  induction fuel generalizing acc with
  | zero => exact sequential_fail
  | succ fuel ih =>
      refine (h acc).bind fun step => ?_
      cases step with
      | inl next => exact ih next
      | inr result => exact sequential_pure result

/-- A loop whose rounds use up symbols has enough fuel, so that more symbols at
the end do not matter. -/
theorem sequential_loop (hBody : ∀ acc, Sequential (body acc)) (hConsumes : Consumes body)
    (acc : γ) : Sequential (loop body acc) where
  shrinks source := (sequential_rounds hBody _ acc).shrinks source
  sticky source h := (sequential_rounds hBody _ acc).sticky source h
  cut past kept lost := by
    have hMore : loop body acc ⟨past, kept, false⟩ =
        rounds body ((kept ++ lost).length + 1) acc ⟨past, kept, false⟩ :=
      rounds_eq hConsumes (Nat.lt_succ_self _) (by simp only [List.length_append]; omega)
    rw [hMore]
    exact (sequential_rounds hBody _ acc).cut past kept lost

/-- What holds at the start and after every round holds at the end. -/
theorem loop_induction {P : γ → Prop} {Q : δ → Source β → Prop} {acc : γ} (hStart : P acc)
    (hStep : ∀ acc source next source', P acc → body acc source = (some (.inl next), source') →
      P next)
    (hEnd : ∀ acc source result source', P acc → body acc source = (some (.inr result), source') →
      Q result source') {source source' : Source β} {result : δ}
    (h : loop body acc source = (some result, source')) : Q result source' := by
  have hRounds : ∀ fuel acc source, P acc → rounds body fuel acc source = (some result, source') →
      Q result source' := by
    intro fuel
    induction fuel with
    | zero =>
        intro acc source _ hFail
        cases hFail
    | succ fuel ih =>
        intro acc source hAcc hRun
        rw [rounds] at hRun
        rcases hBody : body acc source with ⟨_ | next | last, between⟩
        · rw [bind_of_none hBody] at hRun
          cases hRun
        · rw [bind_of_some hBody] at hRun
          exact ih next between (hStep _ _ _ _ hAcc hBody) hRun
        · rw [bind_of_some hBody] at hRun
          cases hRun
          exact hEnd _ _ _ _ hAcc hBody
  exact hRounds _ acc source hStart h

end Loop

/-- What holds of every value that the reader gives. -/
def Yields (r : Reader β α) (P : α → Prop) : Prop :=
  ∀ source a source', r source = (some a, source') → P a

section Yields

variable {r r' : Reader β α} {f : α → Reader β γ} {P P' : α → Prop} {Q : γ → Prop}

theorem yields_pure {a : α} (h : P a) : Yields (pure a : Reader β α) P := by
  intro source a' source' hRun
  obtain rfl : a = a' := Option.some.inj (congrArg Prod.fst hRun)
  exact h

theorem yields_fail : Yields (fail : Reader β α) P := by
  intro source a source' hRun
  cases hRun

/-- What the first reader yields may be used for the second. -/
theorem Yields.bind (hFirst : Yields r P) (hRest : ∀ a, P a → Yields (f a) Q) :
    Yields (r >>= f) Q := by
  intro source c source' hRun
  obtain ⟨a, between, hRead, hNext⟩ := bind_eq_some_iff.mp hRun
  exact hRest a (hFirst _ _ _ hRead) _ _ _ hNext

/-- Whatever is read first. -/
theorem yields_after (hRest : ∀ a, Yields (f a) Q) : Yields (r >>= f) Q := by
  intro source c source' hRun
  obtain ⟨a, between, _, hNext⟩ := bind_eq_some_iff.mp hRun
  exact hRest a _ _ _ hNext

/-- A reader may be known to yield less. -/
theorem Yields.mono (h : Yields r P) (hImp : ∀ a, P a → P' a) : Yields r P' :=
  fun source a source' hRun => hImp a (h source a source' hRun)

/-- The condition may be used in its branch. -/
theorem yields_ite {p : Prop} [Decidable p] (h : p → Yields r P) (h' : ¬ p → Yields r' P) :
    Yields (if p then r else r') P := by
  split_ifs with hp
  · exact h hp
  · exact h' hp

/-- What is taken has the length that was asked for. -/
theorem yields_take (length : Nat) :
    Yields (take length : Reader β _) fun symbols => ∀ s ∈ symbols, s.length = length := by
  intro source symbols source' hRun
  rw [take] at hRun
  split_ifs at hRun with hShort
  · cases hRun
    exact fun s h => absurd h (Option.not_mem_none s)
  · cases hRun
    intro s hs
    obtain rfl := Option.mem_some_iff.mp hs
    rw [List.length_take]
    omega

theorem yields_demand (length : Nat) :
    Yields (demand length : Reader β _) fun symbols => symbols.length = length := by
  refine (yields_take length).bind fun symbols hSymbols => ?_
  cases symbols with
  | none => exact yields_fail
  | some symbols => exact yields_pure (hSymbols symbols rfl)

/-- What holds after so many rounds. -/
theorem yields_repeatFrom {body : γ → Reader β γ} {I : Nat → γ → Prop}
    (h : ∀ done acc, I done acc → Yields (body acc) (I (done + 1))) (count : Nat) {done : Nat}
    {acc : γ} (hAcc : I done acc) : Yields (repeatFrom body count acc) (I (done + count)) := by
  induction count generalizing done acc with
  | zero => exact yields_pure hAcc
  | succ count ih =>
      refine (h done acc hAcc).bind fun next hNext => ?_
      rw [Nat.add_comm count 1, ← Nat.add_assoc]
      exact ih hNext

end Yields

/-- Where symbols were found there was no failure before. -/
theorem failed_of_take {length : Nat} {source source' : Source β} {symbols : List β}
    (h : take length source = (some (some symbols), source')) : source'.failed = false := by
  rw [take] at h
  split_ifs at h
  · cases h
  · exact (congrArg (fun result => Source.failed (Prod.snd result)) h).symm

/-- Where all symbols were there, no read has failed. -/
theorem failed_of_demand {length : Nat} {source source' : Source β} {symbols : List β}
    (h : demand length source = (some symbols, source')) : source'.failed = false := by
  obtain ⟨taken, between, hTake, hRest⟩ := bind_eq_some_iff.mp h
  cases taken with
  | none => cases hRest
  | some taken =>
      cases hRest
      exact failed_of_take hTake

theorem failed_of_next {b : β} {source source' : Source β}
    (h : next source = (some (some b), source')) : source'.failed = false := by
  obtain ⟨taken, between, hTake, hRest⟩ := bind_eq_some_iff.mp h
  rcases taken with _ | _ | ⟨symbol, symbols⟩
  · cases hRest
  · cases hRest
  · cases hRest
    exact failed_of_take hTake

end Reading
