import DoubleSwap.Transition.Runs

/-! Deferred work. Items are issued at one time and performed once, in any
order, at a later time; what is recorded is the time at which they are
performed. The times of a key are in the order of issue exactly when every item
that is overtaken by a later one is performed before the clock moves on. -/
namespace Transition

variable {α τ κ : Type} [PartialOrder τ]

/-- An item that has been performed, with its place in the order of issue. -/
structure Performed (α τ : Type) where
  ticket : Nat
  item : α
  time : τ

structure Pool (α τ : Type) where
  now : τ
  issued : Nat
  pending : List (Nat × α)
  performed : List (Performed α τ)

inductive Action (α τ : Type) where
  | issue (item : α)
  | perform (ticket : Nat) (item : α)
  | advance (time : τ)

/-- Any pending item may be performed next, and the clock never goes back. -/
inductive Pool.Step : Pool α τ → Action α τ → Pool α τ → Prop where
  | issue (p : Pool α τ) (item : α) :
      Step p (.issue item)
        { p with issued := p.issued + 1, pending := p.pending ++ [(p.issued, item)] }
  | perform (p : Pool α τ) {before after : List (Nat × α)} {ticket : Nat} {item : α}
      (hPending : p.pending = before ++ (ticket, item) :: after) :
      Step p (.perform ticket item)
        { p with
          pending := before ++ after
          performed := p.performed ++ [⟨ticket, item, p.now⟩] }
  | advance (p : Pool α τ) {time : τ} (hLater : p.now ≤ time) :
      Step p (.advance time) { p with now := time }

/-- The times of the items of each key are in the order of issue. -/
def Pool.InOrder (key : α → κ) (p : Pool α τ) : Prop :=
  ∀ x ∈ p.performed, ∀ y ∈ p.performed,
    key x.item = key y.item → x.ticket < y.ticket → x.time ≤ y.time

/-- Where items of its key have overtaken the item that is performed, they
were performed at the present time. -/
def Pool.Prompt (key : α → κ) (p : Pool α τ) : Action α τ → Prop
  | .perform ticket item =>
      ∀ y ∈ p.performed, key y.item = key item → ticket < y.ticket → y.time = p.now
  | _ => True

/-- No item of its key has overtaken the item that is performed. -/
def Pool.InTurn (key : α → κ) (p : Pool α τ) : Action α τ → Prop
  | .perform ticket item => ∀ y ∈ p.performed, key y.item = key item → y.ticket ≤ ticket
  | _ => True

namespace Pool

variable {key : α → κ} {p q start : Pool α τ} {action : Action α τ} {actions : List (Action α τ)}

/-- Nothing has been performed in the future. -/
def Past (p : Pool α τ) : Prop := ∀ x ∈ p.performed, x.time ≤ p.now

theorem Past.step (h : p.Past) (hStep : Step p action q) : q.Past := by
  cases hStep with
  | issue item => exact h
  | perform hPending =>
      intro x hx
      rcases List.mem_append.mp hx with hOld | hNew
      · exact h x hOld
      · rw [List.mem_singleton.mp hNew]
  | advance hLater => exact fun x hx => (h x hx).trans hLater

/-- A step keeps the order exactly when it is prompt. -/
theorem inOrder_step_iff (hPast : p.Past) (hStep : Step p action q) :
    q.InOrder key ↔ p.InOrder key ∧ p.Prompt key action := by
  cases hStep with
  | issue item => exact (and_iff_left trivial).symm
  | advance hLater => exact (and_iff_left trivial).symm
  | @perform before after ticket item hPending =>
      constructor
      · intro hOrder
        refine ⟨fun x hx y hy =>
          hOrder x (List.mem_append_left _ hx) y (List.mem_append_left _ hy), ?_⟩
        intro y hy hKey hTicket
        apply le_antisymm (hPast y hy)
        exact hOrder ⟨ticket, item, p.now⟩ (by simp) y (List.mem_append_left _ hy) hKey.symm hTicket
      · intro h x hx y hy hKey hTicket
        rcases List.mem_append.mp hx with hxOld | hxNew
        · rcases List.mem_append.mp hy with hyOld | hyNew
          · exact h.1 x hxOld y hyOld hKey hTicket
          · rw [List.mem_singleton.mp hyNew]
            exact hPast x hxOld
        · rw [List.mem_singleton.mp hxNew] at hKey hTicket ⊢
          rcases List.mem_append.mp hy with hyOld | hyNew
          · exact (h.2 y hyOld hKey.symm hTicket).ge
          · rw [List.mem_singleton.mp hyNew]

/-- After a run the times are in the order of issue exactly when every step of
the run was prompt. -/
theorem inOrder_iff_prompt (run : Run Step start actions p) (hStart : start.performed = []) :
    p.InOrder key ↔ Run (fun s a t => Step s a t ∧ s.Prompt key a) start actions p := by
  have hPastStart : start.Past := by
    intro x hx
    rw [hStart] at hx
    cases hx
  constructor
  · intro hOrder
    induction run with
    | nil => exact Run.nil
    | concat prior last ih =>
        have hPast := prior.invariant hPastStart fun _ _ _ h hStep => h.step hStep
        obtain ⟨hBefore, hPrompt⟩ := (inOrder_step_iff hPast last).mp hOrder
        exact Run.concat (ih hBefore) ⟨last, hPrompt⟩
  · intro hRun
    have hBoth : p.InOrder key ∧ p.Past := by
      apply hRun.invariant
      · refine ⟨?_, hPastStart⟩
        intro x hx
        rw [hStart] at hx
        cases hx
      · intro s a t h hStep
        exact ⟨(inOrder_step_iff h.2 hStep.1).mpr ⟨h.1, hStep.2⟩, h.2.step hStep.1⟩
    exact hBoth.1

omit [PartialOrder τ] in
theorem InTurn.prompt (h : p.InTurn key action) : p.Prompt key action := by
  cases action with
  | issue item => trivial
  | advance time => trivial
  | perform ticket item =>
      intro y hy hKey hTicket
      exact absurd hTicket (Nat.not_lt.mpr (h y hy hKey))

/-- If the items of each key are performed in the order of issue, their times are
in that order, whatever the clock does in between. -/
theorem inOrder_of_inTurn (run : Run (fun s a t => Step s a t ∧ s.InTurn key a) start actions p)
    (hStart : start.performed = []) : p.InOrder key := by
  have hPrompt : Run (fun s a t => Step s a t ∧ s.Prompt key a) start actions p :=
    run.mono fun _ _ _ h => ⟨h.1, h.2.prompt⟩
  exact (inOrder_iff_prompt (hPrompt.mono fun _ _ _ h => h.1) hStart).mpr hPrompt

end Pool

end Transition
