import DoubleSwap.Data.CInt
import DoubleSwap.Transition.Runs

/-! The Redis injector: `main` and the threads that run `injectKeys`, one access
to what they share at a time. -/
namespace Injector

open CInt (toInt)
open Transition (Run)

abbrev maxThreads : Nat := 10

abbrev batchSize : Nat := 100

abbrev progressInterval : Int := 200000

/-- What a thread asks of its connection. -/
inductive Event where
  /-- The `SET` that is appended for an index. Its key is random. -/
  | set (index : Int)
  /-- A reply that is collected. -/
  | reply
  deriving DecidableEq, Repr

/-- Where a thread is in `injectKeys`. -/
inductive Pc where
  | notCreated
  | connect
  /-- The condition of the loop over the batches. -/
  | testBatch
  /-- The condition of the loop that appends, and its body. -/
  | append
  /-- The condition of the loop that collects, and its body up to the lock. -/
  | collect
  | lock
  /-- The two halves of `total_injected++`. -/
  | load
  | store
  /-- The test for the progress message. -/
  | report
  | unlock
  | finished
  /-- There was no connection, or no reply. -/
  | failed
  | undefined
  deriving DecidableEq, Repr

/-- The variables of a thread, and what it has asked of its connection. -/
structure Thread where
  pc : Pc
  i : Int
  /-- At most `batchSize`. -/
  j : Nat
  stop : Int
  value : Int
  log : List Event
  deriving DecidableEq, Repr

/-- What the threads share. -/
structure Shared where
  totalInjected : Int
  mutex : Option Nat
  /-- The counts that were printed on the way. -/
  printed : List Int
  deriving DecidableEq, Repr

section Thread

variable (nombreDeCles : Int) (threadId : Nat)

/-- `start` and `end`. -/
def bounds : Option (Int × Int) := do
  let keysPerThread := nombreDeCles.tdiv maxThreads
  let start ← toInt (threadId * keysPerThread)
  if threadId = maxThreads - 1 then return (start, nombreDeCles)
  else return (start, ← toInt (start + keysPerThread))

/-- The index that the inner loops go on with. -/
inductive Inner where
  | index (index : Int)
  | ended
  | undefined

/-- `j < BATCH_SIZE && (i + j) < end`. -/
def Thread.inner (th : Thread) : Inner :=
  if th.j < batchSize then
    match toInt (th.i + th.j) with
    | none => .undefined
    | some index => if index < th.stop then .index index else .ended
  else .ended

/-- A step of a thread, if it can go on. The connection is made or not, and the
next reply arrives or not, as `answer` says. -/
def Thread.step (answer : Bool) (shared : Shared) (th : Thread) : Option (Shared × Thread) :=
  match th.pc with
  | .notCreated | .finished | .failed | .undefined => none
  | .connect =>
      if answer then
        match bounds nombreDeCles threadId with
        | none => some (shared, { th with pc := .undefined })
        | some (start, stop) =>
            some (shared, { th with pc := .testBatch, i := start, stop := stop })
      else some (shared, { th with pc := .failed })
  | .testBatch =>
      if th.i < th.stop then some (shared, { th with pc := .append, j := 0 })
      else some (shared, { th with pc := .finished })
  | .append =>
      match th.inner with
      | .undefined => some (shared, { th with pc := .undefined })
      | .index index => some (shared, { th with j := th.j + 1, log := th.log ++ [.set index] })
      | .ended => some (shared, { th with pc := .collect, j := 0 })
  | .collect =>
      match th.inner with
      | .undefined => some (shared, { th with pc := .undefined })
      | .index _ =>
          if answer then some (shared, { th with pc := .lock, log := th.log ++ [.reply] })
          else some (shared, { th with pc := .failed })
      | .ended =>
          match toInt (th.i + batchSize) with
          | none => some (shared, { th with pc := .undefined })
          | some i => some (shared, { th with pc := .testBatch, i := i })
  | .lock =>
      if shared.mutex = none then
        some ({ shared with mutex := some threadId }, { th with pc := .load })
      else none
  | .load => some (shared, { th with pc := .store, value := shared.totalInjected })
  | .store =>
      match toInt (th.value + 1) with
      | none => some (shared, { th with pc := .undefined })
      | some total => some ({ shared with totalInjected := total }, { th with pc := .report })
  | .report =>
      if shared.totalInjected.tmod progressInterval = 0 then
        some ({ shared with printed := shared.printed ++ [shared.totalInjected] },
          { th with pc := .unlock })
      else some (shared, { th with pc := .unlock })
  | .unlock => some ({ shared with mutex := none }, { th with pc := .collect, j := th.j + 1 })

end Thread

/-- Where `main` is. -/
inductive Main where
  | check
  | rejected
  /-- The next thread to create. -/
  | create (i : Nat)
  /-- The next thread to join. -/
  | join (i : Nat)
  | done
  deriving DecidableEq, Repr

structure System where
  shared : Shared
  threads : Nat → Thread
  main : Main

/-- Who takes a step. -/
inductive Actor where
  | main
  | thread (id : Nat) (answer : Bool)
  deriving DecidableEq, Repr

/-- What `pthread_join` waits for. -/
def Thread.exited (th : Thread) : Bool := th.pc = .finished ∨ th.pc = .failed

section System

variable (nombreDeCles : Int)

def System.stepMain (s : System) : Option System :=
  match s.main with
  | .check =>
      if nombreDeCles ≤ 0 then some { s with main := .rejected }
      else some { s with main := .create 0 }
  | .create i =>
      if i < maxThreads then
        some { s with main := .create (i + 1),
                      threads := Function.update s.threads i { s.threads i with pc := .connect } }
      else some { s with main := .join 0 }
  | .join i =>
      if i < maxThreads then
        if (s.threads i).exited then some { s with main := .join (i + 1) } else none
      else some { s with main := .done }
  | .rejected | .done => none

def System.step (s : System) : Actor → Option System
  | .main => s.stepMain nombreDeCles
  | .thread id answer =>
      match (s.threads id).step nombreDeCles id answer s.shared with
      | none => none
      | some (shared, th) =>
          some { s with shared := shared, threads := Function.update s.threads id th }

/-- Before `main`. -/
def System.initial : System where
  shared := ⟨0, none, []⟩
  threads := fun _ => ⟨.notCreated, 0, 0, 0, 0, []⟩
  main := .check

/-- The interleavings of `main` and the threads. -/
def Reaches (actors : List Actor) (s : System) : Prop :=
  Run (fun s actor s' => s.step nombreDeCles actor = some s') System.initial actors s

/-- The connection is made, or the reply arrives. -/
def Actor.answered : Actor → Bool
  | .main => true
  | .thread _ answer => answer

end System

/-- The indices from `start` up to `stop`. -/
def span (start stop : Int) : List Int :=
  (List.range (stop - start).toNat).map fun k : Nat => start + k

/-- The indices of the range of a thread. -/
def indices (nombreDeCles : Int) (threadId : Nat) : List Int :=
  match bounds nombreDeCles threadId with
  | none => []
  | some (start, stop) => span start stop

/-- What a thread asks for a batch. -/
def batchEvents (batch : List Int) : List Event :=
  batch.map Event.set ++ batch.map fun _ => Event.reply

/-- The commands for some indices, in batches that are answered one by one. -/
def InBatches (log : List Event) (indices : List Int) : Prop :=
  ∃ batches : List (List Int), batches.flatten = indices ∧
    (∀ batch ∈ batches, batch.length ≤ batchSize) ∧ log = batches.flatMap batchEvents

/-- The injector inserts as many keys as it was asked for. -/
structure InsertsExactly (nombreDeCles : Int) : Prop where
  terminates : ∃ bound, ∀ actors s, Reaches nombreDeCles actors s → actors.length ≤ bound
  progress : ∀ actors s, Reaches nombreDeCles actors s →
    s.main = .done ∨ ∃ actor s', actor.answered ∧ s.step nombreDeCles actor = some s'
  defined : ∀ actors s, Reaches nombreDeCles actors s → ∀ t, (s.threads t).pc ≠ .undefined
  partition : (List.range maxThreads).flatMap (indices nombreDeCles) = span 0 nombreDeCles
  commands : ∀ actors s, Reaches nombreDeCles actors s → ∀ t,
    (s.threads t).pc = .finished → InBatches (s.threads t).log (indices nombreDeCles t)
  /-- When all replies arrive, the threads come to their ends, and the count is right. -/
  total : ∀ actors s, Reaches nombreDeCles actors s → (∀ actor ∈ actors, actor.answered) →
    s.main = .done →
      (∀ t < maxThreads, (s.threads t).pc = .finished) ∧ s.shared.totalInjected = nombreDeCles

end Injector
