import DoubleSwap.Redis.AtomicSave
import DoubleSwap.Redis.WholeDumps
import DoubleSwap.Transition.Runs

/-! The commands `SAVE` and `BGSAVE` of a running server, and the changes that a
power failure can lose. -/
namespace Redis

open Storage Transition

/-- What is to be saved. -/
structure Dataset where
  dbs : List RedisDb
  functions : List Bytes
  modulesAux : AuxWhen → List ModuleAux

/-- What a dump says of the server, and the constants of its module interface. -/
structure ServerInfo where
  redisVersion : Bytes
  redisBits : Int
  whence : AuxWhen → Nat
  redisVersion_lt : redisVersion.length < lenErr
  whence_lt : ∀ time, whence time < 2 ^ 31

/-- The data can be saved, and a server with the same modules and the same
engines takes them. -/
structure Dataset.Valid (server : FileServer) (flags : LoadFlags) (info : ServerInfo)
    (data : Dataset) : Prop where
  dbs : DbsValid server data.dbs
  modules : ∀ time, ∀ mt ∈ data.modulesAux time, AuxValid server (info.whence time) mt
  functions : ∀ code ∈ data.functions, code.length < lenErr
  libraries : ∃ libraries,
    data.functions.foldlM (server.createLibrary flags.allowDup) [] = some libraries

/-- A save, with all that is not the data: the process, the time, the state of
the replication and how its calls to the operating system end. -/
structure SaveJob where
  pid : Int
  time : Int
  usedMemory : Int
  replid : Bytes
  masterReplOffset : Int
  replStreamDb : Option Int
  infoUpdatedTime : Int
  outcome : Nat → Outcome
  replid_length : replid.length = replIdSize

namespace SaveJob

variable (job : SaveJob) (info : ServerInfo) (data : Dataset)

def context : DumpContext where
  redisVersion := info.redisVersion
  redisBits := info.redisBits
  time := job.time
  usedMemory := job.usedMemory
  replid := job.replid
  masterReplOffset := job.masterReplOffset
  functions := data.functions
  whence := info.whence
  modulesAux := data.modulesAux

/-- `SLAVE_REQ_NONE` and `RDBFLAGS_NONE`. -/
def request : DumpRequest := ⟨false, false, false, job.replStreamDb⟩

/-- `rdbSave`, with the disk after every call. -/
def run (server : FileServer) (filename : Bytes) (disk : Disk) : Bool × Machine :=
  rdbSave server (job.context info data) job.request data.dbs job.pid filename job.infoUpdatedTime
    ⟨disk, [], 0, job.outcome, 0, []⟩

end SaveJob

/-- The child process. A process that saves to the disk has a copy of the data. -/
inductive Child where
  | disk (pid : Int) (data : Dataset)
  | socket
  | other

/-- `child_type` is `CHILD_TYPE_RDB`. -/
def Child.isRdb : Child → Bool
  | .disk _ _ | .socket => true
  | .other => false

/-- The part of the server's state that is about saving. -/
structure Persistence where
  disk : Disk
  data : Dataset
  dirty : Int
  dirtyBeforeBgsave : Int
  lastsave : Int
  lastbgsaveTry : Int
  lastbgsaveStatus : Bool
  statRdbSaves : Nat
  child : Option Child

/-- How a child process ends: by itself, or by a signal after so many calls. -/
inductive ChildEnd where
  | exited
  | signalled (calls : Nat) (sigusr1 : Bool)

inductive PersistenceEvent where
  /-- Commands that change the data. -/
  | write (data : Dataset) (changes : Nat)
  | save (job : SaveJob) (now : Int)
  /-- `rdbSaveBackground`, with the process, if it can be forked. -/
  | bgsave (forked : Option Int) (now : Int)
  | otherChild (child : Child)
  /-- `backgroundSaveDoneHandler` for a process that has ended. -/
  | childDone (job : SaveJob) (how : ChildEnd) (bgsaveAborted unlinked : Bool) (saveEnd : Int)

section Model

variable (server : FileServer) (info : ServerInfo) (filename : Bytes)

def saveCommand (s : Persistence) (job : SaveJob) (now : Int) : Persistence :=
  if s.child.any Child.isRdb then s
  else
    match job.run info s.data server filename s.disk with
    | (false, m) => { s with statRdbSaves := s.statRdbSaves + 1, disk := m.disk }
    | (true, m) =>
        { s with
          statRdbSaves := s.statRdbSaves + 1
          disk := m.disk
          dirty := 0
          lastsave := now
          lastbgsaveStatus := true }

def rdbSaveBackground (s : Persistence) (forked : Option Int) (now : Int) : Persistence :=
  if s.child.isSome then s
  else
    let s := { s with
      statRdbSaves := s.statRdbSaves + 1
      dirtyBeforeBgsave := s.dirty
      lastbgsaveTry := now }
    match forked with
    | none => { s with lastbgsaveStatus := false }
    | some pid => { s with child := some (.disk pid s.data) }

def rdbRemoveTempFile (pid : Int) (unlinked : Bool) (disk : Disk) : Disk :=
  if unlinked then disk.unlink (tempFile server pid) else disk

/-- `bysignal` is `some true` for `SIGUSR1`. -/
def backgroundSaveDoneHandlerDisk (s : Persistence) (pid : Int) (exitOk : Bool)
    (bysignal : Option Bool) (unlinked : Bool) (saveEnd : Int) : Persistence :=
  match bysignal with
  | none =>
      if exitOk then
        { s with
          dirty := s.dirty - s.dirtyBeforeBgsave
          lastsave := saveEnd
          lastbgsaveStatus := true }
      else { s with lastbgsaveStatus := false }
  | some sigusr1 =>
      { s with
        disk := rdbRemoveTempFile server pid unlinked s.disk
        lastbgsaveStatus := s.lastbgsaveStatus && sigusr1 }

/-- The disk that a child process leaves. -/
def ChildEnd.disk (how : ChildEnd) (disk : Disk) (m : Machine) : Disk :=
  match how with
  | .exited => m.disk
  | .signalled calls _ => (disk :: m.seen).getD calls m.disk

def ChildEnd.bysignal (how : ChildEnd) (bgsaveAborted : Bool) : Option Bool :=
  match bgsaveAborted, how with
  | true, _ => some true
  | false, .exited => none
  | false, .signalled _ sigusr1 => some sigusr1

/-- The child process ran, and the server notices its end. -/
def childDone (s : Persistence) (job : SaveJob) (how : ChildEnd) (bgsaveAborted unlinked : Bool)
    (saveEnd : Int) : Option Persistence :=
  match s.child with
  | none => none
  | some .socket | some .other => some { s with child := none }
  | some (.disk pid data) =>
      match { job with pid := pid }.run info data server filename s.disk with
      | (ok, m) =>
          some (backgroundSaveDoneHandlerDisk server
            { s with disk := how.disk s.disk m, child := none } pid ok
            (how.bysignal bgsaveAborted) unlinked saveEnd)

def persistenceStep (s : Persistence) : PersistenceEvent → Option Persistence
  | .write data changes => some { s with data := data, dirty := s.dirty + changes }
  | .save job now => some (saveCommand server info filename s job now)
  | .bgsave forked now => some (rdbSaveBackground s forked now)
  | .otherChild (.disk _ _) => none
  | .otherChild child => if s.child.isSome then none else some { s with child := some child }
  | .childDone job how bgsaveAborted unlinked saveEnd =>
      childDone server info filename s job how bgsaveAborted unlinked saveEnd

def PersistenceStep (s : Persistence) (event : PersistenceEvent) (s' : Persistence) : Prop :=
  persistenceStep server info filename s event = some s'

/-- The disks that there are while the server runs: between the commands, and
after every call of a save. -/
inductive DiskDuring (s : Persistence) : Disk → Prop where
  | idle : DiskDuring s s.disk
  | saving {job : SaveJob} {ok : Bool} {m : Machine} {disk : Disk}
      (hChild : s.child.any Child.isRdb = false)
      (hRun : job.run info s.data server filename s.disk = (ok, m)) (hDisk : disk ∈ m.seen) :
      DiskDuring s disk
  | background {pid : Int} {data : Dataset} {job : SaveJob} {ok : Bool} {m : Machine} {disk : Disk}
      (hChild : s.child = some (.disk pid data)) (hPid : job.pid = pid)
      (hRun : job.run info data server filename s.disk = (ok, m)) (hDisk : disk ∈ m.seen) :
      DiskDuring s disk

end Model

/-- The number of changes that the events make. -/
def changesOf (events : List PersistenceEvent) : Nat :=
  (events.map fun
    | .write _ changes => changes
    | _ => 0).sum

theorem changesOf_append (events more : List PersistenceEvent) :
    changesOf (events ++ more) = changesOf events + changesOf more := by
  rw [changesOf, List.map_append, List.sum_append]
  rfl

section Runs

variable {server : FileServer} {info : ServerInfo} {filename : Bytes} {start s s' : Persistence}
  {events : List PersistenceEvent} {bound : Int} {content : Option Bytes}

/-- The content is a dump of the data at some time of the run, and since then
there were no more changes than the bound. -/
def DumpWithin (server : FileServer) (info : ServerInfo) (filename : Bytes) (start : Persistence)
    (events : List PersistenceEvent) (bound : Int) (content : Option Bytes) : Prop :=
  ∃ before after s₁, ∃ job : SaveJob, ∃ dump, events = before ++ after ∧
    Run (PersistenceStep server info filename) start before s₁ ∧ (changesOf after : Int) ≤ bound ∧
    IsDump server (job.context info s₁.data) job.request s₁.data.dbs dump ∧
    content = some dump

/-- It may also be what was there at the start. -/
def Recoverable (server : FileServer) (info : ServerInfo) (filename : Bytes) (start : Persistence)
    (events : List PersistenceEvent) (bound : Int) (content : Option Bytes) : Prop :=
  (content = start.disk.read filename ∧ (changesOf events : Int) ≤ bound) ∨
    DumpWithin server info filename start events bound content

/-- A dump gets older with every event, and the bound has to grow by its
changes. -/
theorem DumpWithin.extend (h : DumpWithin server info filename start events bound content)
    (event : PersistenceEvent) {bound' : Int} (hBound : bound + changesOf [event] ≤ bound') :
    DumpWithin server info filename start (events ++ [event]) bound' content := by
  obtain ⟨before, after, s₁, job, dump, hSplit, hRun, hChanges, hDump, hContent⟩ := h
  refine ⟨before, after ++ [event], s₁, job, dump, ?_, hRun, ?_, hDump, hContent⟩
  · rw [hSplit, List.append_assoc]
  · rw [changesOf_append]
    push_cast
    omega

/-- So does the file of the start. -/
theorem Recoverable.extend (h : Recoverable server info filename start events bound content)
    (event : PersistenceEvent) {bound' : Int} (hBound : bound + changesOf [event] ≤ bound') :
    Recoverable server info filename start (events ++ [event]) bound' content := by
  rcases h with ⟨hContent, hChanges⟩ | hDump
  · refine Or.inl ⟨hContent, ?_⟩
    rw [changesOf_append]
    push_cast
    omega
  · exact Or.inr (hDump.extend event hBound)

/-- A child process that saves has the data of an earlier time of the run, and
since then there were so many changes as the server will still count when it
has ended. -/
def CopyOf (server : FileServer) (info : ServerInfo) (filename : Bytes) (start : Persistence)
    (events : List PersistenceEvent) (s : Persistence) : Prop :=
  ∀ pid data, s.child = some (.disk pid data) → 0 ≤ s.dirtyBeforeBgsave ∧
    ∃ before after s₁, events = before ++ after ∧
      Run (PersistenceStep server info filename) start before s₁ ∧ s₁.data = data ∧
      (changesOf after : Int) = s.dirty - s.dirtyBeforeBgsave

/-- The copy of a child process gets older in the same way. -/
theorem CopyOf.extend (h : CopyOf server info filename start events s) {event : PersistenceEvent}
    (hChild : s'.child = s.child) (hBefore : s'.dirtyBeforeBgsave = s.dirtyBeforeBgsave)
    (hDirty : s.dirty + changesOf [event] = s'.dirty) :
    CopyOf server info filename start (events ++ [event]) s' := by
  intro pid data hDisk
  rw [hChild] at hDisk
  obtain ⟨hGe, before, after, s₁, hSplit, hRun, hData, hChanges⟩ := h pid data hDisk
  refine ⟨hBefore ▸ hGe, before, after ++ [event], s₁, ?_, hRun, hData, ?_⟩
  · rw [hSplit, List.append_assoc]
  · rw [changesOf_append]
    push_cast
    omega

/-- Without a child process that saves there is nothing to show. -/
theorem copyOf_of_ne (h : ∀ pid data, s.child ≠ some (.disk pid data)) :
    CopyOf server info filename start events s := fun pid data hDisk => absurd hDisk (h pid data)

/-- What holds after every run. -/
structure Saved (server : FileServer) (info : ServerInfo) (filename : Bytes) (start : Persistence)
    (events : List PersistenceEvent) (s : Persistence) : Prop where
  run : Run (PersistenceStep server info filename) start events s
  disk : Intact s.disk filename (Recoverable server info filename start events s.dirty)
  dirty_ge : 0 ≤ s.dirty
  child : CopyOf server info filename start events s

variable (hNames : ∀ pid, tempFile server pid ≠ filename)

include hNames in
/-- A save by this process or by its child. -/
theorem run_spec {P : Option Bytes → Prop} {job : SaveJob} {data : Dataset} {disk : Disk}
    (hDisk : Intact disk filename P) {ok : Bool} {m : Machine}
    (h : job.run info data server filename disk = (ok, m)) :
    ∃ P' : Option Bytes → Prop, m.Safe filename (fun c => P c ∨ P' c) ∧
      (∀ c, P' c → ∃ dump, c = some dump ∧
        IsDump server (job.context info data) job.request data.dbs dump) ∧
      (ok = true → Intact m.disk filename P') := by
  have hStart : Machine.Safe filename P ⟨disk, [], 0, job.outcome, 0, []⟩ :=
    ⟨hDisk, fun _ hMem => absurd hMem List.not_mem_nil⟩
  obtain ⟨dump, hDumps, hSafe, hOk⟩ := rdbSave_spec (hNames job.pid) hStart h
  refine ⟨fun c => ∃ d ∈ dump, c = some d, hSafe, ?_, ?_⟩
  · rintro c ⟨d, hd, rfl⟩
    exact ⟨d, rfl, hDumps d hd⟩
  · intro hSaved
    obtain ⟨d, hd, hIntact⟩ := hOk hSaved
    exact hIntact.mono fun c hc => ⟨d, hd, hc⟩

/-- An event that leaves the files alone. -/
theorem Saved.same (h : Saved server info filename start events s) {event : PersistenceEvent}
    (hRun : Run (PersistenceStep server info filename) start (events ++ [event]) s')
    (hDisk : s'.disk = s.disk) (hDirty : s.dirty + changesOf [event] = s'.dirty)
    (hChild : CopyOf server info filename start (events ++ [event]) s') :
    Saved server info filename start (events ++ [event]) s' where
  run := hRun
  disk := by
    rw [hDisk]
    exact h.disk.mono fun c hc => hc.extend event hDirty.le
  dirty_ge := by
    have hBefore := h.dirty_ge
    omega
  child := hChild

/-- A dump of the data at an earlier time, when the events after it are over. -/
theorem recoverable_of_isDump {before after : List PersistenceEvent} {s₁ : Persistence}
    {job : SaveJob} (hRun : Run (PersistenceStep server info filename) start before s₁)
    (hBound : (changesOf after : Int) ≤ bound)
    (hContent : ∃ dump, content = some dump ∧
      IsDump server (job.context info s₁.data) job.request s₁.data.dbs dump) :
    Recoverable server info filename start (before ++ after) bound content := by
  obtain ⟨dump, hSome, hDump⟩ := hContent
  exact Or.inr ⟨before, after, s₁, job, dump, rfl, hRun, hBound, hDump, hSome⟩

include hNames in
/-- `SAVE`, which is refused while a child process saves, and may fail. -/
theorem saved_save (h : Saved server info filename start events s) (job : SaveJob) (now : Int) :
    Saved server info filename start (events ++ [.save job now])
      (saveCommand server info filename s job now) := by
  have hRun : Run (PersistenceStep server info filename) start (events ++ [.save job now])
      (saveCommand server info filename s job now) := h.run.concat rfl
  have hNone : (changesOf [.save job now] : Int) = 0 := rfl
  rw [saveCommand] at hRun ⊢
  split_ifs at hRun ⊢ with hChild
  · exact h.same hRun rfl (by omega) (h.child.extend rfl rfl (by omega))
  · have hNoChild : ∀ pid data, s.child ≠ some (.disk pid data) := by
      intro pid data hDisk
      rw [hDisk] at hChild
      exact hChild rfl
    rcases hJob : job.run info s.data server filename s.disk with ⟨ok, m⟩
    obtain ⟨P', hSafe, hDumps, hOk⟩ := run_spec hNames h.disk hJob
    have hNew : ∀ bound, 0 ≤ bound → ∀ c, P' c →
        Recoverable server info filename start (events ++ [.save job now]) bound c :=
      fun bound hBound c hc => recoverable_of_isDump h.run (by omega) (hDumps c hc)
    rw [hJob] at hRun
    cases ok with
    | false =>
        refine ⟨hRun, hSafe.now.mono ?_, h.dirty_ge, copyOf_of_ne hNoChild⟩
        rintro c (hOld | hc)
        · exact hOld.extend _ (show s.dirty + changesOf _ ≤ s.dirty by omega)
        · exact hNew _ h.dirty_ge c hc
    | true =>
        exact ⟨hRun, (hOk rfl).mono (hNew 0 (Int.le_refl 0)), Int.le_refl 0,
          copyOf_of_ne hNoChild⟩

/-- `BGSAVE`: the child process has the data of this time. -/
theorem saved_bgsave (h : Saved server info filename start events s) (forked : Option Int)
    (now : Int) : Saved server info filename start (events ++ [.bgsave forked now])
      (rdbSaveBackground s forked now) := by
  have hRun : Run (PersistenceStep server info filename) start (events ++ [.bgsave forked now])
      (rdbSaveBackground s forked now) := h.run.concat rfl
  have hNone : (changesOf [.bgsave forked now] : Int) = 0 := rfl
  rw [rdbSaveBackground] at hRun ⊢
  split_ifs at hRun ⊢ with hChild
  · exact h.same hRun rfl (by omega) (h.child.extend rfl rfl (by omega))
  · cases forked with
    | none =>
        refine h.same hRun rfl (by rw [hNone, Int.add_zero]) (copyOf_of_ne ?_)
        intro pid data hDisk
        rw [show s.child = some (.disk pid data) from hDisk] at hChild
        exact hChild rfl
    | some pid =>
        refine h.same hRun rfl (by rw [hNone, Int.add_zero]) ?_
        intro pid' data hDisk
        cases hDisk
        refine ⟨h.dirty_ge, events, _, s, rfl, h.run, rfl, ?_⟩
        rw [hNone]
        exact (Int.sub_self s.dirty).symm

/-- Wherever the child process ends, it leaves one of the disks that there were. -/
theorem intact_of_end {P : Option Bytes → Prop} {disk : Disk} {m : Machine}
    (hDisk : Intact disk filename P) (hSafe : m.Safe filename P) (how : ChildEnd) :
    Intact (how.disk disk m) filename P := by
  cases how with
  | exited => exact hSafe.now
  | signalled calls sigusr1 =>
      show Intact ((disk :: m.seen).getD calls m.disk) filename P
      rw [List.getD_eq_getElem?_getD]
      cases hSeen : (disk :: m.seen)[calls]? with
      | none => exact hSafe.now
      | some seen =>
          rcases List.mem_cons.mp (List.mem_of_getElem? hSeen) with rfl | hMem
          · exact hDisk
          · exact hSafe.before seen hMem

include hNames in
/-- The end of the child process. Its dump is as old as the number of changes says
that `dirty` keeps. -/
theorem saved_childDone (h : Saved server info filename start events s) {job : SaveJob}
    {how : ChildEnd} {bgsaveAborted unlinked : Bool} {saveEnd : Int}
    (hStep : childDone server info filename s job how bgsaveAborted unlinked saveEnd = some s') :
    Saved server info filename start
      (events ++ [.childDone job how bgsaveAborted unlinked saveEnd]) s' := by
  have hRun : Run (PersistenceStep server info filename) start
      (events ++ [.childDone job how bgsaveAborted unlinked saveEnd]) s' := h.run.concat hStep
  have hNone : (changesOf [.childDone job how bgsaveAborted unlinked saveEnd] : Int) = 0 := rfl
  have hGone : ∀ s' : Persistence, s'.child = none → CopyOf server info filename start
      (events ++ [.childDone job how bgsaveAborted unlinked saveEnd]) s' := fun s' hNo =>
    copyOf_of_ne fun pid data hDisk => by rw [hNo] at hDisk; cases hDisk
  rw [childDone] at hStep
  split at hStep
  · cases hStep
  · obtain rfl := Option.some.inj hStep
    exact h.same hRun rfl (by rw [hNone, Int.add_zero]) (hGone _ rfl)
  · obtain rfl := Option.some.inj hStep
    exact h.same hRun rfl (by rw [hNone, Int.add_zero]) (hGone _ rfl)
  next pid data hChild =>
  rcases hJob : { job with pid := pid }.run info data server filename s.disk with ⟨ok, m⟩
  rw [hJob] at hStep
  obtain ⟨hGe, before, after, s₁, hSplit, hBefore, hData, hChanges⟩ := h.child pid data hChild
  subst hData
  obtain ⟨P', hSafe, hDumps, hOk⟩ := run_spec hNames h.disk hJob
  have hNew : ∀ bound, s.dirty - s.dirtyBeforeBgsave ≤ bound → ∀ c, P' c →
      Recoverable server info filename start
        (events ++ [.childDone job how bgsaveAborted unlinked saveEnd]) bound c := by
    intro bound hBound c hc
    rw [hSplit, List.append_assoc]
    refine recoverable_of_isDump hBefore ?_ (hDumps c hc)
    rw [changesOf_append]
    push_cast
    omega
  have hBound := h.dirty_ge
  have hEither : ∀ c, Recoverable server info filename start events s.dirty c ∨ P' c →
      Recoverable server info filename start
        (events ++ [.childDone job how bgsaveAborted unlinked saveEnd]) s.dirty c := by
    rintro c (hOld | hc)
    · exact hOld.extend _ (by omega)
    · exact hNew _ (by omega) c hc
  have hLeft : Intact (how.disk s.disk m) filename fun c =>
      Recoverable server info filename start events s.dirty c ∨ P' c :=
    intact_of_end (h.disk.mono fun c hc => Or.inl hc) hSafe how
  obtain rfl := Option.some.inj hStep
  cases hSignal : how.bysignal bgsaveAborted with
  | some sigusr1 =>
      rw [hSignal] at hRun
      refine ⟨hRun, ?_, hBound, hGone _ rfl⟩
      show Intact (rdbRemoveTempFile server pid unlinked (how.disk s.disk m)) filename _
      rw [rdbRemoveTempFile]
      split_ifs
      · exact (hLeft.unlink (hNames pid)).mono hEither
      · exact hLeft.mono hEither
  | none =>
      rw [hSignal] at hRun
      cases ok with
      | false => exact ⟨hRun, hLeft.mono hEither, hBound, hGone _ rfl⟩
      | true =>
          have hExited : how.disk s.disk m = m.disk := by
            cases bgsaveAborted <;> cases how <;> first | rfl | cases hSignal
          have hDirty : 0 ≤ s.dirty - s.dirtyBeforeBgsave := by omega
          refine ⟨hRun, ?_, hDirty, hGone _ rfl⟩
          show Intact (how.disk s.disk m) filename _
          rw [hExited]
          exact (hOk rfl).mono (hNew _ (Int.le_refl _))

include hNames in
/-- Every event, by its kind. -/
theorem saved_step (h : Saved server info filename start events s) {event : PersistenceEvent}
    (hStep : PersistenceStep server info filename s event s') :
    Saved server info filename start (events ++ [event]) s' := by
  have hRun := h.run.concat hStep
  cases event with
  | write data changes =>
      obtain rfl := Option.some.inj hStep
      have hCount : s.dirty + changesOf [.write data changes] = s.dirty + changes := rfl
      exact h.same hRun rfl hCount (h.child.extend rfl rfl hCount)
  | save job now =>
      obtain rfl := Option.some.inj hStep
      exact saved_save hNames h job now
  | bgsave forked now =>
      obtain rfl := Option.some.inj hStep
      exact saved_bgsave h forked now
  | otherChild child =>
      have hNone : (changesOf [.otherChild child] : Int) = 0 := rfl
      have hDone : ∀ kind, (∀ pid data, kind ≠ Child.disk pid data) →
          (if s.child.isSome then none else some { s with child := some kind }) = some s' →
          Saved server info filename start (events ++ [.otherChild child]) s' := by
        intro kind hKind hSome
        split_ifs at hSome
        obtain rfl := Option.some.inj hSome
        refine h.same hRun rfl (by rw [hNone, Int.add_zero]) (copyOf_of_ne ?_)
        exact fun pid data hDisk => hKind pid data (Option.some.inj hDisk)
      cases child with
      | disk pid data => cases hStep
      | socket => exact hDone .socket (fun _ _ => nofun) hStep
      | other => exact hDone .other (fun _ _ => nofun) hStep
  | childDone job how bgsaveAborted unlinked saveEnd => exact saved_childDone hNames h hStep

include hNames in
/-- What holds after any run. -/
theorem saved_of_run (hRun : Run (PersistenceStep server info filename) start events s)
    (hDisk : Intact start.disk filename (· = start.disk.read filename))
    (hDirty : start.dirty = 0) (hChild : start.child = none) :
    Saved server info filename start events s := by
  induction hRun with
  | nil =>
      refine ⟨Run.nil, hDisk.mono fun c hc => Or.inl ⟨hc, ?_⟩, hDirty.ge, copyOf_of_ne ?_⟩
      · rw [hDirty]
        exact Int.le_refl 0
      · intro pid data hDisk
        rw [hChild] at hDisk
        cases hDisk
  | concat prior last ih => exact saved_step hNames ih last

include hNames in
/-- Every disk that there is in between. -/
theorem intact_during (h : Saved server info filename start events s) {disk : Disk}
    (hDuring : DiskDuring server info filename s disk) :
    Intact disk filename (Recoverable server info filename start events s.dirty) := by
  cases hDuring with
  | idle => exact h.disk
  | saving hChild hRun hDisk =>
      obtain ⟨P', hSafe, hDumps, _⟩ := run_spec hNames h.disk hRun
      apply (hSafe.before disk hDisk).mono
      rintro c (hOld | hc)
      · exact hOld
      · have hNew : Recoverable server info filename start (events ++ []) s.dirty c :=
          recoverable_of_isDump h.run h.dirty_ge (hDumps c hc)
        rwa [List.append_nil] at hNew
  | background hChild hPid hRun hDisk =>
      obtain ⟨hGe, before, after, s₁, hSplit, hBefore, hData, hChanges⟩ := h.child _ _ hChild
      subst hData
      obtain ⟨P', hSafe, hDumps, _⟩ := run_spec hNames h.disk hRun
      apply (hSafe.before disk hDisk).mono
      rintro c (hOld | hc)
      · exact hOld
      · rw [hSplit]
        exact recoverable_of_isDump hBefore (by omega) (hDumps c hc)

/-- The loader takes the file for these data, but for what has expired since
then. -/
def LoadsAs (server : FileServer) (flags : LoadFlags) (data : Dataset) (dump : Bytes) : Prop :=
  ∃ loaded, rdbLoadRio server flags (Loading.start [] [] none) ⟨[], dump, false⟩ =
      (some loaded, ⟨dump, [], false⟩) ∧
    loaded.keys = (data.dbs.flatMap fun db => loadedKeys server flags db.dbid db.entries) ∧
    data.functions.foldlM (server.createLibrary flags.allowDup) [] = some loaded.functions ∧
    loaded.moduleAux =
      (data.modulesAux .before ++ data.modulesAux .after).filter fun mt => ¬ mt.Skipped

/-- A complete dump is loaded as the data that it was made of. -/
theorem loadsAs_of_isDump {flags : LoadFlags} (hServer : server.Sound)
    (hFeed : flags.feedRepl = true → server.replBacklog = true) {data : Dataset}
    (hData : data.Valid server flags info) {job : SaveJob} {dump : Bytes}
    (h : IsDump server (job.context info data) job.request data.dbs dump) :
    LoadsAs server flags data dump := by
  obtain ⟨libraries, hLibraries⟩ := hData.libraries
  have hCtx : (job.context info data).Valid server flags libraries :=
    { redisVersion := info.redisVersion_lt
      replid := by
        show job.replid.length < lenErr
        rw [job.replid_length]
        decide
      whence := info.whence_lt
      modules := hData.modules
      functions := hData.functions
      libraries := hLibraries }
  obtain ⟨fp, st, st', hFresh, hSave, rfl⟩ := h
  have hLoad : rdbLoadRio server flags (Loading.start [] [] none) ⟨[], st'.file ++ [], false⟩ =
      (some _, ⟨st'.file, [], false⟩) :=
    rdbLoadRio_rdbSaveFile hServer hCtx hFeed hData.dbs rfl rfl rfl hFresh hSave []
  rw [List.append_nil] at hLoad
  obtain ⟨hKeys, hFunctions, hModules, _⟩ := afterDump_data data.dbs none
  exact ⟨_, hLoad, hKeys, hLibraries.trans (congrArg some hFunctions.symm), hModules⟩

/-- Only commands change the data. -/
theorem data_of_step {event : PersistenceEvent}
    (hStep : PersistenceStep server info filename s event s') :
    s'.data = s.data ∨ ∃ changes, event = .write s'.data changes := by
  cases event with
  | write data changes =>
      obtain rfl := Option.some.inj hStep
      exact Or.inr ⟨changes, rfl⟩
  | save job now =>
      obtain rfl := Option.some.inj hStep
      rw [saveCommand]
      split_ifs
      · exact Or.inl rfl
      · split <;> exact Or.inl rfl
  | bgsave forked now =>
      obtain rfl := Option.some.inj hStep
      rw [rdbSaveBackground]
      split_ifs
      · exact Or.inl rfl
      · cases forked <;> exact Or.inl rfl
  | otherChild child =>
      rw [PersistenceStep] at hStep
      cases child with
      | disk pid data => cases hStep
      | socket | other =>
          simp only [persistenceStep] at hStep
          split_ifs at hStep
          obtain rfl := Option.some.inj hStep
          exact Or.inl rfl
  | childDone job how bgsaveAborted unlinked saveEnd =>
      rw [PersistenceStep, persistenceStep, childDone] at hStep
      split at hStep
      · cases hStep
      · obtain rfl := Option.some.inj hStep
        exact Or.inl rfl
      · obtain rfl := Option.some.inj hStep
        exact Or.inl rfl
      · obtain rfl := Option.some.inj hStep
        cases how.bysignal bgsaveAborted with
        | none =>
            refine Or.inl ?_
            rw [backgroundSaveDoneHandlerDisk]
            split_ifs <;> rfl
        | some sigusr1 => exact Or.inl rfl

/-- If all that the commands leave can be saved, this holds of the data after
every run. -/
theorem valid_of_run {flags : LoadFlags} (hStart : start.data.Valid server flags info)
    (hRun : Run (PersistenceStep server info filename) start events s)
    (hWrites : ∀ data changes, .write data changes ∈ events → data.Valid server flags info) :
    s.data.Valid server flags info := by
  induction hRun with
  | nil => exact hStart
  | concat prior last ih =>
      rcases data_of_step last with hSame | ⟨changes, rfl⟩
      · rw [hSame]
        exact ih fun data changes hMem => hWrites data changes (List.mem_append_left _ hMem)
      · exact hWrites _ changes (List.mem_append_right _ (List.mem_singleton_self _))

/-- Wherever the power fails, the file is loaded as the data of an earlier time,
and since then there were at most `dirty` changes; or the file is still the
first one, and there were no more changes than that in all. -/
theorem power_failure_loses_at_most_dirty {flags : LoadFlags} (hServer : server.Sound)
    (hFeed : flags.feedRepl = true → server.replBacklog = true)
    (hNames : ∀ pid, tempFile server pid ≠ filename)
    (hDisk : Intact start.disk filename (· = start.disk.read filename))
    (hDirty : start.dirty = 0) (hChild : start.child = none)
    (hStart : start.data.Valid server flags info)
    (hRun : Run (PersistenceStep server info filename) start events s)
    (hWrites : ∀ data changes, .write data changes ∈ events → data.Valid server flags info)
    {disk : Disk} (hDuring : DiskDuring server info filename s disk)
    {version : Directory Bytes} (hVersion : version ∈ disk.versions) (left : Nat → Bytes) :
    let content := (disk.powerFailure version left).read filename
    (content = start.disk.read filename ∧ (changesOf events : Int) ≤ s.dirty) ∨
      ∃ before after s₁ dump, events = before ++ after ∧
        Run (PersistenceStep server info filename) start before s₁ ∧
        (changesOf after : Int) ≤ s.dirty ∧ content = some dump ∧
        LoadsAs server flags s₁.data dump := by
  intro content
  have hSaved := saved_of_run hNames hRun hDisk hDirty hChild
  have hIntact := (intact_during hNames hSaved hDuring).powerFailure hVersion left
  rcases hIntact.read with hFirst | hDump
  · exact Or.inl hFirst
  · obtain ⟨before, after, s₁, job, dump, hSplit, hBefore, hChanges, hDump, hContent⟩ := hDump
    have hData : s₁.data.Valid server flags info := by
      refine valid_of_run hStart hBefore fun data changes hMem => hWrites data changes ?_
      rw [hSplit]
      exact List.mem_append_left _ hMem
    exact Or.inr ⟨before, after, s₁, dump, hSplit, hBefore, hChanges, hContent,
      loadsAs_of_isDump hServer hFeed hData hDump⟩

end Runs

def dumpName : Bytes := ascii "dump.rdb"

/-- A server whose file holds three bytes. -/
def firstPersistence : Persistence where
  disk := ⟨fun _ => ⟨[1, 2, 3], true⟩, fun name => if name = dumpName then some 0 else none,
    [fun name => if name = dumpName then some 0 else none], 1⟩
  data := ⟨[dumpDb], [[108]], fun _ => []⟩
  dirty := 0
  dirtyBeforeBgsave := 0
  lastsave := 0
  lastbgsaveTry := 0
  lastbgsaveStatus := true
  statRdbSaves := 0
  child := none

/-- Its directory knows one file, which is synced. -/
theorem intact_firstPersistence : Intact firstPersistence.disk dumpName
    (· = firstPersistence.disk.read dumpName) := by
  have hOnly : ∀ dir ∈ firstPersistence.disk.versions, ∀ name i, dir name = some i →
      name = dumpName ∧ i = 0 := by
    intro dir hDir name i hi
    obtain rfl := List.mem_singleton.mp hDir
    replace hi : (if name = dumpName then some 0 else none) = some i := hi
    split_ifs at hi with hName
    exact ⟨hName, (Option.some.inj hi).symm⟩
  refine ⟨List.mem_singleton_self _, ?_, ?_, ?_, fun _ _ _ _ => rfl, ?_⟩
  · intro dir hDir name i hi
    rw [(hOnly dir hDir name i hi).2]
    exact Nat.one_pos
  · intro dir hDir a b i ha hb
    rw [(hOnly dir hDir a i ha).1, (hOnly dir hDir b i hb).1]
  · intro name hName i hi
    exact absurd (hOnly _ (List.mem_singleton_self _) name i hi).1 hName
  · intro dir hDir
    obtain rfl := List.mem_singleton.mp hDir
    rfl

/-- The temporary file has another first letter. -/
theorem tempFile_ne_dumpName (pid : Int) : tempFile dumpServer pid ≠ dumpName := fun h => by
  have hFirst : some (116 : UInt8) = some 100 := congrArg List.head? h
  cases hFirst

/-- The constants and the version of that server. -/
def dumpInfo : ServerInfo where
  redisVersion := ascii "7.4"
  redisBits := 64
  whence := fun _ => 1
  redisVersion_lt := by decide
  whence_lt := fun _ => by decide

theorem firstPersistence_valid (flags : LoadFlags) :
    firstPersistence.data.Valid dumpServer flags dumpInfo where
  dbs := dumpDbs_valid
  modules := fun _ _ h => absurd h List.not_mem_nil
  functions := by decide
  libraries := ⟨[[108]], by cases hDup : flags.allowDup <;> rfl⟩

/-- A save in which every call succeeds. -/
def goodJob : SaveJob where
  pid := 7
  time := 0
  usedMemory := 0
  replid := List.replicate 40 97
  masterReplOffset := 0
  replStreamDb := none
  infoUpdatedTime := 0
  outcome := fun _ => ⟨true, 5⟩
  replid_length := by decide

theorem goodJob_recovers : ∃ s,
    Run (PersistenceStep dumpServer dumpInfo dumpName) firstPersistence
      [.save goodJob 0, .write firstPersistence.data 2] s ∧ s.dirty = 2 ∧
    ∀ version ∈ s.disk.versions, ∀ left,
      let content := (s.disk.powerFailure version left).read dumpName
      (content = some [1, 2, 3] ∧
        (changesOf [.save goodJob 0, .write firstPersistence.data 2] : Int) ≤ s.dirty) ∨
      ∃ before after s₁ dump,
        [.save goodJob 0, .write firstPersistence.data 2] = before ++ after ∧
          Run (PersistenceStep dumpServer dumpInfo dumpName) firstPersistence before s₁ ∧
          (changesOf after : Int) ≤ s.dirty ∧ content = some dump ∧
          LoadsAs dumpServer ⟨false, false, false⟩ s₁.data dump := by
  have hSave : (fun saved : Persistence =>
        (saved.dirty, (saved.disk.read dumpName).map List.length))
      (saveCommand dumpServer dumpInfo dumpName firstPersistence goodJob 0) = (0, some 143) := by
    decide +kernel
  have hStep : PersistenceStep dumpServer dumpInfo dumpName firstPersistence (.save goodJob 0)
      (saveCommand dumpServer dumpInfo dumpName firstPersistence goodJob 0) := rfl
  generalize saveCommand dumpServer dumpInfo dumpName firstPersistence goodJob 0 = saved
    at hSave hStep
  have hDirty : saved.dirty = 0 := congrArg Prod.fst hSave
  have hRun : Run (PersistenceStep dumpServer dumpInfo dumpName) firstPersistence
      [.save goodJob 0, .write firstPersistence.data 2]
      { saved with data := firstPersistence.data, dirty := saved.dirty + (2 : Nat) } :=
    Run.concat (Run.concat Run.nil hStep) rfl
  have hWrites : ∀ data changes,
      .write data changes ∈ [PersistenceEvent.save goodJob 0, .write firstPersistence.data 2] →
      data.Valid dumpServer ⟨false, false, false⟩ dumpInfo := by
    intro data changes hMem
    simp only [List.mem_cons, List.not_mem_nil, or_false, reduceCtorEq, false_or] at hMem
    obtain ⟨rfl, _⟩ := PersistenceEvent.write.inj hMem
    exact firstPersistence_valid _
  refine ⟨_, hRun, by rw [hDirty]; rfl, fun version hVersion left => ?_⟩
  exact power_failure_loses_at_most_dirty dumpServer_sound (fun h => by cases h)
    tempFile_ne_dumpName intact_firstPersistence rfl rfl (firstPersistence_valid _) hRun hWrites
    .idle hVersion left

end Redis
