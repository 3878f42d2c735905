import DoubleSwap.Redis.SaveDisk
import DoubleSwap.Redis.WriterInvariants

/-! A save replaces the file as a whole or leaves it alone, whichever calls fail
and wherever it is stopped. -/
namespace Redis

open Storage

variable {filename tmpfile : Bytes} {P P' : Option Bytes → Prop} {m m' : Machine} {fp : Nat}

/-- The file was intact after every call. -/
structure Machine.Safe (filename : Bytes) (P : Option Bytes → Prop) (m : Machine) : Prop where
  now : Intact m.disk filename P
  before : ∀ disk ∈ m.seen, Intact disk filename P

/-- The file may be known to hold less than is promised. -/
theorem Machine.Safe.mono (h : m.Safe filename P) (hMono : ∀ c, P c → P' c) :
    m.Safe filename P' :=
  ⟨h.now.mono hMono, fun disk hDisk => (h.before disk hDisk).mono hMono⟩

/-- A call that leaves the file intact is one more such call. -/
theorem Machine.Safe.after (h : m.Safe filename P) {disk : Disk} (hDisk : Intact disk filename P)
    (buffer : Bytes) : (m.after disk buffer).Safe filename P where
  now := hDisk
  before old hOld := by
    rcases List.mem_append.mp hOld with hSeen | hNew
    · exact h.before old hSeen
    · rwa [List.mem_singleton.mp hNew]

/-- Another file than the target is open. -/
structure Machine.Writing (filename tmpfile : Bytes) (P : Option Bytes → Prop) (fp : Nat)
    (m : Machine) : Prop where
  safe : m.Safe filename P
  opened : m.disk.dir tmpfile = some fp

/-- What is in the file, with what is still in the buffer. -/
def Machine.written (fp : Nat) (m : Machine) : Bytes := (m.disk.inodes fp).content ++ m.buffer

section Calls

variable (hTmp : tmpfile ≠ filename)

include hTmp in
/-- What goes from the buffer to another file does not touch the target. -/
theorem Machine.Writing.spill (h : m.Writing filename tmpfile P fp) (bytes : Bytes) (taken : Nat) :
    (m.spill fp bytes taken).Writing filename tmpfile P fp where
  safe := h.safe.after (h.safe.now.append hTmp h.opened _) _
  opened := (congrFun (dir_append fp _) tmpfile).trans h.opened

theorem content_spill (bytes : Bytes) (taken : Nat) :
    ((m.spill fp bytes taken).disk.inodes fp).content =
      (m.disk.inodes fp).content ++ bytes.take taken :=
  content_append fp _

/-- To empty the buffer into the file loses nothing. -/
theorem written_spill (bytes : Bytes) (taken : Nat) :
    (m.spill fp bytes taken).written fp = (m.disk.inodes fp).content ++ bytes := by
  rw [Machine.written, content_spill, List.append_assoc]
  exact congrArg _ (List.take_append_drop taken bytes)

include hTmp in
/-- The temporary file is opened empty. -/
theorem writing_fopen (h : m.Safe filename P) (hOpen : m.fopen tmpfile = (some fp, m')) :
    m'.Writing filename tmpfile P fp ∧ m'.written fp = [] := by
  rw [Machine.fopen] at hOpen
  split_ifs at hOpen
  · rcases hFile : m.disk.openForWriting tmpfile with ⟨i, disk⟩
    rw [hFile] at hOpen
    cases hOpen
    obtain ⟨hIntact, hDir, hContent⟩ := h.now.openForWriting hTmp hFile
    exact ⟨⟨h.after hIntact _, hDir⟩, (List.append_nil _).trans hContent⟩
  · cases hOpen

/-- A file that cannot be opened is no harm. -/
theorem safe_fopen_failed (h : m.Safe filename P) (hOpen : m.fopen tmpfile = (none, m')) :
    m'.Safe filename P := by
  rw [Machine.fopen] at hOpen
  split_ifs at hOpen
  · cases hOpen
  · cases hOpen
    exact h.after h.now []

include hTmp in
/-- A file that is closed may have lost its buffer, but it is not the target. -/
theorem writing_fclose (h : m.Writing filename tmpfile P fp) :
    (m.fclose fp).2.Writing filename tmpfile P fp := by
  obtain ⟨hSafe, hOpened⟩ := h.spill hTmp m.buffer
    (if m.answer.ok then m.buffer.length else m.answer.taken)
  exact ⟨⟨hSafe.now, hSafe.before⟩, hOpened⟩

include hTmp in
/-- The temporary file is removed, or it stays. -/
theorem safe_unlink (h : m.Safe filename P) : (m.unlink tmpfile).2.Safe filename P := by
  apply h.after
  split_ifs
  · exact h.now.unlink hTmp
  · exact h.now

include hTmp in
/-- After an error the temporary file is closed, if it is open, and removed. -/
theorem safe_werr (h : m.Writing filename tmpfile P fp) (file : Option Nat)
    (hFile : ∀ i ∈ file, i = fp) : (werr file tmpfile m).Safe filename P := by
  cases file with
  | none => exact safe_unlink hTmp h.safe
  | some i =>
      obtain rfl := hFile i rfl
      exact safe_unlink hTmp (writing_fclose hTmp h).safe

include hTmp in
/-- Where it succeeds the file is complete and synced. -/
theorem safe_finishFile (h : m.Writing filename tmpfile P fp) {ok : Bool}
    (hFinish : finishFile fp tmpfile m = (ok, m')) : m'.Safe filename P ∧
      (ok = true → m'.disk.dir tmpfile = some fp ∧
        m'.disk.inodes fp = ⟨m.written fp, true⟩) := by
  rw [finishFile] at hFinish
  have hFlushed : (m.fflush fp).2.Writing filename tmpfile P fp := h.spill hTmp _ _
  rcases hFlush : m.fflush fp with ⟨_ | _, m₁⟩
  · rw [hFlush] at hFinish hFlushed
    cases hFinish
    exact ⟨safe_werr hTmp hFlushed _ fun i hi => (Option.some.inj hi).symm,
      fun hOk => absurd hOk (by decide)⟩
  · rw [hFlush] at hFinish hFlushed
    have hSpill : m₁ = m.spill fp m.buffer m.buffer.length := by
      have hOk : m.answer.ok = true := congrArg Prod.fst hFlush
      have hState := congrArg Prod.snd hFlush
      rw [Machine.fflush, if_pos hOk] at hState
      exact hState.symm
    have hContent : (m₁.disk.inodes fp).content = m.written fp := by
      rw [hSpill, content_spill, List.take_length, Machine.written]
    have hEmpty : m₁.buffer = [] := by
      rw [hSpill]
      exact List.drop_length
    dsimp only at hFinish
    rcases hSync : m₁.fsync fp with ⟨_ | _, m₂⟩
    · have hSynced : (m₁.fsync fp).2.Writing filename tmpfile P fp := by
        have hFailed : m₁.answer.ok = false := congrArg Prod.fst hSync
        rw [Machine.fsync, hFailed]
        exact ⟨hFlushed.safe.after hFlushed.safe.now _, hFlushed.opened⟩
      rw [hSync] at hFinish hSynced
      cases hFinish
      exact ⟨safe_werr hTmp hSynced _ fun i hi => (Option.some.inj hi).symm,
        fun hOk => absurd hOk (by decide)⟩
    · have hState : m₂ = m₁.after (m₁.disk.sync fp) m₁.buffer := by
        have hOk : m₁.answer.ok = true := congrArg Prod.fst hSync
        have hPair := congrArg Prod.snd hSync
        rw [Machine.fsync, if_pos hOk] at hPair
        exact hPair.symm
      have hSynced : m₂.Writing filename tmpfile P fp := by
        rw [hState]
        exact ⟨hFlushed.safe.after (hFlushed.safe.now.sync hTmp hFlushed.opened) _,
          hFlushed.opened⟩
      have hInode : m₂.disk.inodes fp = ⟨m.written fp, true⟩ := by
        rw [hState, ← hContent]
        exact inode_sync fp
      have hBuffer : m₂.buffer = [] := by
        rw [hState]
        exact hEmpty
      rw [hSync] at hFinish
      dsimp only at hFinish
      have hClosed := writing_fclose hTmp hSynced
      rcases hClose : m₂.fclose fp with ⟨_ | _, m₃⟩
      · rw [hClose] at hFinish hClosed
        cases hFinish
        exact ⟨safe_werr hTmp hClosed none fun i hi => absurd hi (Option.not_mem_none i),
          fun hOk => absurd hOk (by decide)⟩
      · have hDisk : (m₂.fclose fp).2.disk = m₂.disk := by
          show m₂.disk.append fp (m₂.buffer.take _) = m₂.disk
          rw [hBuffer, List.take_nil]
          rfl
        rw [hClose] at hFinish hClosed hDisk
        cases hFinish
        refine ⟨hClosed.safe, fun _ => ⟨hClosed.opened, ?_⟩⟩
        rw [show m'.disk = m₂.disk from hDisk]
        exact hInode

include hTmp in
/-- A complete file takes the place of the old one. -/
theorem safe_replaceFile (h : m.Safe filename P) {dump : Bytes} {ok : Bool}
    (hOpened : m.disk.dir tmpfile = some fp) (hInode : m.disk.inodes fp = ⟨dump, true⟩)
    (hDump : P (some dump)) (hReplace : replaceFile tmpfile filename m = (ok, m')) :
    m'.Safe filename P ∧ (ok = true → Intact m'.disk filename (· = some dump)) := by
  rw [replaceFile] at hReplace
  have hRenamed : Intact (m.disk.rename tmpfile filename) filename P := by
    apply h.now.rename hTmp hOpened
    · rw [hInode]
    · rwa [hInode]
  rcases hRename : m.rename tmpfile filename with ⟨_ | _, m₁⟩
  · have hFailed : ¬ (m.answer.ok ∧ (m.disk.dir tmpfile).isSome) := fun hOk =>
      Bool.false_ne_true ((congrArg Prod.fst hRename).symm.trans (decide_eq_true hOk))
    have hState : m₁ = m.after m.disk m.buffer := by
      have hPair := congrArg Prod.snd hRename
      rw [Machine.rename, if_neg hFailed] at hPair
      exact hPair.symm
    rw [hRename] at hReplace
    cases hReplace
    refine ⟨safe_unlink hTmp ?_, fun hOk => absurd hOk (by decide)⟩
    rw [hState]
    exact h.after h.now _
  · have hOk : m.answer.ok ∧ (m.disk.dir tmpfile).isSome :=
      of_decide_eq_true (congrArg Prod.fst hRename)
    have hState : m₁ = m.after (m.disk.rename tmpfile filename) m.buffer := by
      have hPair := congrArg Prod.snd hRename
      rw [Machine.rename, if_pos hOk] at hPair
      exact hPair.symm
    have hSafe : m₁.Safe filename P := by
      rw [hState]
      exact h.after hRenamed _
    have hRead : m₁.disk.read filename = some dump := by
      have hContent : (m.disk.inodes fp).content = dump := congrArg Inode.content hInode
      rw [hState, ← hContent]
      exact read_rename hTmp hOpened
    rw [hRename] at hReplace
    dsimp only at hReplace
    rw [Machine.fsyncFileDir] at hReplace
    cases hReplace
    have hSynced : Intact m₁.disk.syncDir filename (· = some dump) := hSafe.now.syncDir hRead
    constructor
    · apply hSafe.after
      split_ifs
      · exact hSynced.mono fun c hc => hc ▸ hDump
      · exact hSafe.now
    · intro hDir
      show Intact (if m₁.answer.ok then m₁.disk.syncDir else m₁.disk) filename _
      rw [if_pos hDir]
      exact hSynced

end Calls

/-- A complete dump of these databases. -/
def IsDump (server : FileServer) (ctx : DumpContext) (req : DumpRequest) (dbs : List RedisDb)
    (dump : Bytes) : Prop :=
  ∃ fp, ∃ st st' : DumpState Machine, st.channel.writes = [] ∧
    rdbSaveFile server (fileRio fp) ctx req dbs st = (true, st') ∧ st'.file = dump

section Save

variable {server : FileServer} {ctx : DumpContext} {req : DumpRequest} {dbs : List RedisDb}
  {infoUpdatedTime pid : Int} {ok : Bool}

/-- A write of the stream goes to the buffer, and from there to the file in
part. -/
theorem write_fileRio (fp : Nat) (m : Machine) (p : Bytes) :
    ∃ processed, ((fileRio fp).write p m).2 =
      { m.spill fp (m.buffer ++ p) m.answer.taken with processed := processed } :=
  ⟨_, rfl⟩

/-- Every write keeps the file open, and one that succeeds leaves in it what was
written so far. -/
theorem keeps_fileRio (hTmp : tmpfile ≠ filename) (p : Bytes) :
    Keeps (fun channel => channel.rio.written fp = channel.writes.flatten)
      (fun channel => channel.rio.Writing filename tmpfile P fp)
      (rdbWriteRaw (fileRio fp) p) where
  clean channel n channel' h hRun := by
    have hState : channel'.rio = ((fileRio fp).write p channel.rio).2 :=
      (congrArg (fun result => result.2.rio) hRun).symm
    obtain ⟨processed, hWrite⟩ := write_fileRio fp channel.rio p
    rw [flatten_writes hRun, ← h, hState, hWrite]
    show (channel.rio.spill fp _ _).written fp = channel.rio.written fp ++ p
    rw [written_spill, Machine.written, List.append_assoc]
  weak channel h := by
    have hSpill := h.spill hTmp (channel.rio.buffer ++ p) channel.rio.answer.taken
    obtain ⟨processed, hWrite⟩ := write_fileRio fp channel.rio p
    show ((fileRio fp).write p channel.rio).2.Writing filename tmpfile P fp
    rw [hWrite]
    exact ⟨⟨hSpill.safe.now, hSpill.safe.before⟩, hSpill.opened⟩

/-- The temporary file: if the save succeeds it is a synced file of the directory
that holds a complete dump. -/
theorem rdbSaveInternal_spec (hTmp : tmpfile ≠ filename) (hSafe : m.Safe filename P)
    (h : rdbSaveInternal server ctx req dbs tmpfile infoUpdatedTime m = (ok, m')) :
    m'.Safe filename P ∧ (ok = true → ∃ fp dump, IsDump server ctx req dbs dump ∧
      m'.disk.dir tmpfile = some fp ∧ m'.disk.inodes fp = ⟨dump, true⟩) := by
  rw [rdbSaveInternal] at h
  rcases hOpen : m.fopen tmpfile with ⟨_ | fp, m₁⟩
  · rw [hOpen] at h
    cases h
    exact ⟨safe_fopen_failed hSafe hOpen, fun hOk => absurd hOk (by decide)⟩
  · obtain ⟨hWriting, hWritten⟩ := writing_fopen hTmp hSafe hOpen
    rw [hOpen] at h
    dsimp only at h
    rcases hDump : rdbSaveFile server (fileRio fp) ctx req dbs (.start infoUpdatedTime m₁) with
      ⟨saved, st⟩
    obtain ⟨hClean, hWeak⟩ := kept_rdbSaveFile (fun p => keeps_fileRio (P := P) hTmp p) hDump
    have hOpened : st.machine.Writing filename tmpfile P fp :=
      hWeak ⟨⟨hWriting.safe.now, hWriting.safe.before⟩, hWriting.opened⟩
    rw [hDump] at h
    cases saved with
    | false =>
        cases h
        exact ⟨safe_werr hTmp hOpened _ fun i hi => (Option.some.inj hi).symm,
          fun hOk => absurd hOk (by decide)⟩
    | true =>
        have hFile : st.machine.written fp = st.file := hClean hWritten rfl
        obtain ⟨hSafe₂, hComplete⟩ := safe_finishFile hTmp hOpened h
        refine ⟨hSafe₂, fun hOk => ⟨fp, st.file, ⟨fp, _, st, rfl, hDump, rfl⟩, ?_⟩⟩
        rw [← hFile]
        exact hComplete hOk

/-- A save in which any call may fail: after each the file is the old one or a
complete new one, and it is the new one once the save has succeeded. -/
theorem rdbSave_spec (hTmp : tempFile server pid ≠ filename) (hSafe : m.Safe filename P)
    (h : rdbSave server ctx req dbs pid filename infoUpdatedTime m = (ok, m')) :
    ∃ dump : Option Bytes, (∀ d ∈ dump, IsDump server ctx req dbs d) ∧
      m'.Safe filename (fun c => P c ∨ ∃ d ∈ dump, c = some d) ∧
      (ok = true → ∃ d ∈ dump, Intact m'.disk filename (· = some d)) := by
  rw [rdbSave] at h
  rcases hFile : rdbSaveInternal server ctx req dbs (tempFile server pid) infoUpdatedTime m with
    ⟨_ | _, m₁⟩
  · obtain ⟨hSafe₁, _⟩ := rdbSaveInternal_spec hTmp hSafe hFile
    rw [hFile] at h
    cases h
    exact ⟨none, fun d hd => absurd hd (Option.not_mem_none d), hSafe₁.mono fun c hc => Or.inl hc,
      fun hOk => absurd hOk (by decide)⟩
  · obtain ⟨hSafe₁, hComplete⟩ := rdbSaveInternal_spec hTmp hSafe hFile
    obtain ⟨fp, dump, hDump, hDir, hInode⟩ := hComplete rfl
    rw [hFile] at h
    have hEither : m₁.Safe filename (fun c => P c ∨ ∃ d ∈ some dump, c = some d) :=
      hSafe₁.mono fun c hc => Or.inl hc
    obtain ⟨hSafe₂, hReplaced⟩ := safe_replaceFile hTmp hEither hDir hInode
      (Or.inr ⟨dump, rfl, rfl⟩) h
    exact ⟨some dump, fun d hd => Option.mem_some_iff.mp hd ▸ hDump, hSafe₂,
      fun hOk => ⟨dump, rfl, hReplaced hOk⟩⟩

end Save

end Redis
