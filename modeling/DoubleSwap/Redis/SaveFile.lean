import DoubleSwap.Redis.LoadRio
import DoubleSwap.Redis.SaveRio

/-! A whole dump: what `rdbSaveRio` writes before and after the databases. -/
namespace Redis

/-- `REDISMODULE_AUX_BEFORE_RDB` and `REDISMODULE_AUX_AFTER_RDB`. -/
inductive AuxWhen where
  | before | after
  deriving DecidableEq, Repr

/-- What a dump says of the server that makes it. -/
structure DumpContext where
  redisVersion : Bytes
  redisBits : Int
  time : Int
  usedMemory : Int
  replid : Bytes
  masterReplOffset : Int
  /-- The code of the libraries. -/
  functions : List Bytes
  whence : AuxWhen → Nat
  /-- The module types with auxiliary data for this time. -/
  modulesAux : AuxWhen → List ModuleAux

/-- What is asked for: the parts `SLAVE_REQ_RDB_EXCLUDE_*`, the flag
`RDBFLAGS_AOF_PREAMBLE`, and the `repl_stream_db` of the save information. -/
structure DumpRequest where
  excludeData : Bool
  excludeFunctions : Bool
  aofPreamble : Bool
  replStreamDb : Option Int
  deriving DecidableEq, Repr

/-- A buffer in memory. -/
def bufferRio : Rio Unit := ⟨fun _ state => (true, state), fun _ => 0⟩

section Model

variable {σ : Type} (server : FileServer) (rio : Rio σ) (ctx : DumpContext) (req : DumpRequest)

/-- `%04d`. -/
def fourDigits (n : Nat) : Bytes :=
  [n / 1000, n / 100 % 10, n / 10 % 10, n % 10].map fun digit => UInt8.ofNat (48 + digit)

def magic : Bytes := ascii "REDIS" ++ fourDigits server.rdbVersion

def rdbSaveAuxField (field : Bytes × Bytes) : Save σ Nat := do
  let aux ← rdbSaveType rio (server.fileOpcode .aux)
  let key ← rdbSaveRawString server.toServer rio field.1
  let val ← rdbSaveRawString server.toServer rio field.2
  return aux + key + val

/-- The fields of the save information. -/
def replAuxFields (replStreamDb : Int) : List (Bytes × Bytes) :=
  [(ascii "repl-stream-db", server.ll2string replStreamDb), (ascii "repl-id", ctx.replid),
    (ascii "repl-offset", server.ll2string ctx.masterReplOffset)]

/-- The fields about the server. -/
def serverAuxFields : List (Bytes × Bytes) :=
  [(ascii "redis-ver", ctx.redisVersion), (ascii "redis-bits", server.ll2string ctx.redisBits),
    (ascii "ctime", server.ll2string ctx.time), (ascii "used-mem", server.ll2string ctx.usedMemory)]

def infoAuxFields : List (Bytes × Bytes) :=
  serverAuxFields server ctx ++ req.replStreamDb.elim [] (replAuxFields server ctx) ++
    [(ascii "aof-base", server.ll2string (if req.aofPreamble then 1 else 0))]

def rdbSaveInfoAuxFields : Save σ Nat :=
  Save.each (rdbSaveAuxField server rio) (infoAuxFields server ctx req)

/-- The header of auxiliary data, written to a buffer. -/
def saveAuxHeader (whence : Nat) (mt : ModuleAux) : Save Unit Nat := do
  let aux ← rdbSaveType bufferRio (server.fileOpcode .moduleAux)
  let id ← rdbSaveLen server.toServer bufferRio mt.id
  let opcode ← rdbSaveLen server.toServer bufferRio server.moduleOpcodeUint
  let when ← rdbSaveLen server.toServer bufferRio whence
  return aux + id + opcode + when

def auxHeader (whence : Nat) (mt : ModuleAux) : Bytes :=
  (saveAuxHeader server whence mt ⟨(), []⟩).2.writes.flatten

/-- The mark at the end of a module's data is written even if the callback
could not write. -/
def withEndMark (callback : Save σ Nat) : Save σ Nat := fun channel =>
  match callback channel with
  | (none, channel') =>
      (none, (rdbSaveLen server.toServer rio server.format.moduleOpcodeEof channel').2)
  | (some written, channel') =>
      (do
        let eof ← rdbSaveLen server.toServer rio server.format.moduleOpcodeEof
        return written + eof : Save σ Nat) channel'

/-- `aux_save2` writes the header with the first of its own writes, if there is
one. -/
def rdbSaveSingleModuleAux (whence : Nat) (mt : ModuleAux) : Save σ Nat :=
  if mt.lazy then
    if mt.saves = [] then pure 0
    else
      withEndMark server rio
        (Save.each (rdbWriteRaw rio) (auxHeader server whence mt :: mt.saves))
  else do
    let header ← rdbWriteRaw rio (auxHeader server whence mt)
    let rest ← withEndMark server rio (Save.each (rdbWriteRaw rio) mt.saves)
    return header + rest

def rdbSaveModulesAux (whence : AuxWhen) : Save σ Nat :=
  Save.each (rdbSaveSingleModuleAux server rio (ctx.whence whence)) (ctx.modulesAux whence)

def rdbSaveFunctions : Save σ Nat :=
  Save.each (fun code => do
    let type ← rdbSaveType rio (server.fileOpcode .function2)
    let n ← rdbSaveRawString server.toServer rio code
    return type + n) ctx.functions

/-- What comes before the databases. -/
def saveBefore : Save σ Nat := do
  let n ← rdbWriteRaw rio (magic server)
  let aux ← rdbSaveInfoAuxFields server rio ctx req
  let modules ← if req.excludeData then pure 0 else rdbSaveModulesAux server rio ctx .before
  let functions ← if req.excludeFunctions then pure 0 else rdbSaveFunctions server rio ctx
  return n + aux + modules + functions

/-- The checksum of all writes but the first `skipped`. -/
def saveChecksum (skipped : Nat) : Save σ Nat := fun channel =>
  rdbWriteRaw rio
    (littleEndian 8 (cksum server (channel.writes.drop skipped).flatten).toNat) channel

/-- What comes after the databases. -/
def saveAfter (skipped : Nat) : Save σ Nat := do
  let modules ← if req.excludeData then pure 0 else rdbSaveModulesAux server rio ctx .after
  let eof ← rdbSaveType rio (server.fileOpcode .eof)
  let n ← saveChecksum server rio skipped
  return modules + eof + n

/-- The loop over the databases. -/
def saveDbsUntraced (server : Server) : List RedisDb → DumpState σ → Bool × DumpState σ
  | [], st => (true, st)
  | db :: dbs, st =>
      match rdbSaveDbUntraced server rio db st with
      | (none, st') => (false, st')
      | (some _, st') => saveDbsUntraced server dbs st'

/-- `rdbSaveRio` with all that it writes, and with the additions taken out. -/
def rdbSaveFile (dbs : List RedisDb) (st : DumpState σ) : Bool × DumpState σ :=
  let skipped := st.channel.writes.length
  let st := { st with keyCounter := 0 }
  match saveBefore server rio ctx req st.channel with
  | (none, channel) => (false, { st with channel := channel })
  | (some _, channel) =>
      match if req.excludeData then (true, { st with channel := channel })
          else saveDbsUntraced rio server.toServer dbs { st with channel := channel } with
      | (false, st') => (false, st')
      | (true, st') =>
          match saveAfter server rio ctx req skipped st'.channel with
          | (none, channel) => (false, { st' with channel := channel })
          | (some _, channel) => (true, { st' with channel := channel })

/-- `rdbSaveRio` as it stands, with all that it writes. -/
def rdbSaveFileTraced (dbs : List (RedisDb × (Nat → Int))) (t : Traced σ) :
    Option (Bool × Traced σ) :=
  rdbSaveRio server.toServer rio req.excludeData (saveBefore server rio ctx req)
    (saveAfter server rio ctx req t.dump.channel.writes.length) dbs t

end Model

/-- The file that a save has written. -/
def DumpState.file {σ : Type} (st : DumpState σ) : Bytes := st.channel.writes.flatten

variable {σ : Type} {server : FileServer} {rio : Rio σ} {ctx : DumpContext} {req : DumpRequest}

/-- The parts before the databases, one after the other. -/
theorem saveBefore_eq : saveBefore server rio ctx req =
    rdbWriteRaw rio (magic server) >>= fun n =>
      rdbSaveInfoAuxFields server rio ctx req >>= fun aux =>
        (if req.excludeData then pure 0 else rdbSaveModulesAux server rio ctx .before) >>=
          fun modules =>
            (if req.excludeFunctions then pure 0 else rdbSaveFunctions server rio ctx) >>=
              fun functions => pure (n + aux + modules + functions) := by
  rw [saveBefore]
  split_ifs <;> rfl

/-- The parts after them. -/
theorem saveAfter_eq (skipped : Nat) : saveAfter server rio ctx req skipped =
    (if req.excludeData then pure 0 else rdbSaveModulesAux server rio ctx .after) >>=
      fun modules => rdbSaveType rio (server.fileOpcode .eof) >>= fun eof =>
        saveChecksum server rio skipped >>= fun n => pure (modules + eof + n) := by
  rw [saveAfter]
  split_ifs <;> rfl

/-- A write adds its bytes at the end. -/
theorem flatten_writes {p : Bytes} {channel channel' : Channel σ} {n : Nat}
    (h : rdbWriteRaw rio p channel = (some n, channel')) :
    channel'.writes.flatten = channel.writes.flatten ++ p := by
  have hWrites : (rdbWriteRaw rio p channel).2.writes = channel.writes ++ [p] := rfl
  rw [h] at hWrites
  rw [hWrites, List.flatten_append, List.flatten_singleton]

section Traces

variable {server : Server}

/-- What the traced function returns, when it is defined, is what it would
return without the additions. -/
theorem rdbSaveDbUntraced_of_some {db : RedisDb} {t t' : Traced σ} {res : Option Nat}
    (h : rdbSaveDb server rio db t = some (res, t')) :
    rdbSaveDbUntraced server rio db t.dump = (res, t'.dump) := by
  rw [rdbSaveDb] at h
  rw [rdbSaveDbUntraced]
  split_ifs at h ⊢ with hEmpty
  · cases h
    rfl
  · rcases hHeader : saveHeader server rio db t.dump.channel with ⟨_ | headerRes, channel⟩
    · rw [hHeader] at h
      cases h
      rfl
    · rw [hHeader] at h
      obtain ⟨result, hRun, hRet⟩ := Option.map_eq_some_iff.mp h
      have hStart : (t.afterHeader db headerRes channel).progress.Sound db.size 0 :=
        Progress.sound_start db.size
      have hSize : 0 + db.entries.length ≤ db.size := (Nat.zero_add _).le
      have hTraceable : Traceable server rio db 0 db.entries
          (t.afterHeader db headerRes channel).dump := by
        by_contra hNot
        have hNone := traceEntries_of_not_traceable db.entries _ hStart hSize (Nat.two_pow_pos 31)
          hNot
        rw [hNone] at hRun
        cases hRun
      have hErased := traceEntries_of_traceable db.entries _ hStart hSize hTraceable
      rw [hRun] at hErased
      have hUntraced : saveEntries server rio db db.entries (t.dump.afterHeader headerRes channel) =
          erase result := (Option.some.inj hErased).symm
      simp only [hUntraced]
      cases result with
      | error failed =>
          cases hRet
          rfl
      | ok finished =>
          cases hRet
          rfl

/-- The clock of the records does not matter for the dump. -/
theorem saveEntries_clock (timeOfDay : Nat → Int) (db : RedisDb) (entries : List DictEntry)
    (st : DumpState σ) :
    saveEntries { server with timeOfDay := timeOfDay } rio db entries st =
      saveEntries server rio db entries st := by
  induction entries generalizing st with
  | nil => rfl
  | cons de entries ih =>
      have hSlot : saveSlot { server with timeOfDay := timeOfDay } rio db de st =
          saveSlot server rio db de st := rfl
      have hKey : ∀ st, saveKey { server with timeOfDay := timeOfDay } rio de st =
          saveKey server rio de st := fun _ => rfl
      simp only [saveEntries, hSlot, hKey, ih]

theorem rdbSaveDbUntraced_clock (timeOfDay : Nat → Int) (db : RedisDb) (st : DumpState σ) :
    rdbSaveDbUntraced { server with timeOfDay := timeOfDay } rio db st =
      rdbSaveDbUntraced server rio db st := by
  have hHeader : saveHeader { server with timeOfDay := timeOfDay } rio db st.channel =
      saveHeader server rio db st.channel := rfl
  simp only [rdbSaveDbUntraced, hHeader, saveEntries_clock]

/-- The same of all databases, by induction on them. -/
theorem saveDbsUntraced_of_some {dbs : List (RedisDb × (Nat → Int))} {t t' : Traced σ} {ok : Bool}
    (h : saveDbs server rio dbs t = some (ok, t')) :
    saveDbsUntraced rio server (dbs.map Prod.fst) t.dump = (ok, t'.dump) := by
  induction dbs generalizing t with
  | nil =>
      cases h
      rfl
  | cons first dbs ih =>
      obtain ⟨db, timeOfDay⟩ := first
      rw [saveDbs] at h
      cases hDb : rdbSaveDb { server with timeOfDay := timeOfDay } rio db t with
      | none =>
          rw [hDb] at h
          cases h
      | some result =>
          obtain ⟨res, between⟩ := result
          have hUntraced := rdbSaveDbUntraced_of_some hDb
          rw [rdbSaveDbUntraced_clock] at hUntraced
          rw [hDb] at h
          rw [List.map_cons, saveDbsUntraced, hUntraced]
          cases res with
          | none =>
              cases h
              rfl
          | some written => exact ih h

end Traces

end Redis
