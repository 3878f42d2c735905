import DoubleSwap.Redis.Objects

/-! `rdbSaveDb`, once as it stands and once with the tracing and the progress
records taken out. The traced one is a partial function: it reads the length of
every value, which only SDS strings have, and it counts in `int` variables. -/
namespace Redis

/-- A key with its value. The last two fields are what the server estimates
when the key is saved. -/
structure DictEntry where
  /-- The index of its dictionary in the store. -/
  slot : Nat
  key : Sds
  value : Robj
  /-- The entry of the key in `db->expires`. -/
  expire : Option Int
  idleTime : Nat
  lfuCounter : UInt8
  deriving DecidableEq, Repr

/-- A database, with its keys in the order of the iterator. -/
structure RedisDb where
  dbid : Nat
  entries : List DictEntry
  deriving DecidableEq, Repr

namespace RedisDb

/-- `kvstoreSize(db->keys)`. -/
def size (db : RedisDb) : Nat := db.entries.length

/-- `kvstoreSize(db->expires)`. -/
def expiresSize (db : RedisDb) : Nat := db.entries.countP fun de => de.expire.isSome

/-- `kvstoreDictSize(db->keys, slot)`. -/
def dictSize (db : RedisDb) (slot : Nat) : Nat := db.entries.countP fun de => de.slot = slot

/-- `kvstoreDictSize(db->expires, slot)`. -/
def expiresDictSize (db : RedisDb) (slot : Nat) : Nat :=
  db.entries.countP fun de => de.slot = slot ∧ de.expire.isSome

end RedisDb

/-- What a dump has written and returned so far, and what it has told the
parent process and given back to the kernel. -/
structure DumpState (σ : Type) where
  channel : Channel σ
  written : Nat
  lastSlot : Option Nat
  keyCounter : Nat
  infoUpdatedTime : Int
  childInfo : List Nat
  dismissed : List (Nat × UInt64)
  deriving DecidableEq, Repr

/-- A line of `guest_data.txt`, without its time stamp. -/
structure GuestRecord where
  address : Nat
  tag : Text
  deriving DecidableEq, Repr

/-- The progress variables. -/
structure Progress where
  keyNumber : Nat
  keysProcessed : Nat
  keysToProcess : Nat
  currentPercentage : Nat
  deriving DecidableEq, Repr

/-- A dump with the lines that it adds to the two log files. -/
structure Traced (σ : Type) where
  dump : DumpState σ
  guestLog : List GuestRecord
  percentages : List (Int × Nat)
  progress : Progress
  deriving DecidableEq, Repr

variable {σ : Type} (server : Server) (rio : Rio σ)

def getExpire (de : DictEntry) : Int := de.expire.getD (-1)

def rdbSaveKeyValuePair (de : DictEntry) (expiretime : Int) : Save σ Nat := do
  let _ ← if expiretime ≠ -1 then do
      let _ ← rdbSaveType rio (server.format.opcode .expireTimeMs)
      rdbSaveMillisecondTime rio expiretime
    else pure 0
  let _ ← if server.lruPolicy then do
      let _ ← rdbSaveType rio (server.format.opcode .idle)
      rdbSaveLen server rio (de.idleTime / 1000)
    else pure 0
  let _ ← if server.lfuPolicy then do
      let _ ← rdbSaveType rio (server.format.opcode .freq)
      rdbWriteRaw rio [de.lfuCounter]
    else pure 0
  let _ ← rdbSaveObjectType server rio de.value
  let _ ← rdbSaveStringObject server rio (.sds de.key)
  let _ ← rdbSaveObject server rio de.value
  return 1

/-- The opcodes before the keys. -/
def saveHeader (db : RedisDb) : Save σ Nat := do
  let selectDb ← rdbSaveType rio (server.format.opcode .selectDb)
  let dbid ← rdbSaveLen server rio db.dbid
  let resizeDb ← rdbSaveType rio (server.format.opcode .resizeDb)
  let dbSize ← rdbSaveLen server rio db.size
  let expiresSize ← rdbSaveLen server rio db.expiresSize
  return selectDb + dbid + resizeDb + dbSize + expiresSize

def saveSlotInfo (db : RedisDb) (slot : Nat) : Save σ Nat := do
  let slotInfo ← rdbSaveType rio (server.format.opcode .slotInfo)
  let index ← rdbSaveLen server rio slot
  let dictSize ← rdbSaveLen server rio (db.dictSize slot)
  let expiresSize ← rdbSaveLen server rio (db.expiresDictSize slot)
  return slotInfo + index + dictSize + expiresSize

/-- The slot opcode, where the iterator comes to a new slot. An error stands
for `goto werr`. -/
def saveSlot (db : RedisDb) (de : DictEntry) (st : DumpState σ) :
    Except (DumpState σ) (DumpState σ) :=
  if server.clusterEnabled ∧ some de.slot ≠ st.lastSlot then
    match saveSlotInfo server rio db de.slot st.channel with
    | (none, channel) => .error { st with channel := channel }
    | (some res, channel) =>
        .ok { st with channel := channel, written := st.written + res, lastSlot := some de.slot }
  else .ok st

/-- `dismissObject`, in the child process. -/
def dismiss (de : DictEntry) (dumpSize : UInt64) (st : DumpState σ) : DumpState σ :=
  if server.inForkChild then
    { st with dismissed := st.dismissed ++ [(de.value.ptr, dumpSize)] }
  else st

/-- The report to the parent process, at most once in a second. -/
def updateChildInfo (st : DumpState σ) : DumpState σ :=
  let now := server.mstime st.keyCounter
  if st.keyCounter &&& 1023 = 0 ∧ now - st.infoUpdatedTime ≥ 1000 then
    { st with
      keyCounter := st.keyCounter + 1
      infoUpdatedTime := now
      childInfo := st.childInfo ++ [st.keyCounter + 1] }
  else { st with keyCounter := st.keyCounter + 1 }

/-- A key and its value, and what follows when they are written. -/
def saveKey (de : DictEntry) (st : DumpState σ) : Except (DumpState σ) (DumpState σ) :=
  match rdbSaveKeyValuePair server rio de (getExpire de) st.channel with
  | (none, channel) => .error { st with channel := channel }
  | (some res, channel) =>
      let dumpSize := rio.processedBytes channel.rio - rio.processedBytes st.channel.rio
      .ok (updateChildInfo server
        (dismiss server de dumpSize { st with channel := channel, written := st.written + res }))

/-- The loop over the keys without the additions. -/
def saveEntries (db : RedisDb) : List DictEntry → DumpState σ → Except (DumpState σ) (DumpState σ)
  | [], st => .ok st
  | de :: entries, st =>
      match saveSlot server rio db de st with
      | .error st' => .error st'
      | .ok st' =>
          match saveKey server rio de st' with
          | .error st'' => .error st''
          | .ok st'' => saveEntries db entries st''

/-- The state in which the loop starts. -/
def DumpState.afterHeader (st : DumpState σ) (res : Nat) (channel : Channel σ) : DumpState σ :=
  { st with channel := channel, written := res, lastSlot := none }

/-- What the function returns, with `none` for -1. -/
def ret : Except (DumpState σ) (DumpState σ) → Option Nat × DumpState σ
  | .error st => (none, st)
  | .ok st => (some st.written, st)

/-- `rdbSaveDb` with the additions taken out. -/
def rdbSaveDbUntraced (db : RedisDb) (st : DumpState σ) : Option Nat × DumpState σ :=
  if db.size = 0 then (some 0, st)
  else
    match saveHeader server rio db st.channel with
    | (none, channel) => (none, { st with channel := channel })
    | (some res, channel) => ret (saveEntries server rio db db.entries (st.afterHeader res channel))

def alignToPageStart (address : Nat) : Nat := address / 4096 * 4096

def Server.pageSize : Nat := 2 ^ server.pageBits

/-- `keystr_end_page` and `value_end_page`. -/
def endPage (address len : Nat) : Nat :=
  (alignToPageStart address + len) / server.pageSize * server.pageSize

/-- The addresses that a loop of the traces runs over. -/
def pages (startPage endPage pageSize : Nat) : List Nat :=
  (List.range ((endPage + pageSize - startPage) / pageSize)).map (startPage + pageSize * ·)

/-- One round of the loop. -/
theorem pages_eq (startPage endPage : Nat) {pageSize : Nat} (h : 0 < pageSize) :
    pages startPage endPage pageSize =
      if startPage ≤ endPage then startPage :: pages (startPage + pageSize) endPage pageSize
      else [] := by
  simp only [pages]
  split_ifs with hLe
  · have hCount : (endPage + pageSize - startPage) / pageSize =
        (endPage + pageSize - (startPage + pageSize)) / pageSize + 1 := by
      rw [← Nat.add_div_right _ h]
      congr 1
      omega
    rw [hCount, List.range_succ_eq_map, List.map_cons, List.map_map, Nat.mul_zero, Nat.add_zero]
    congr 1
    apply List.map_congr_left
    intro i _
    rw [Function.comp_apply, Nat.mul_succ]
    omega
  · rw [Nat.div_eq_of_lt (by omega)]
    rfl

/-- The loops do not run past the end of the address space. -/
theorem endPage_add_pageSize_lt {address len : Nat} (h : address + len < 2 ^ 47) :
    endPage server address len + server.pageSize < 2 ^ 64 := by
  have hEnd : endPage server address len ≤ alignToPageStart address + len :=
    Nat.div_mul_le_self _ _
  have hStart : alignToPageStart address ≤ address := Nat.div_mul_le_self _ _
  have hSize : server.pageSize ≤ 2 ^ 62 :=
    Nat.pow_le_pow_right (by omega) (Nat.le_of_lt_succ server.pageBits_lt)
  omega

def tracedPages (address len : Nat) : List Nat :=
  pages (alignToPageStart address) (endPage server address len) server.pageSize

def Traced.setDump (t : Traced σ) (st : DumpState σ) : Traced σ := { t with dump := st }

def logVirtualAddress (tag : Text) (address : Nat) : GuestRecord := ⟨address, tag⟩

/-- The two loops before, and the two after a key is written. -/
def Traced.log (de : DictEntry) (valueLen : Nat) (tag : Text) (t : Traced σ) : Traced σ :=
  { t with
    guestLog := t.guestLog ++
      (tracedPages server de.key.address de.key.bytes.length ++
        tracedPages server de.value.ptr valueLen).map (logVirtualAddress tag) }

/-- Addition to an `int`, undefined where it overflows. -/
def addInt (n k : Nat) : Option Nat := if n + k < 2 ^ 31 then some (n + k) else none

namespace Progress

def start (dbSize : Nat) : Progress := ⟨0, 0, dbSize / 10, 10⟩

/-- The counters after a key. -/
def count (p : Progress) : Option Progress :=
  (addInt p.keyNumber 1).map fun keyNumber =>
    { p with keyNumber := keyNumber, keysProcessed := (p.keysProcessed + 1) % 2 ^ 64 }

/-- The next percentage. -/
def raise (dbSize : Nat) (p : Progress) : Option Progress :=
  (addInt p.currentPercentage 10).map fun percentage =>
    { p with
      currentPercentage := percentage
      keysToProcess := dbSize * percentage % 2 ^ 64 / 100 }

end Progress

/-- The progress record after a key. -/
def Traced.report (dbSize : Nat) (t : Traced σ) : Option (Traced σ) :=
  match t.progress.count with
  | none => none
  | some p =>
      if p.keysToProcess ≤ p.keysProcessed then
        (p.raise dbSize).map fun next =>
          { t with
            progress := next
            percentages := t.percentages ++
              [(server.timeOfDay p.keysProcessed - server.timeOfDay 0, p.currentPercentage)] }
      else some { t with progress := p }

/-- The loop over the keys. `none` is a run whose behaviour is undefined. -/
def traceEntries (db : RedisDb) :
    List DictEntry → Traced σ → Option (Except (Traced σ) (Traced σ))
  | [], t => some (.ok t)
  | de :: entries, t =>
      match saveSlot server rio db de t.dump with
      | .error st => some (.error (t.setDump st))
      | .ok st =>
          match de.value.sdslen with
          | none => none
          | some len =>
              let started := (t.setDump st).log server de len "OUT G* NONE".toList
              match saveKey server rio de st with
              | .error st' => some (.error (started.setDump st'))
              | .ok st' =>
                  let finished := (started.setDump st').log server de len "OUT G NONE".toList
                  match finished.report server db.size with
                  | none => none
                  | some next => traceEntries db entries next

/-- The result of a traced loop, without the lines of the log files. -/
def erase : Except (Traced σ) (Traced σ) → Except (DumpState σ) (DumpState σ)
  | .error t => .error t.dump
  | .ok t => .ok t.dump

def Traced.afterHeader (db : RedisDb) (t : Traced σ) (res : Nat) (channel : Channel σ) :
    Traced σ :=
  { t with dump := t.dump.afterHeader res channel, progress := .start db.size }

def retTraced : Except (Traced σ) (Traced σ) → Option Nat × Traced σ
  | .error t => (none, t)
  | .ok t => (some t.dump.written, t)

/-- `rdbSaveDb`: what it returns, and the state that it leaves. -/
def rdbSaveDb (db : RedisDb) (t : Traced σ) : Option (Option Nat × Traced σ) :=
  if db.size = 0 then some (some 0, t)
  else
    match saveHeader server rio db t.dump.channel with
    | (none, channel) => some (none, t.setDump { t.dump with channel := channel })
    | (some res, channel) =>
        (traceEntries server rio db db.entries (t.afterHeader db res channel)).map retTraced

end Redis
