import DoubleSwap.Redis.Rio

/-! The values of a database, one constructor for each type and encoding, and
how they are written. -/
namespace Redis

/-- A dynamic string. It lies in user space. -/
structure Sds where
  address : Nat
  bytes : Bytes
  inUserSpace : address + bytes.length < 2 ^ 47
  deriving DecidableEq, Repr

/-- A string object: an SDS string, or a number in place of the pointer. -/
inductive StringObject where
  | sds (s : Sds)
  | int (value : Int)
  deriving DecidableEq, Repr

inductive QuicklistNode where
  | raw (container : Nat) (entry : Bytes)
  | lzf (container : Nat) (data : Bytes) (size : Nat)
  deriving DecidableEq, Repr

structure HashField where
  field : Bytes
  /-- `none` for `EB_EXPIRE_TIME_INVALID`. -/
  expireTime : Option UInt64
  value : Bytes
  deriving DecidableEq, Repr

structure StreamID where
  ms : Nat
  seq : Nat
  deriving DecidableEq, Repr

/-- An entry of the pending list of a consumer group, under its raw ID. -/
structure StreamNack where
  id : Bytes
  deliveryTime : Int
  deliveryCount : Nat
  deriving DecidableEq, Repr

structure StreamConsumer where
  name : Bytes
  seenTime : Int
  activeTime : Int
  pel : List StreamNack
  deriving DecidableEq, Repr

structure StreamCG where
  name : Bytes
  lastId : StreamID
  /-- -1 when it is not known. -/
  entriesRead : Int
  pel : List StreamNack
  consumers : List StreamConsumer
  deriving DecidableEq, Repr

structure StreamObject where
  listpacks : List (Bytes × Bytes)
  length : Nat
  lastId : StreamID
  firstId : StreamID
  maxDeletedEntryId : StreamID
  entriesAdded : Nat
  cgroups : List StreamCG
  deriving DecidableEq, Repr

/-- A module's value, with the writes of its `rdb_save` callback, which end
with the first one that fails. -/
structure ModuleValue where
  id : Nat
  saves : List Bytes
  deriving DecidableEq, Repr

/-- The contents of an object other than a string. Sorted sets stand from the
greatest element to the smallest. -/
inductive Contents where
  | quicklist (nodes : List QuicklistNode)
  | listListpack (lp : Bytes)
  | set (elements : List Bytes)
  | setIntset (blob : Bytes)
  | setListpack (lp : Bytes)
  | zsetListpack (lp : Bytes)
  | zsetSkiplist (elements : List (Bytes × UInt64))
  | hashListpack (lp : Bytes)
  | hashListpackEx (minExpire : Option UInt64) (lp : Bytes)
  | hash (minExpire : Option UInt64) (fields : List HashField)
  | stream (s : StreamObject)
  | module (mv : ModuleValue)
  deriving DecidableEq, Repr

/-- A value; anything but a string is a structure that `ptr` points to. -/
inductive Robj where
  | string (s : StringObject)
  | other (ptr : Nat) (contents : Contents)
  deriving DecidableEq, Repr

namespace Robj

/-- `o->ptr` as a `uintptr_t`. -/
def ptr : Robj → Nat
  | .string (.sds s) => s.address
  | .string (.int value) => (value % 2 ^ 64).toNat
  | .other ptr _ => ptr

/-- `sdslen(o->ptr)`, which reads the header of an SDS string. -/
def sdslen : Robj → Option Nat
  | .string (.sds s) => some s.bytes.length
  | .string (.int _) => none
  | .other _ _ => none

/-- The value is a string that is stored as such. -/
def IsSds (o : Robj) : Prop := ∃ s, o = .string (.sds s)

theorem sdslen_eq_none_iff (o : Robj) : o.sdslen = none ↔ ¬ o.IsSds := by
  cases o with
  | string s => cases s <;> simp [sdslen, IsSds]
  | other ptr contents => simp [sdslen, IsSds]

def rdbType : Robj → RdbType
  | .string _ => .string
  | .other _ contents =>
      match contents with
      | .quicklist _ | .listListpack _ => .listQuicklist2
      | .setIntset _ => .setIntset
      | .set _ => .set
      | .setListpack _ => .setListpack
      | .zsetListpack _ => .zsetListpack
      | .zsetSkiplist _ => .zset2
      | .hashListpack _ => .hashListpack
      | .hashListpackEx _ _ => .hashListpackEx
      | .hash none _ => .hash
      | .hash (some _) _ => .hashMetadata
      | .stream _ => .streamListpacks3
      | .module _ => .module2

end Robj

variable {σ : Type} (server : Server) (rio : Rio σ)

def rdbSaveObjectType (o : Robj) : Save σ Nat := rdbSaveType rio (server.format.type o.rdbType)

def rdbSaveStringObject : StringObject → Save σ Nat
  | .int value => rdbSaveLongLongAsStringObject server rio value
  | .sds s => rdbSaveRawString server rio s.bytes

def rdbSaveQuicklistNode : QuicklistNode → Save σ Nat
  | .raw container entry => do
      let n ← rdbSaveLen server rio container
      let data ← rdbSaveRawString server rio entry
      return n + data
  | .lzf container data size => do
      let n ← rdbSaveLen server rio container
      let blob ← rdbSaveLzfBlob server rio data size
      return n + blob

/-- The length of a collection and then its elements. -/
def rdbSaveCounted {α : Type} (f : α → Save σ Nat) (elements : List α) : Save σ Nat := do
  let n ← rdbSaveLen server rio elements.length
  let rest ← Save.each f elements
  return n + rest

def rdbSaveZsetElement (element : Bytes × UInt64) : Save σ Nat := do
  let n ← rdbSaveRawString server rio element.1
  let score ← rdbSaveBinaryDoubleValue rio element.2
  return n + score

/-- The time to live is relative to the least one, plus 1; 0 stands for none. -/
def rdbSaveTtl (minExpire : Option UInt64) (f : HashField) : Save σ Nat :=
  match minExpire, f.expireTime with
  | none, _ => pure 0
  | some _, none => rdbSaveLen server rio 0
  | some least, some expiryTime => rdbSaveLen server rio (expiryTime - least + 1).toNat

def rdbSaveHashField (minExpire : Option UInt64) (f : HashField) : Save σ Nat := do
  let ttl ← rdbSaveTtl server rio minExpire f
  let field ← rdbSaveRawString server rio f.field
  let value ← rdbSaveRawString server rio f.value
  return ttl + field + value

def rdbSaveStreamID (id : StreamID) : Save σ Nat := do
  let ms ← rdbSaveLen server rio id.ms
  let seq ← rdbSaveLen server rio id.seq
  return ms + seq

def rdbSaveStreamPEL (pel : List StreamNack) (nacks : Bool) : Save σ Nat :=
  rdbSaveCounted server rio (fun nack => do
    let id ← rdbWriteRaw rio nack.id
    if nacks then
      let time ← rdbSaveMillisecondTime rio nack.deliveryTime
      let count ← rdbSaveLen server rio nack.deliveryCount
      return id + time + count
    else return id) pel

def rdbSaveStreamConsumers (cg : StreamCG) : Save σ Nat :=
  rdbSaveCounted server rio (fun consumer => do
    let name ← rdbSaveRawString server rio consumer.name
    let seen ← rdbSaveMillisecondTime rio consumer.seenTime
    let active ← rdbSaveMillisecondTime rio consumer.activeTime
    let pel ← rdbSaveStreamPEL server rio consumer.pel false
    return name + seen + active + pel) cg.consumers

def rdbSaveStreamCG (cg : StreamCG) : Save σ Nat := do
  let name ← rdbSaveRawString server rio cg.name
  let lastId ← rdbSaveStreamID server rio cg.lastId
  let read ← rdbSaveLen server rio (cg.entriesRead % 2 ^ 64).toNat
  let pel ← rdbSaveStreamPEL server rio cg.pel true
  let consumers ← rdbSaveStreamConsumers server rio cg
  return name + lastId + read + pel + consumers

def rdbSaveStream (s : StreamObject) : Save σ Nat := do
  let listpacks ← rdbSaveCounted server rio (fun node => do
    let key ← rdbSaveRawString server rio node.1
    let lp ← rdbSaveRawString server rio node.2
    return key + lp) s.listpacks
  let length ← rdbSaveLen server rio s.length
  let lastId ← rdbSaveStreamID server rio s.lastId
  let firstId ← rdbSaveStreamID server rio s.firstId
  let deletedId ← rdbSaveStreamID server rio s.maxDeletedEntryId
  let added ← rdbSaveLen server rio s.entriesAdded
  let cgroups ← rdbSaveCounted server rio (rdbSaveStreamCG server rio) s.cgroups
  return listpacks + length + lastId + firstId + deletedId + added + cgroups

/-- The end marker is written even if the callback could not write. -/
def rdbSaveModule (mv : ModuleValue) : Save σ Nat := do
  let id ← rdbSaveLen server rio mv.id
  fun channel =>
    match Save.each (rdbWriteRaw rio) mv.saves channel with
    | (none, channel') => (none, (rdbSaveLen server rio server.format.moduleOpcodeEof channel').2)
    | (some written, channel') =>
        (do
          let eof ← rdbSaveLen server rio server.format.moduleOpcodeEof
          return id + written + eof : Save σ Nat) channel'

def rdbSaveContents : Contents → Save σ Nat
  | .quicklist nodes => rdbSaveCounted server rio (rdbSaveQuicklistNode server rio) nodes
  | .listListpack lp => do
      let count ← rdbSaveLen server rio 1
      let container ← rdbSaveLen server rio server.format.containerPacked
      let data ← rdbSaveRawString server rio lp
      return count + container + data
  | .set elements => rdbSaveCounted server rio (rdbSaveRawString server rio) elements
  | .setIntset blob => rdbSaveRawString server rio blob
  | .setListpack lp => rdbSaveRawString server rio lp
  | .zsetListpack lp => rdbSaveRawString server rio lp
  | .zsetSkiplist elements => rdbSaveCounted server rio (rdbSaveZsetElement server rio) elements
  | .hashListpack lp => rdbSaveRawString server rio lp
  | .hashListpackEx minExpire lp => do
      let _ ← rdbSaveMillisecondTime rio (minExpire.getD 0).toNat
      rdbSaveRawString server rio lp
  | .hash none fields => rdbSaveCounted server rio (rdbSaveHashField server rio none) fields
  | .hash (some minExpire) fields => do
      let _ ← rdbSaveMillisecondTime rio minExpire.toNat
      rdbSaveCounted server rio (rdbSaveHashField server rio (some minExpire)) fields
  | .stream s => rdbSaveStream server rio s
  | .module mv => rdbSaveModule server rio mv

def rdbSaveObject : Robj → Save σ Nat
  | .string s => rdbSaveStringObject server rio s
  | .other _ contents => rdbSaveContents server rio contents

end Redis
