import DoubleSwap.Data.CInt
import DoubleSwap.Redis.Dump

/-! `persist__message_store_save` with its additions. Its counters are of type
`int` and `long`, and an overflow of the former ends the run as undefined. -/
namespace Mosquitto

open CInt (toInt)
open Redis (GuestRecord pages logVirtualAddress)

/-- A NUL-terminated string, without its terminator. -/
abbrev CString := List UInt8

/-- What is read of a `mosquitto_msg_store`, and where it is. -/
structure MsgStore where
  address : Nat
  refCount : Int
  topic : Option CString
  destIdCount : Int
  retain : Bool
  dbId : UInt64
  messageExpiryTime : Int
  payload : Nat
  payloadlen : Nat
  sourceMid : UInt16
  sourceId : Option CString
  sourceUsername : Option CString
  /-- The port of the listener, if there is one. -/
  sourceListener : Option UInt16
  qos : UInt8
  properties : Nat
  inUserSpace : address + 8 < 2 ^ 47 ∧ payload + payloadlen < 2 ^ 47
  deriving DecidableEq

/-- A `P_msg_store`. -/
structure Chunk where
  retain : UInt8
  storeId : UInt64
  expiryTime : Int
  payloadlen : Nat
  sourceMid : UInt16
  sourceIdLen : UInt16
  sourceId : Option CString
  sourceUsernameLen : UInt16
  sourceUsername : Option CString
  topicLen : UInt16
  topic : CString
  sourcePort : UInt16
  qos : UInt8
  payload : Nat
  properties : Nat
  deriving DecidableEq

/-- The broker, and what the function asks the system for. -/
structure Broker where
  msgStore : List MsgStore
  /-- `db.msg_store_count`. -/
  msgStoreCount : Int
  /-- `sysconf(_SC_PAGESIZE)` is `2 ^ pageBits`. -/
  pageBits : Nat
  pageBits_lt : pageBits < 63
  /-- The second that `gettimeofday` returns after so many persisted messages. -/
  timeOfDay : Nat → Int

/-- Pages of 4096 bytes. -/
theorem plainPageBits_lt : 12 < 63 := by decide

def Broker.pageSize (broker : Broker) : Nat := 2 ^ broker.pageBits

/-- `persist__chunk_message_store_write_v6`: the return code, and the file. -/
abbrev WriteChunk (σ : Type) := Chunk → σ → Int × σ

structure SaveState (σ : Type) where
  file : σ
  guestLog : List GuestRecord
  percentages : List (Int × Int)
  keyNumber : Int
  keysProcessed : Nat
  keysToProcess : Int
  currentPercentage : Int

/-- How a run ends. -/
inductive Exit where
  | undefined
  | returned (rc : Int)
  deriving DecidableEq, Repr

def strlen16 (s : Option CString) : UInt16 := UInt16.ofNat (s.getD []).length

/-- `"$SYS"`. -/
def sysPrefix : CString := [0x24, 0x53, 0x59, 0x53]

/-- `!strncmp(topic, "$SYS", 4)`. -/
def isSysTopic (topic : CString) : Bool := topic.take 4 = sysPrefix

/-- The topic of a message that is not skipped. -/
def MsgStore.persistedTopic (stored : MsgStore) : Option CString :=
  if stored.refCount < 1 then none
  else
    match stored.topic with
    | none => none
    | some topic =>
        if isSysTopic topic ∧ stored.refCount ≤ 1 ∧ stored.destIdCount = 0 then none
        else some topic

def MsgStore.chunk (stored : MsgStore) (topic : CString) : Chunk where
  retain := if isSysTopic topic then 0 else if stored.retain then 1 else 0
  storeId := stored.dbId
  expiryTime := stored.messageExpiryTime
  payloadlen := stored.payloadlen
  sourceMid := stored.sourceMid
  sourceIdLen := strlen16 stored.sourceId
  sourceId := stored.sourceId
  sourceUsernameLen := strlen16 stored.sourceUsername
  sourceUsername := stored.sourceUsername
  topicLen := strlen16 (some topic)
  topic := topic
  sourcePort := stored.sourceListener.getD 0
  qos := stored.qos
  payload := stored.payload
  properties := stored.properties

section Save

variable {σ : Type} (broker : Broker) (write : WriteChunk σ)

/-- `align_to_page_start`. -/
def alignToPageStart (address : Nat) : Nat := address / broker.pageSize * broker.pageSize

/-- The loops from the page of an address to that of the aligned address and a length. -/
def tracedPages (address len : Nat) : List Nat :=
  pages (alignToPageStart broker address)
    ((alignToPageStart broker address + len) / broker.pageSize * broker.pageSize) broker.pageSize

/-- `sizeof(stored)`, the size of a pointer. -/
def sizeofStored : Nat := 8

/-- The pages of the payload and those of the structure. -/
def MsgStore.tracedPages (stored : MsgStore) : List Nat :=
  Mosquitto.tracedPages broker stored.payload stored.payloadlen ++
    Mosquitto.tracedPages broker stored.address sizeofStored

/-- The two loops before, and the two after a message is written. -/
def SaveState.log (stored : MsgStore) (tag : Text) (st : SaveState σ) : SaveState σ :=
  { st with guestLog := st.guestLog ++ (stored.tracedPages broker).map (logVirtualAddress tag) }

/-- The next percentage. -/
def SaveState.raise (st : SaveState σ) : Option (SaveState σ) := do
  let percentage ← toInt (st.currentPercentage + 10)
  let messages ← toInt (broker.msgStoreCount - 53)
  let product ← toInt (messages * percentage)
  return { st with currentPercentage := percentage, keysToProcess := product.tdiv 100 }

/-- The counters and the progress record after a message. -/
def SaveState.report (st : SaveState σ) : Option (SaveState σ) := do
  let keyNumber ← toInt (st.keyNumber + 1)
  let st := { st with keyNumber := keyNumber, keysProcessed := st.keysProcessed + 1 }
  if st.keysToProcess ≤ st.keysProcessed then
    let elapsed := broker.timeOfDay st.keysProcessed - broker.timeOfDay 0
    { st with percentages := st.percentages ++ [(elapsed, st.currentPercentage)] }.raise broker
  else return st

/-- A message that is not skipped. An error is the end of the run. -/
def persistMessage (stored : MsgStore) (topic : CString) (st : SaveState σ) :
    Except (Exit × SaveState σ) (SaveState σ) :=
  let started := st.log broker stored "OUT G* NONE".toList
  match write (stored.chunk topic) started.file with
  | (rc, file) =>
      if rc ≠ 0 then .error (.returned rc, { started with file := file })
      else
        let finished := { started with file := file }.log broker stored "OUT G NONE".toList
        match finished.report broker with
        | none => .error (.undefined, finished)
        | some next => .ok next

/-- The loop over the message store. -/
def saveMessages : List MsgStore → SaveState σ → Except (Exit × SaveState σ) (SaveState σ)
  | [], st => .ok st
  | stored :: rest, st =>
      match stored.persistedTopic with
      | none => saveMessages rest st
      | some topic =>
          match persistMessage broker write stored topic st with
          | .error ended => .error ended
          | .ok next => saveMessages rest next

/-- The state in which the loop starts. -/
def SaveState.start (messages : Int) (st : SaveState σ) : SaveState σ :=
  { st with keyNumber := 0, keysProcessed := 0, keysToProcess := messages.tdiv 10,
            currentPercentage := 10 }

def ret : Except (Exit × SaveState σ) (SaveState σ) → Exit × SaveState σ
  | .error ended => ended
  | .ok st => (.returned 0, st)

/-- `persist__message_store_save`. -/
def messageStoreSave (st : SaveState σ) : Exit × SaveState σ :=
  match toInt (broker.msgStoreCount - 53) with
  | none => (.undefined, st)
  | some messages => ret (saveMessages broker write broker.msgStore (st.start messages))

end Save

end Mosquitto
