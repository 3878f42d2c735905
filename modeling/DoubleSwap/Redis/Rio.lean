import DoubleSwap.Text.Words

/-! The writers at the bottom of a dump: single bytes, lengths, integers and
strings, written to a stream that may refuse any write. -/
namespace Redis

abbrev Bytes := List UInt8

def littleEndian : Nat → Nat → Bytes
  | 0, _ => []
  | width + 1, n => UInt8.ofNat n :: littleEndian width (n / 256)

def bigEndian (width n : Nat) : Bytes := (littleEndian width n).reverse

/-- A stream with states `σ`. `write` tells whether the bytes were taken. -/
structure Rio (σ : Type) where
  write : Bytes → σ → Bool × σ
  processedBytes : σ → UInt64

/-- The state of a stream, with the bytes of every write so far. -/
structure Channel (σ : Type) where
  rio : σ
  writes : List Bytes
  deriving DecidableEq, Repr

/-- A function that writes to the stream. It returns `none` for -1. -/
def Save (σ α : Type) : Type := Channel σ → Option α × Channel σ

namespace Save

variable {σ α β : Type}

instance : Monad (Save σ) where
  pure a := fun channel => (some a, channel)
  bind x f := fun channel =>
    match x channel with
    | (none, channel') => (none, channel')
    | (some a, channel') => f a channel'

/-- The writes for the elements of a list, with the sum of what they return. -/
def each (f : α → Save σ Nat) : List α → Save σ Nat
  | [] => pure 0
  | a :: as => do
      let n ← f a
      let rest ← each f as
      return n + rest

end Save

/-- The one-byte codes `RDB_OPCODE_*`. -/
inductive Opcode where
  | selectDb | resizeDb | slotInfo | expireTimeMs | idle | freq
  deriving DecidableEq, Repr

/-- The one-byte codes `RDB_TYPE_*`. -/
inductive RdbType where
  | string | listQuicklist2 | setIntset | set | setListpack | zsetListpack | zset2
  | hashListpack | hashListpackEx | hash | hashMetadata | streamListpacks3 | module2
  deriving DecidableEq, Repr

/-- The constants of `rdb.h` and `quicklist.h`. -/
structure Format where
  opcode : Opcode → UInt8
  type : RdbType → UInt8
  sixBitLen : Nat
  fourteenBitLen : Nat
  thirtyTwoBitLen : UInt8
  sixtyFourBitLen : UInt8
  encVal : Nat
  encInt8 : Nat
  encInt16 : Nat
  encInt32 : Nat
  encLzf : Nat
  moduleOpcodeEof : Nat
  containerPacked : Nat

/-- The configuration of the server, the clocks, and the functions of other
files that the writers use. -/
structure Server where
  format : Format
  /-- `none` when the bytes are no `long long`. -/
  string2ll : Bytes → Option Int
  ll2string : Int → Bytes
  /-- `none` when the result does not fit in the given length. -/
  lzfCompress : Bytes → Nat → Option Bytes
  rdbCompression : Bool
  lruPolicy : Bool
  lfuPolicy : Bool
  clusterEnabled : Bool
  inForkChild : Bool
  /-- The page size is `2 ^ pageBits`, kept in a `long`. -/
  pageBits : Nat
  pageBits_lt : pageBits < 63
  /-- What `mstime` answers after so many keys of the dump. -/
  mstime : Nat → Int
  /-- The seconds of `gettimeofday` after so many keys of the database. -/
  timeOfDay : Nat → Int

variable {σ : Type} (server : Server) (rio : Rio σ)

def rdbWriteRaw (p : Bytes) : Save σ Nat := fun channel =>
  match rio.write p channel.rio with
  | (taken, state) => (if taken then some p.length else none, ⟨state, channel.writes ++ [p]⟩)

def rdbSaveType (type : UInt8) : Save σ Nat := rdbWriteRaw rio [type]

def rdbSaveMillisecondTime (t : Int) : Save σ Nat :=
  rdbWriteRaw rio (littleEndian 8 (t % 2 ^ 64).toNat)

/-- `score` holds the bits of the double. -/
def rdbSaveBinaryDoubleValue (score : UInt64) : Save σ Nat :=
  rdbWriteRaw rio (littleEndian 8 score.toNat)

def rdbSaveLen (len : Nat) : Save σ Nat :=
  if len < 2 ^ 6 then
    rdbWriteRaw rio [UInt8.ofNat ((len &&& 0xFF) ||| (server.format.sixBitLen <<< 6))]
  else if len < 2 ^ 14 then
    rdbWriteRaw rio
      [UInt8.ofNat (((len >>> 8) &&& 0xFF) ||| (server.format.fourteenBitLen <<< 6)),
        UInt8.ofNat (len &&& 0xFF)]
  else if len ≤ 2 ^ 32 - 1 then do
    let _ ← rdbWriteRaw rio [server.format.thirtyTwoBitLen]
    let _ ← rdbWriteRaw rio (bigEndian 4 len)
    return 1 + 4
  else do
    let _ ← rdbWriteRaw rio [server.format.sixtyFourBitLen]
    let _ ← rdbWriteRaw rio (bigEndian 8 len)
    return 1 + 8

/-- `none` for 0. -/
def rdbEncodeInteger (value : Int) : Option Bytes :=
  let enc (kind width : Nat) : Option Bytes :=
    some (UInt8.ofNat ((server.format.encVal <<< 6) ||| kind) ::
      littleEndian width (value % 2 ^ (8 * width)).toNat)
  if -2 ^ 7 ≤ value ∧ value ≤ 2 ^ 7 - 1 then enc server.format.encInt8 1
  else if -2 ^ 15 ≤ value ∧ value ≤ 2 ^ 15 - 1 then enc server.format.encInt16 2
  else if -2 ^ 31 ≤ value ∧ value ≤ 2 ^ 31 - 1 then enc server.format.encInt32 4
  else none

def rdbTryIntegerEncoding (s : Bytes) : Option Bytes :=
  (server.string2ll s).bind (rdbEncodeInteger server)

def rdbSaveLzfBlob (data : Bytes) (originalLen : Nat) : Save σ Nat := do
  let byte ← rdbWriteRaw rio [UInt8.ofNat ((server.format.encVal <<< 6) ||| server.format.encLzf)]
  let compressed ← rdbSaveLen server rio data.length
  let original ← rdbSaveLen server rio originalLen
  let blob ← rdbWriteRaw rio data
  return byte + compressed + original + blob

def rdbSaveLzfStringObject (s : Bytes) : Save σ Nat :=
  if s.length ≤ 4 then pure 0
  else
    match server.lzfCompress s (s.length - 4) with
    | none => pure 0
    | some out => rdbSaveLzfBlob server rio out s.length

/-- The end of `rdbSaveRawString`. -/
def rdbSaveVerbatim (s : Bytes) : Save σ Nat := do
  let n ← rdbSaveLen server rio s.length
  if 0 < s.length then
    let _ ← rdbWriteRaw rio s
    return n + s.length
  else return n

def rdbSaveRawString (s : Bytes) : Save σ Nat :=
  let encoded := if s.length ≤ 11 then rdbTryIntegerEncoding server s else none
  match encoded with
  | some buf => rdbWriteRaw rio buf
  | none => do
      let n ← if server.rdbCompression ∧ 20 < s.length then rdbSaveLzfStringObject server rio s
        else pure 0
      if 0 < n then return n else rdbSaveVerbatim server rio s

def rdbSaveLongLongAsStringObject (value : Int) : Save σ Nat :=
  match rdbEncodeInteger server value with
  | some buf => rdbWriteRaw rio buf
  | none => do
      let n ← rdbSaveLen server rio (server.ll2string value).length
      let text ← rdbWriteRaw rio (server.ll2string value)
      return n + text

end Redis
