import DoubleSwap.Redis.LoadObject

/-! `rdbLoadRio`: the loop over the opcodes of a file. The reader gives up where
the function returns `C_ERR`, exits or panics. The hints about sizes and the
messages are left out. -/
namespace Redis

open Reading Reader

/-- The one-byte codes `RDB_OPCODE_*` outside of the databases. -/
inductive FileOpcode where
  | expireTime | eof | aux | moduleAux | functionPreGa | function2
  deriving DecidableEq, Repr

/-- What the callback `aux_save` of a module type writes. -/
structure ModuleAux where
  id : Nat
  /-- It is `aux_save2`, which may save nothing. -/
  lazy : Bool
  saves : List Bytes
  deriving DecidableEq, Repr

/-- The configuration, the clock and the functions of other files that
`rdbLoadRio` uses. -/
structure FileServer extends ObjectServer where
  fileOpcode : FileOpcode → UInt8
  rdbVersion : Nat
  moduleOpcodeUint : Nat
  dbnum : Nat
  iAmMaster : Bool
  /-- `mstime` at the start. -/
  now : Int
  /-- There is a replication backlog, and no replica. -/
  replBacklog : Bool
  rdbChecksum : Bool
  skipChecksumValidation : Bool
  crc64 : Bytes → UInt64
  /-- The callback `aux_load`, for modules that have one. It gives nothing
  when it fails. -/
  auxLoad : Nat → Option (Int → Reader UInt8 (Option ModuleAux))
  /-- `functionsCreateWithLibraryCtx`, which may replace a library. -/
  createLibrary : Bool → List Bytes → Bytes → Option (List Bytes)

/-- The flags `RDBFLAGS_*` of a load. -/
structure LoadFlags where
  aofPreamble : Bool
  allowDup : Bool
  feedRepl : Bool
  deriving DecidableEq, Repr

structure LoadedKey where
  dbid : Nat
  key : Bytes
  value : Value
  /-- -1 for none. -/
  expiretime : Int
  /-- What `objectSetLRUOrLFU` is told, -1 for nothing. -/
  lfuFreq : Int
  lruIdle : Int
  deriving DecidableEq, Repr

/-- `rdbSaveInfo`. -/
structure SaveInfo where
  replStreamDb : Int
  /-- `none` when it is not set. -/
  replId : Option Bytes
  replOffset : Int
  deriving DecidableEq, Repr

/-- What was loaded, and the attributes for the next key. -/
structure Loading where
  dbid : Nat
  expiretime : Int
  lfuFreq : Int
  lruIdle : Int
  keys : List LoadedKey
  functions : List Bytes
  moduleAux : List ModuleAux
  rsi : Option SaveInfo
  loadingRdbUsedMem : Int
  keysLoaded : Nat
  keysExpired : Nat
  emptyKeysSkipped : Nat
  /-- The keys whose deletion is fed to the replicas. -/
  propagated : List (Nat × Bytes)
  deriving DecidableEq, Repr

namespace Loading

/-- After a key its attributes do not hold any more. -/
def reset (ld : Loading) : Loading := { ld with expiretime := -1, lfuFreq := -1, lruIdle := -1 }

/-- The state in which a load starts. -/
def start (keys : List LoadedKey) (functions : List Bytes) (rsi : Option SaveInfo) : Loading :=
  ⟨0, -1, -1, -1, keys, functions, [], rsi, 0, 0, 0, 0, []⟩

end Loading

def ascii (s : String) : Bytes := s.toList.map fun c => UInt8.ofNat c.toNat

/-- The bytes of a C string. -/
def cString (s : Bytes) : Bytes := s.takeWhile fun b => b ≠ 0

def toLower (b : UInt8) : UInt8 := if 65 ≤ b ∧ b ≤ 90 then b + 32 else b

/-- `!strcasecmp(s,t)`. -/
def sameName (s t : Bytes) : Bool := (cString s).map toLower = (cString t).map toLower

def isDigit (b : UInt8) : Bool := 48 ≤ b ∧ b ≤ 57

/-- `strtoll(s,NULL,10)`. -/
def strtoll (s : Bytes) : Int :=
  let s := s.dropWhile fun b => b = 32 ∨ (9 ≤ b ∧ b ≤ 13)
  let number (digits : Bytes) : Nat :=
    (digits.takeWhile isDigit).foldl (fun n b => 10 * n + (b.toNat - 48)) 0
  match s with
  | 45 :: digits => max (-2 ^ 63) (-(number digits : Int))
  | 43 :: digits => min (2 ^ 63 - 1) (number digits)
  | digits => min (2 ^ 63 - 1) (number digits)

/-- The value of a number as an `int`. -/
def asInt (n : Int) : Int := signed 4 (n % 2 ^ 32).toNat

def atoi (s : Bytes) : Int := asInt (strtoll s)

def replIdSize : Nat := 40

section Model

variable (server : FileServer) (flags : LoadFlags)

/-- A failed read gives -1. -/
def rdbLoadTime : Reader UInt8 Int := do
  match ← take 4 with
  | none => return -1
  | some bytes => return signed 4 (ofLittleEndian bytes)

/-- An auxiliary field. Those that are not for the replication are logged at
most, with the memory of the server that saved them. -/
def Loading.addAux (ld : Loading) (auxkey auxval : Bytes) : Loading :=
  if auxkey.head? = some 37 then ld
  else if sameName auxkey (ascii "repl-stream-db") then
    { ld with rsi := ld.rsi.map fun rsi => { rsi with replStreamDb := atoi auxval } }
  else if sameName auxkey (ascii "repl-id") then
    if auxval.length = replIdSize then
      { ld with rsi := ld.rsi.map fun rsi => { rsi with replId := some auxval } }
    else ld
  else if sameName auxkey (ascii "repl-offset") then
    { ld with rsi := ld.rsi.map fun rsi => { rsi with replOffset := strtoll auxval } }
  else if sameName auxkey (ascii "used-mem") then { ld with loadingRdbUsedMem := strtoll auxval }
  else ld

def rdbLoadAuxField (ld : Loading) : Reader UInt8 Loading := do
  let auxkey ← rdbGenericLoadStringObject server.toLoadServer
  let auxval ← rdbGenericLoadStringObject server.toLoadServer
  return ld.addAux auxkey auxval

def rdbLoadModuleAux (ld : Loading) : Reader UInt8 Loading := do
  let moduleid ← rdbLoadPlainLen server.toLoadServer
  let whenOpcode ← rdbLoadPlainLen server.toLoadServer
  let whence ← rdbLoadPlainLen server.toLoadServer
  giveUpIfFailed
  if asInt whenOpcode ≠ server.moduleOpcodeUint then fail
  else if !server.moduleTypeLookupModuleByID moduleid then fail
  else
    match server.auxLoad moduleid with
    | none => fail
    | some auxLoad =>
        match ← auxLoad (asInt whence) with
        | none => fail
        | some aux =>
            let eof ← rdbLoadPlainLen server.toLoadServer
            if eof ≠ server.format.moduleOpcodeEof then fail
            else return { ld with moduleAux := ld.moduleAux ++ [aux] }

def rdbFunctionLoad (ld : Loading) : Reader UInt8 Loading := do
  let payload ← rdbGenericLoadStringObject server.toLoadServer
  match server.createLibrary flags.allowDup ld.functions payload with
  | none => fail
  | some functions => return { ld with functions := functions }

/-- The key is for the master to delete: it has expired before the load. -/
def Loading.expired (ld : Loading) : Bool :=
  server.iAmMaster ∧ ¬ flags.aofPreamble ∧ ld.expiretime ≠ -1 ∧ ld.expiretime < server.now

/-- The database has the key. -/
def Loading.has (ld : Loading) (key : Bytes) : Bool :=
  ld.keys.any fun loaded => loaded.dbid = ld.dbid ∧ loaded.key = key

/-- `dbAddRDBLoad` for a key that is not there. -/
def Loading.add (ld : Loading) (key : Bytes) (val : Value) : Loading :=
  { ld with
    keysLoaded := ld.keysLoaded + 1
    keys := ld.keys ++ [⟨ld.dbid, key, val, ld.expiretime, ld.lfuFreq, ld.lruIdle⟩] }

/-- `dbSyncDelete`. -/
def Loading.delete (ld : Loading) (key : Bytes) : Loading :=
  { ld with keys := ld.keys.filter fun loaded => ¬ (loaded.dbid = ld.dbid ∧ loaded.key = key) }

/-- What is done with a key and its value. `none` for a failed assertion or a
key that is there twice. -/
def Loading.addKey (ld : Loading) (key : Bytes) : Option Value → Option Loading
  | none => some { ld.reset with emptyKeysSkipped := ld.emptyKeysSkipped + 1 }
  | some val =>
      if ld.expired server flags then
        if flags.feedRepl then
          if server.replBacklog then
            some { ld.reset with
              keysExpired := ld.keysExpired + 1
              propagated := ld.propagated ++ [(ld.dbid, key)] }
          else none
        else some { ld.reset with keysExpired := ld.keysExpired + 1 }
      else if ld.has key then
        if flags.allowDup then some ((ld.delete key).add key val).reset else none
      else some (ld.add key val).reset

def rdbLoadKey (type : UInt8) (ld : Loading) : Reader UInt8 Loading := do
  let key ← rdbGenericLoadStringObject server.toLoadServer
  let val ← rdbLoadObject server.toObjectServer type
  match ld.addKey server flags key val with
  | none => fail
  | some ld => return ld

/-- What an opcode announces, or a key with a value of the type. The end mark is
left on the right. -/
def rdbLoadTyped (type : UInt8) (ld : Loading) : Reader UInt8 (Loading ⊕ Loading) := do
  if type = server.fileOpcode .expireTime then
    let expiretime ← rdbLoadTime
    giveUpIfFailed
    return .inl { ld with expiretime := expiretime * 1000 }
  else if type = server.format.opcode .expireTimeMs then
    let expiretime ← rdbLoadMillisecondTime
    giveUpIfFailed
    return .inl { ld with expiretime := expiretime }
  else if type = server.format.opcode .freq then
    match ← next with
    | none => fail
    | some byte => return .inl { ld with lfuFreq := byte.toNat }
  else if type = server.format.opcode .idle then
    let qword ← rdbDemandLen server.toLoadServer
    return .inl { ld with lruIdle := signed 8 qword }
  else if type = server.fileOpcode .eof then return .inr ld
  else if type = server.format.opcode .selectDb then
    let dbid ← rdbDemandLen server.toLoadServer
    if server.dbnum ≤ dbid then fail else return .inl { ld with dbid := dbid }
  else if type = server.format.opcode .resizeDb then
    let _ ← rdbDemandLen server.toLoadServer
    let _ ← rdbDemandLen server.toLoadServer
    return .inl ld
  else if type = server.format.opcode .slotInfo then
    let _ ← rdbDemandLen server.toLoadServer
    let _ ← rdbDemandLen server.toLoadServer
    let _ ← rdbDemandLen server.toLoadServer
    return .inl ld
  else if type = server.fileOpcode .aux then
    let ld ← rdbLoadAuxField server ld
    return .inl ld
  else if type = server.fileOpcode .moduleAux then
    let ld ← rdbLoadModuleAux server ld
    return .inl ld
  else if type = server.fileOpcode .functionPreGa then fail
  else if type = server.fileOpcode .function2 then
    let ld ← rdbFunctionLoad server flags ld
    return .inl ld
  else
    let ld ← rdbLoadKey server flags type ld
    return .inl ld

/-- A round of the loop. -/
def rdbLoadOpcode (ld : Loading) : Reader UInt8 (Loading ⊕ Loading) := do
  match ← rdbLoadType with
  | none => fail
  | some type => rdbLoadTyped server flags type ld

/-- `rdb->cksum` after these bytes. -/
def cksum (bytes : Bytes) : UInt64 := if server.rdbChecksum then server.crc64 bytes else 0

/-- The checksum at the end. One that is zero is not checked. -/
def verifyChecksum (ld : Loading) : Reader UInt8 Loading := do
  let expected := cksum server (← past)
  let bytes ← demand 8
  let cksum := UInt64.ofNat (ofLittleEndian bytes)
  if server.rdbChecksum ∧ ¬ server.skipChecksumValidation ∧ cksum ≠ 0 ∧ cksum ≠ expected then fail
  else return ld

def rdbLoadRio (ld : Loading) : Reader UInt8 Loading := do
  let buf ← demand 9
  if buf.take 5 ≠ ascii "REDIS" then fail
  else
    let rdbver := atoi (buf.drop 5)
    if rdbver < 1 ∨ (server.rdbVersion : Int) < rdbver then fail
    else
      let ld ← loop (rdbLoadOpcode server flags) ld
      if 5 ≤ rdbver then verifyChecksum server ld else return ld

end Model

end Redis
