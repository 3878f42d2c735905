import DoubleSwap.Redis.LoadString
import DoubleSwap.Redis.Objects

/-! The collections that `rdbSaveObject` writes, as `rdbLoadObject` reads them:
what is checked, and what is added to what. -/
namespace Redis

open Reading Reader

/-- Whether a key or an element is there already. -/
instance decidableMemBytes (b : Bytes) (bs : List Bytes) : Decidable (b ∈ bs) := inferInstance

/-- An entry of a listpack, with its number if it is one. -/
structure LpEntry where
  text : Bytes
  number : Option Int
  deriving DecidableEq, Repr

/-- `server.sanitize_dump_payload`. -/
inductive Sanitize where
  | no | yes | clients
  deriving DecidableEq, Repr

/-- The client that a payload comes from. -/
structure LoadClient where
  master : Bool
  /-- The flag `USER_FLAG_SANITIZE_PAYLOAD_SKIP` of its user, if it has one. -/
  skipSanitize : Option Bool
  deriving DecidableEq, Repr

/-- A value, whatever its encoding. -/
inductive Value where
  | string (s : Bytes)
  | other (contents : Contents)
  deriving DecidableEq, Repr

/-- The types of older versions, which are loaded but no longer written. -/
inductive OlderType where
  | list | zset | hashZipmap | listZiplist | zsetZiplist | hashZiplist | listQuicklist
  | streamListpacks | streamListpacks2 | hashMetadataPreGa | hashListpackExPreGa | modulePreGa
  deriving DecidableEq, Repr

/-- The settings and the functions of other files that `rdbLoadObject` uses. -/
structure ObjectServer extends LoadServer where
  sanitizeDumpPayload : Sanitize
  loading : Bool
  currentClient : Option LoadClient
  containerPlain : Nat
  /-- `EB_EXPIRE_TIME_MAX`. -/
  expireTimeMax : Nat
  setMaxIntsetEntries : Nat
  setMaxListpackEntries : Nat
  setMaxListpackValue : Nat
  hashMaxListpackEntries : Nat
  hashMaxListpackValue : Nat
  /-- `DICT_HT_INITIAL_SIZE`. -/
  dictHtInitialSize : Nat
  /-- Whether there is memory for a table of so many entries. -/
  dictTryExpand : Nat → Bool
  /-- Whether a listpack of these entries, or none for NULL, may grow by so many
  bytes. -/
  lpSafeToAdd : Option (List Bytes) → Nat → Bool
  lpEntrySizeInteger : Nat → Nat
  /-- The shallow check of a listpack. -/
  lpHeaderOk : Bytes → Bool
  /-- `none` for a listpack that the deep check refuses. -/
  lpEntries : Bytes → Option (List LpEntry)
  lpLength : Bytes → Nat
  intsetValidateIntegrity : Bytes → Bool → Bool
  streamValidateListpackIntegrity : Bytes → Bool → Bool
  /-- The least time of a listpack whose fields have times. -/
  listpackExGetMinExpire : Bytes → Option UInt64
  /-- Whether `lpFirst` finds an entry. -/
  lpHasFirst : Bytes → Bool
  moduleTypeLookupModuleByID : Nat → Bool
  /-- The callback `rdb_load` of a module, with nothing for NULL. -/
  rdbLoad : Nat → Reader UInt8 (Option ModuleValue)
  /-- The codes of the older types. -/
  olderType : OlderType → UInt8
  /-- The listpack of these entries, each appended at its end. -/
  lpOf : List Bytes → Bytes
  quicklistPushTail : List QuicklistNode → Bytes → List QuicklistNode
  /-- The entries of a ziplist, numbers as their digits. `none` for a ziplist that
  the deep check refuses. -/
  ziplistEntries : Bytes → Option (List Bytes)
  /-- The fields and values of a zipmap. `none` if the deep check refuses it. -/
  zipmapFields : Bytes → Option (List (Bytes × Bytes))
  /-- `sscanf` with `%lg`, up to the first zero byte. -/
  sscanfDouble : Bytes → Option UInt64
  /-- The first ID in the nodes of a stream that is no tombstone. -/
  streamGetEdgeID : List (Bytes × Bytes) → StreamID
  streamEstimateDistanceFromFirstEverEntry : StreamObject → StreamID → Int

/-- A double that is not a number. -/
def isNan (score : UInt64) : Bool :=
  score.toNat / 2 ^ 52 % 2 ^ 11 = 2 ^ 11 - 1 ∧ score.toNat % 2 ^ 52 ≠ 0

/-- Give up if a read has failed. -/
def giveUpIfFailed : Reader UInt8 Unit := do
  if ← failed then fail else return ()

/-- The state of `_lpEntryValidation`. -/
structure LpValidation where
  count : Nat
  fields : List Bytes
  lastExpireat : Int
  deriving DecidableEq, Repr

/-- `hashTypeGetMinExpire` of a table. -/
def minExpireOf (fields : List HashField) : Option UInt64 :=
  (fields.filterMap HashField.expireTime).min?

inductive SetEncoding where
  | intset | listpack | table
  deriving DecidableEq, Repr

/-- A set that is being loaded. -/
structure LoadedSet where
  encoding : SetEncoding
  elements : List Bytes
  maxelelen : Nat
  sumelelen : Nat
  deriving DecidableEq, Repr

/-- How the times of a hash's fields are stored: not at all, as they are, or as
the distance to the least one. -/
inductive HashTtl where
  | none
  | absolute
  | relative (minExpire : Nat)
  deriving DecidableEq, Repr

/-- A hash that is being loaded. A listpack may hold a field twice. -/
structure LoadedHash where
  isTable : Bool
  fields : List HashField
  /-- The fields that are still to be read. -/
  len : Nat
  deriving DecidableEq, Repr

section Model

variable (server : ObjectServer)

def deepIntegrityValidation : Bool :=
  match server.sanitizeDumpPayload with
  | .no => false
  | .yes => true
  | .clients =>
      !(server.loading || match server.currentClient with
        | none => false
        | some client => client.master || client.skipSanitize.getD false)

def lpValidateIntegrity (lp : Bytes) (deep : Bool) : Bool :=
  if deep then (server.lpEntries lp).isSome else server.lpHeaderOk lp

/-- The keys after an entry, if it is not one that is there already. -/
def lpKeyCheck (tupleLen : Nat) (data : LpValidation) (entry : LpEntry) : Option (List Bytes) :=
  if data.count % tupleLen = 0 then
    if entry.text ∈ data.fields then none else some (data.fields ++ [entry.text])
  else some data.fields

/-- The last time after an entry, if it is in range and in order. -/
def lpTimeCheck (tupleLen : Nat) (data : LpValidation) (entry : LpEntry) : Option Int :=
  if data.count % tupleLen = 2 then
    match entry.number with
    | none => none
    | some expireAt =>
        if expireAt < 0 ∨ (server.expireTimeMax : Int) < expireAt then none
        else if expireAt ≠ 0 ∧ (data.lastExpireat = 0 ∨ expireAt < data.lastExpireat) then none
        else some expireAt
  else some data.lastExpireat

def lpEntryValidation (tupleLen : Nat) (data : LpValidation) (entry : LpEntry) :
    Option LpValidation := do
  let fields ← lpKeyCheck tupleLen data entry
  let lastExpireat ← lpTimeCheck server tupleLen data entry
  return ⟨data.count + 1, fields, lastExpireat⟩

def lpValidateIntegrityAndDups (lp : Bytes) (deep : Bool) (tupleLen : Nat) : Bool :=
  if !deep then lpValidateIntegrity server lp false
  else
    match server.lpEntries lp with
    | none => false
    | some entries =>
        match entries.foldlM (lpEntryValidation server tupleLen) ⟨0, [], -1⟩ with
        | none => false
        | some data => data.count % tupleLen = 0

def rdbLoadBinaryDoubleValue : Reader UInt8 UInt64 := do
  let bytes ← demand 8
  return UInt64.ofNat (ofLittleEndian bytes)

/-- A loop over as many elements as the length says. Nothing for an empty key. -/
def rdbLoadCounted {γ : Type} (body : γ → Reader UInt8 γ) (acc : γ) :
    Reader UInt8 (Option γ) := do
  let len ← rdbDemandLen server.toLoadServer
  if len = 0 then return none
  else
    let result ← repeatFrom body len acc
    return some result

/-- The size of a table is demanded if it is larger than that of a new one. -/
def cannotExpand (len : Nat) : Bool := server.dictHtInitialSize < len && !server.dictTryExpand len

/-- The encoding in which the set takes the element, with nothing if that is a
table for which there is no memory. -/
def LoadedSet.encodingFor (len : Nat) (set : LoadedSet) (sdsele : Bytes) : Option SetEncoding :=
  let table := if server.dictTryExpand len then some SetEncoding.table else none
  let listpack :=
    if set.elements.length < server.setMaxListpackEntries ∧
        sdsele.length ≤ server.setMaxListpackValue ∧
        server.lpSafeToAdd (some set.elements) sdsele.length then
      some SetEncoding.listpack
    else table
  match set.encoding with
  | .table => some .table
  | .listpack => listpack
  | .intset =>
      if (server.string2ll sdsele).isSome then some .intset
      else if set.elements.length < server.setMaxListpackEntries ∧
          max set.maxelelen sdsele.length ≤ server.setMaxListpackValue ∧
          server.lpSafeToAdd none (set.sumelelen + sdsele.length) then
        listpack
      else table

/-- Every encoding finds an element that is there already; a number is written
in one way only. -/
def rdbLoadSetElement (len : Nat) (set : LoadedSet) : Reader UInt8 LoadedSet := do
  let sdsele ← rdbGenericLoadStringObject server.toLoadServer
  match set.encodingFor server len sdsele with
  | none => fail
  | some encoding =>
      if sdsele ∈ set.elements then fail
      else return ⟨encoding, set.elements ++ [sdsele], max set.maxelelen sdsele.length,
        set.sumelelen + sdsele.length⟩

/-- The counter is an `unsigned int`: with a larger length the loop ends only
where the file does, or at an element that is refused. -/
def rdbLoadSetElements (len : Nat) (set : LoadedSet) : Reader UInt8 LoadedSet :=
  if len < 2 ^ 32 then repeatFrom (rdbLoadSetElement server len) len set
  else
    loop (fun set => do
      let next ← rdbLoadSetElement server len set
      return .inl next) set

def rdbLoadSet : Reader UInt8 (Option (List Bytes)) := do
  let len ← rdbDemandLen server.toLoadServer
  if len = 0 then return none
  else
    let maxEntries := min server.setMaxIntsetEntries (2 ^ 30)
    if maxEntries < len ∧ cannotExpand server len then fail
    else
      let set ← rdbLoadSetElements server len
        ⟨if maxEntries < len then .table else .intset, [], 0, 0⟩
      return some set.elements

/-- The elements stay in the order of the file. -/
def rdbLoadZsetElement (loadScore : Reader UInt8 UInt64) (elements : List (Bytes × UInt64)) :
    Reader UInt8 (List (Bytes × UInt64)) := do
  let sdsele ← rdbGenericLoadStringObject server.toLoadServer
  let score ← loadScore
  if isNan score then fail
  else if sdsele ∈ elements.map Prod.fst then fail
  else return elements ++ [(sdsele, score)]

def rdbLoadZset (loadScore : Reader UInt8 UInt64) :
    Reader UInt8 (Option (List (Bytes × UInt64))) := do
  let zsetlen ← rdbDemandLen server.toLoadServer
  if zsetlen = 0 then return none
  else if cannotExpand server zsetlen then fail
  else
    let elements ← repeatFrom (rdbLoadZsetElement server loadScore) zsetlen []
    return some elements

/-- The time of a field, which is 0 for none, from what is stored. -/
def HashTtl.expireAt : HashTtl → Nat → Nat
  | .none, _ => 0
  | .absolute, ttl => ttl
  | .relative minExpire, ttl => if ttl ≠ 0 then (ttl + minExpire + (2 ^ 64 - 1)) % 2 ^ 64 else 0

def rdbLoadTtl (ttls : HashTtl) : Reader UInt8 (Option UInt64) := do
  if ttls = .none then return none
  else
    match ← rdbLoadLenByRef server.toLoadServer with
    | none => fail
    | some (_, ttl) =>
        let expireAt := ttls.expireAt ttl
        if server.expireTimeMax < expireAt then fail
        else return if expireAt = 0 then none else some (UInt64.ofNat expireAt)

/-- The entries of a hash in a listpack. -/
def lpFields (ttls : HashTtl) (fields : List HashField) : List Bytes :=
  fields.flatMap fun f =>
    if ttls = .none then [f.field, f.value]
    else [f.field, f.value, server.ll2string ((f.expireTime.map UInt64.toNat).getD 0)]

/-- Whether a listpack with these fields takes one more. -/
def lpTakes (ttls : HashTtl) (fields : List HashField) (f : HashField) : Bool :=
  let size := f.field.length + f.value.length +
    if ttls = .none then 0
    else server.lpEntrySizeInteger ((f.expireTime.map UInt64.toNat).getD 0)
  f.field.length ≤ server.hashMaxListpackValue && f.value.length ≤ server.hashMaxListpackValue &&
    server.lpSafeToAdd (some (lpFields server ttls fields)) size

/-- Add a field to the table, or give up if it is there. The listpack that a
table is made of must not hold a field twice either. -/
def addToTable (fields : List HashField) (f : HashField) (len : Nat) : Reader UInt8 LoadedHash :=
  if (fields.map HashField.field).Nodup ∧ f.field ∉ fields.map HashField.field then
    pure ⟨true, fields ++ [f], len⟩
  else fail

/-- A field of a hash. In a listpack, only the deep validation looks for a
field that is there already; in a table such a field is always found. -/
def rdbLoadHashField (ttls : HashTtl) (hash : LoadedHash) : Reader UInt8 LoadedHash := do
  let len := hash.len - 1
  let expireTime ← rdbLoadTtl server ttls
  let field ← rdbGenericLoadStringObject server.toLoadServer
  let value ← rdbGenericLoadStringObject server.toLoadServer
  let f : HashField := ⟨field, expireTime, value⟩
  if hash.isTable then addToTable hash.fields f len
  else if deepIntegrityValidation server ∧ field ∈ hash.fields.map HashField.field then fail
  else if lpTakes server ttls hash.fields f then return ⟨false, hash.fields ++ [f], len⟩
  else if cannotExpand server len then fail
  else addToTable hash.fields f len

/-- Of a hash that is a table from the start, the size is demanded only if its
fields have no times. -/
def rdbLoadHash (ttls : HashTtl) : Reader UInt8 (Option (List HashField)) := do
  let len ← rdbDemandLen server.toLoadServer
  if len = 0 then return none
  else
    let isTable : Bool := server.hashMaxListpackEntries < len
    if isTable ∧ ttls = .none ∧ cannotExpand server len then fail
    else
      let hash ← repeatFrom (rdbLoadHashField server ttls) len ⟨isTable, [], len⟩
      return some hash.fields

/-- A node of a list. A listpack without entries is skipped. -/
def rdbLoadQuicklistNode (nodes : List QuicklistNode) : Reader UInt8 (List QuicklistNode) := do
  let container ← rdbDemandLen server.toLoadServer
  if container ≠ server.format.containerPacked ∧ container ≠ server.containerPlain then fail
  else
    let data ← rdbGenericLoadStringObject server.toLoadServer
    if data.length = 0 then fail
    else if container = server.containerPlain then return nodes ++ [.raw container data]
    else if !lpValidateIntegrity server data (deepIntegrityValidation server) then fail
    else if server.lpLength data = 0 then return nodes
    else return nodes ++ [.raw container data]

/-- A listpack of tuples, each with a key that must not be there twice. -/
def rdbLoadListpack (tupleLen : Nat) (make : Bytes → Contents) :
    Reader UInt8 (Option Contents) := do
  let encoded ← rdbGenericLoadStringObject server.toLoadServer
  if !lpValidateIntegrityAndDups server encoded (deepIntegrityValidation server) tupleLen then fail
  else if server.lpLength encoded / tupleLen = 0 then return none
  else return some (make encoded)

def rdbLoadIntset : Reader UInt8 (Option Contents) := do
  let encoded ← rdbGenericLoadStringObject server.toLoadServer
  if !server.intsetValidateIntegrity encoded (deepIntegrityValidation server) then fail
  else return some (.setIntset encoded)

end Model

end Redis
