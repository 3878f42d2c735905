import DoubleSwap.Redis.LoadStream

/-! The types that older versions have written. -/
namespace Redis

open Reading Reader

section Model

variable (server : ObjectServer)

/-- What a reader of contents gives for the key. -/
def asContents {α : Type} (make : α → Contents) (r : Reader UInt8 (Option α)) :
    Reader UInt8 (Option Value) := do
  let result ← r
  return result.map fun a => .other (make a)

/-- A list, which is an empty key if no node is left of it. -/
def asList (r : Reader UInt8 (Option (List QuicklistNode))) : Reader UInt8 (Option Value) := do
  match ← r with
  | none | some [] => return none
  | some nodes => return some (.other (.quicklist nodes))

def rdbLoadDoubleValue : Reader UInt8 UInt64 := do
  match ← demand 1 with
  | [255] => return 0xFFF0000000000000
  | [254] => return 0x7FF0000000000000
  | [253] => return 0x7FF8000000000000
  | len =>
      let buf ← demand (ofLittleEndian len)
      match server.sscanfDouble buf with
      | none => fail
      | some val => return val

def rdbLoadListElement (nodes : List QuicklistNode) : Reader UInt8 (List QuicklistNode) := do
  let ele ← rdbGenericLoadStringObject server.toLoadServer
  return server.quicklistPushTail nodes ele

/-- A node that was a ziplist. Such a node is skipped if it is empty. -/
def rdbLoadZiplistNode (nodes : List QuicklistNode) : Reader UInt8 (List QuicklistNode) := do
  let data ← rdbGenericLoadStringObject server.toLoadServer
  if data.length = 0 then fail
  else
    match server.ziplistEntries data with
    | none => fail
    | some entries =>
        let lp := server.lpOf entries
        if server.lpLength lp = 0 then return nodes
        else return nodes ++ [.raw server.format.containerPacked lp]

def rdbLoadListZiplist : Reader UInt8 (Option (List QuicklistNode)) := do
  let encoded ← rdbGenericLoadStringObject server.toLoadServer
  match server.ziplistEntries encoded with
  | none => fail
  | some entries => return some (entries.foldl server.quicklistPushTail [])

/-- A field of a zipmap goes to the end of a listpack. -/
def addZipmapField (fields : List (Bytes × Bytes)) (f : Bytes × Bytes) :
    Option (List (Bytes × Bytes)) :=
  if !server.canAllocate f.1.length ∨ f.1 ∈ fields.map Prod.fst ∨
      !server.lpSafeToAdd (some (fields.flatMap fun f => [f.1, f.2])) (f.1.length + f.2.length) then
    none
  else some (fields ++ [f])

/-- A zipmap may be empty. -/
def rdbLoadZipmap : Reader UInt8 (Option Contents) := do
  let encoded ← rdbGenericLoadStringObject server.toLoadServer
  match (server.zipmapFields encoded).bind fun fields =>
      fields.foldlM (addZipmapField server) [] with
  | none => fail
  | some fields => return some (.hashListpack (server.lpOf (fields.flatMap fun f => [f.1, f.2])))

/-- The entries with an even number are the fields, none of which may be there
twice, and there must be as many values. -/
def ziplistPairsConvertAndValidateIntegrity (zl : Bytes) : Option Bytes :=
  match server.ziplistEntries zl with
  | none => none
  | some entries =>
      let fields := (entries.zipIdx.filter fun entry => entry.2 % 2 = 0).map Prod.fst
      if fields.Nodup ∧ entries.length % 2 = 0 then some (server.lpOf entries) else none

def rdbLoadZiplistPairs (make : Bytes → Contents) : Reader UInt8 (Option Contents) := do
  let encoded ← rdbGenericLoadStringObject server.toLoadServer
  match ziplistPairsConvertAndValidateIntegrity server encoded with
  | none => fail
  | some lp => if server.lpLength lp / 2 = 0 then return none else return some (make lp)

def rdbLoadOlderType (rdbtype : UInt8) : Reader UInt8 (Option Value) :=
  let type := server.olderType
  if rdbtype = type .list then
    asContents .quicklist (rdbLoadCounted server (rdbLoadListElement server) [])
  else if rdbtype = type .zset then
    asContents .zsetSkiplist (rdbLoadZset server (rdbLoadDoubleValue server))
  else if rdbtype = type .hashMetadataPreGa then
    asContents (fun fields => .hash (minExpireOf fields) fields) (rdbLoadHash server .absolute)
  else if rdbtype = type .listQuicklist then
    asList (rdbLoadCounted server (rdbLoadZiplistNode server) [])
  else if rdbtype = type .hashZipmap then asContents id (rdbLoadZipmap server)
  else if rdbtype = type .listZiplist then asList (rdbLoadListZiplist server)
  else if rdbtype = type .zsetZiplist then
    asContents id (rdbLoadZiplistPairs server .zsetListpack)
  else if rdbtype = type .hashZiplist then
    asContents id (rdbLoadZiplistPairs server .hashListpack)
  else if rdbtype = type .hashListpackExPreGa then
    asContents id (rdbLoadListpack server 3 fun lp =>
      .hashListpackEx (server.listpackExGetMinExpire lp) lp)
  else if rdbtype = type .streamListpacks then do
    let s ← rdbLoadStream server 1
    return some (.other (.stream s))
  else if rdbtype = type .streamListpacks2 then do
    let s ← rdbLoadStream server 2
    return some (.other (.stream s))
  else fail

end Model

end Redis
