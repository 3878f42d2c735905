import DoubleSwap.Redis.LoadCollections

/-! Streams, as three versions have stored them, and the values of modules. -/
namespace Redis

open Reading Reader

section Model

variable (server : ObjectServer)

def rdbLoadStreamID : Reader UInt8 StreamID := do
  let ms ← rdbLoadPlainLen server.toLoadServer
  let seq ← rdbLoadPlainLen server.toLoadServer
  return ⟨ms, seq⟩

/-- A node of the radix tree under its master ID. -/
def rdbLoadStreamNode (nodes : List (Bytes × Bytes)) : Reader UInt8 (List (Bytes × Bytes)) := do
  let nodekey ← rdbGenericLoadStringObject server.toLoadServer
  if nodekey.length ≠ 16 then fail
  else
    let lp ← rdbGenericLoadStringObject server.toLoadServer
    if !server.streamValidateListpackIntegrity lp (deepIntegrityValidation server) then fail
    else if !server.lpHasFirst lp then fail
    else if nodekey ∈ nodes.map Prod.fst then fail
    else return nodes ++ [(nodekey, lp)]

/-- An entry of the pending list of a group, still without its consumer. -/
def rdbLoadStreamNack (pel : List StreamNack) : Reader UInt8 (List StreamNack) := do
  let rawid ← demand 16
  let deliveryTime ← rdbLoadMillisecondTime
  let deliveryCount ← rdbLoadPlainLen server.toLoadServer
  giveUpIfFailed
  if rawid ∈ pel.map StreamNack.id then fail
  else return pel ++ [⟨rawid, deliveryTime, deliveryCount⟩]

/-- An entry of the pending list of a consumer, which is one of the group's. -/
def rdbLoadConsumerNack (group pel : List StreamNack) : Reader UInt8 (List StreamNack) := do
  let rawid ← demand 16
  match group.find? fun nack => nack.id = rawid with
  | none => fail
  | some nack => if rawid ∈ pel.map StreamNack.id then fail else return pel ++ [nack]

/-- Versions before the third know one time of a consumer. -/
def rdbLoadActiveTime (version : Nat) (seenTime : Int) : Reader UInt8 Int :=
  if 3 ≤ version then do
    let activeTime ← rdbLoadMillisecondTime
    giveUpIfFailed
    return activeTime
  else return seenTime

def rdbLoadStreamConsumer (version : Nat) (group : List StreamNack)
    (consumers : List StreamConsumer) : Reader UInt8 (List StreamConsumer) := do
  let name ← rdbGenericLoadStringObject server.toLoadServer
  if name ∈ consumers.map StreamConsumer.name then fail
  else
    let seenTime ← rdbLoadMillisecondTime
    giveUpIfFailed
    let activeTime ← rdbLoadActiveTime version seenTime
    let pelSize ← rdbDemandLen server.toLoadServer
    let pel ← repeatFrom (rdbLoadConsumerNack group) pelSize []
    return consumers ++ [⟨name, seenTime, activeTime, pel⟩]

/-- The first version does not know how many entries a group has read. -/
def rdbLoadOffset (version : Nat) (s : StreamObject) (lastId : StreamID) : Reader UInt8 Int :=
  if 2 ≤ version then do
    let offset ← rdbLoadPlainLen server.toLoadServer
    giveUpIfFailed
    return signed 8 offset
  else return server.streamEstimateDistanceFromFirstEverEntry s lastId

/-- A consumer group of a stream. With deep validation every pending entry must
have found a consumer. -/
def rdbLoadStreamCG (version : Nat) (s : StreamObject) (cgroups : List StreamCG) :
    Reader UInt8 (List StreamCG) := do
  let name ← rdbGenericLoadStringObject server.toLoadServer
  let lastId ← rdbLoadStreamID server
  giveUpIfFailed
  let offset ← rdbLoadOffset server version s lastId
  if name ∈ cgroups.map StreamCG.name then fail
  else
    let pelSize ← rdbDemandLen server.toLoadServer
    let pel ← repeatFrom (rdbLoadStreamNack server) pelSize []
    let consumersNum ← rdbDemandLen server.toLoadServer
    let consumers ← repeatFrom (rdbLoadStreamConsumer server version pel) consumersNum []
    if deepIntegrityValidation server ∧
        ¬ ∀ nack ∈ pel, ∃ consumer ∈ consumers, nack.id ∈ consumer.pel.map StreamNack.id then
      fail
    else return cgroups ++ [⟨name, lastId, offset, pel, consumers⟩]

/-- The stream without its groups. The first version does not store where it
begins and what was deleted. -/
def rdbLoadStreamMetadata (version : Nat) (listpacks : List (Bytes × Bytes)) :
    Reader UInt8 StreamObject := do
  let length ← rdbLoadPlainLen server.toLoadServer
  let lastId ← rdbLoadStreamID server
  if 2 ≤ version then
    let firstId ← rdbLoadStreamID server
    let maxDeletedEntryId ← rdbLoadStreamID server
    let entriesAdded ← rdbLoadPlainLen server.toLoadServer
    return ⟨listpacks, length, lastId, firstId, maxDeletedEntryId, entriesAdded, []⟩
  else return ⟨listpacks, length, lastId, server.streamGetEdgeID listpacks, ⟨0, 0⟩, length, []⟩

def rdbLoadStream (version : Nat) : Reader UInt8 StreamObject := do
  let nodeCount ← rdbDemandLen server.toLoadServer
  let listpacks ← repeatFrom (rdbLoadStreamNode server) nodeCount []
  let s ← rdbLoadStreamMetadata server version listpacks
  giveUpIfFailed
  if s.length ≠ 0 ∧ s.listpacks.length = 0 then fail
  else
    let cgroupsCount ← rdbDemandLen server.toLoadServer
    let cgroups ← repeatFrom (rdbLoadStreamCG server version s) cgroupsCount []
    return { s with cgroups := cgroups }

/-- A module's value and the mark at its end. -/
def rdbLoadModule : Reader UInt8 ModuleValue := do
  let moduleid ← rdbLoadPlainLen server.toLoadServer
  giveUpIfFailed
  if !server.moduleTypeLookupModuleByID moduleid then fail
  else
    let ptr ← server.rdbLoad moduleid
    let eof ← rdbDemandLen server.toLoadServer
    if eof ≠ server.format.moduleOpcodeEof then fail
    else
      match ptr with
      | none => fail
      | some mv => return mv

end Model

end Redis
