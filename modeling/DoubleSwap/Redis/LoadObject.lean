import DoubleSwap.Redis.LoadOlder

/-! `rdbLoadObject`. The encodings of a loaded object that depend on the
configured limits hold the same elements and are not told apart. -/
namespace Redis

open Reading Reader

variable (server : ObjectServer)

/-- The value, or nothing for an empty key. The reader gives up where the
function reports another error. -/
def rdbLoadObject (rdbtype : UInt8) : Reader UInt8 (Option Value) :=
  let type := server.format.type
  if rdbtype = type .string then do
    let s ← rdbGenericLoadStringObject server.toLoadServer
    return some (.string s)
  else if rdbtype = type .set then asContents .set (rdbLoadSet server)
  else if rdbtype = type .zset2 then
    asContents .zsetSkiplist (rdbLoadZset server rdbLoadBinaryDoubleValue)
  else if rdbtype = type .hash then
    asContents (fun fields => .hash (minExpireOf fields) fields) (rdbLoadHash server .none)
  else if rdbtype = type .hashMetadata then do
    let minExpire ← rdbLoadMillisecondTime
    giveUpIfFailed
    asContents (fun fields => .hash (minExpireOf fields) fields)
      (rdbLoadHash server (.relative (minExpire % 2 ^ 64).toNat))
  else if rdbtype = type .listQuicklist2 then
    asList (rdbLoadCounted server (rdbLoadQuicklistNode server) [])
  else if rdbtype = type .setIntset then asContents id (rdbLoadIntset server)
  else if rdbtype = type .setListpack then asContents id (rdbLoadListpack server 1 .setListpack)
  else if rdbtype = type .zsetListpack then asContents id (rdbLoadListpack server 2 .zsetListpack)
  else if rdbtype = type .hashListpack then asContents id (rdbLoadListpack server 2 .hashListpack)
  else if rdbtype = type .hashListpackEx then do
    let _ ← rdbLoadMillisecondTime
    giveUpIfFailed
    asContents id (rdbLoadListpack server 3 fun lp =>
      .hashListpackEx (server.listpackExGetMinExpire lp) lp)
  else if rdbtype = type .streamListpacks3 then do
    let s ← rdbLoadStream server 3
    return some (.other (.stream s))
  else if rdbtype = type .module2 then do
    let mv ← rdbLoadModule server
    return some (.other (.module mv))
  else rdbLoadOlderType server rdbtype

end Redis
