import DoubleSwap.Redis.AcceptedFiles
import DoubleSwap.Redis.AcceptedObjects

/-! The results about whole dumps, and about what the loader accepts. -/
namespace Redis

open Reading Reader

variable {σ : Type}

/-- An object of a type that is still written, loaded with deep validation from
whatever bytes, is well formed. -/
theorem accepted_object_wellFormed {server : ObjectServer} (hServer : server.Sound)
    (hDeep : deepIntegrityValidation server = true) {type : RdbType}
    {source source' : Source UInt8} {v : Value}
    (hLoad : rdbLoadObject server (server.format.type type) source = (some (some v), source')) :
    v.WellFormed server :=
  yields_rdbLoadObject hServer hDeep type _ _ _ hLoad v rfl

section Files

variable {server : FileServer} {rio : Rio σ} {flags : LoadFlags} {ctx : DumpContext}
  {req : DumpRequest} {libraries : List Bytes}

/-- A dump that was saved, with other data after it as in an append-only file, is
loaded: the keys but for those that have expired, the libraries, the data of the
modules, and the state of the replication if it is asked for. -/
theorem saved_dump_loads (hServer : server.Sound) (hCtx : ctx.Valid server flags libraries)
    (hFeed : flags.feedRepl = true → server.replBacklog = true)
    {dbs : List RedisDb} (hDbs : DbsValid server dbs)
    (hRepl : ∀ db, req.replStreamDb = some db →
      (-2 ^ 31 ≤ db ∧ db < 2 ^ 31) ∧ strtoll (server.ll2string db) = db ∧
        ctx.replid.length = replIdSize ∧
        strtoll (server.ll2string ctx.masterReplOffset) = ctx.masterReplOffset)
    {st st' : DumpState σ} (hFresh : st.channel.writes = [])
    (hSave : rdbSaveFile server rio ctx req dbs st = (true, st'))
    (rsi : Option SaveInfo) (rest : Bytes) :
    ∃ loaded, rdbLoadRio server flags (Loading.start [] [] rsi) ⟨[], st'.file ++ rest, false⟩ =
        (some loaded, ⟨st'.file, rest, false⟩) ∧
      loaded.keys = dumpKeys server flags req dbs ∧
      loaded.functions = (if req.excludeFunctions then [] else libraries) ∧
      loaded.moduleAux = dumpModules ctx req ∧ loaded.rsi = replicationOf ctx req rsi :=
  ⟨_, rdbLoadRio_rdbSaveFile hServer hCtx hFeed hDbs rfl rfl rfl hFresh hSave rest,
    afterDump_start dbs rsi hRepl⟩

/-- A dump that lost its end, be it a single byte, is refused. -/
theorem cut_dump_refused (hServer : server.Sound) (hCtx : ctx.Valid server flags libraries)
    (hFeed : flags.feedRepl = true → server.replBacklog = true)
    {dbs : List RedisDb} (hDbs : DbsValid server dbs)
    {st st' : DumpState σ} (hFresh : st.channel.writes = [])
    (hSave : rdbSaveFile server rio ctx req dbs st = (true, st'))
    {kept lost : Bytes} (hFile : st'.file = kept ++ lost) (hLost : lost ≠ [])
    (rsi : Option SaveInfo) :
    (rdbLoadRio server flags (Loading.start [] [] rsi) ⟨[], kept, false⟩).1 = none := by
  have hWhole : rdbLoadRio server flags (Loading.start [] [] rsi) ⟨[], st'.file ++ [], false⟩ =
      (some _, ⟨st'.file, [], false⟩) :=
    rdbLoadRio_rdbSaveFile hServer hCtx hFeed hDbs rfl rfl rfl hFresh hSave []
  rw [List.append_nil, hFile] at hWhole
  exact rdbLoadRio_of_cut hServer hLost hWhole

/-- Whatever a file says, if it is accepted then no key is there twice or outside
of the databases, no key on a master has expired, and all keys were counted. -/
theorem accepted_file_sane (hDbs : 0 < server.dbnum) {functions : List Bytes}
    {rsi : Option SaveInfo} {source : Source UInt8} {ld : Loading}
    (hLoad : (rdbLoadRio server flags (Loading.start [] functions rsi) source).1 = some ld) :
    ld.Sane server flags :=
  sane_of_rdbLoadRio (sane_start hDbs functions rsi) (Prod.ext hLoad rfl)

/-- Where the traces are defined, a dump ends as it would without them, and it is
the same to the last byte. -/
theorem traced_dump_same {dbs : List (RedisDb × (Nat → Int))} {t t' : Traced σ} {ok : Bool}
    (h : rdbSaveFileTraced server rio ctx req dbs t = some (ok, t')) :
    rdbSaveFile server rio ctx req (dbs.map Prod.fst) t.dump = (ok, t'.dump) := by
  rw [rdbSaveFileTraced, rdbSaveRio] at h
  rw [rdbSaveFile]
  dsimp only [Traced.setDump] at h ⊢
  rcases hBefore : saveBefore server rio ctx req t.dump.channel with ⟨_ | n, channel⟩
  · rw [hBefore] at h
    cases h
    rfl
  · rw [hBefore] at h
    dsimp only at h ⊢
    have hMiddle : ∀ {saved : Bool} {start between : Traced σ},
        (if req.excludeData then some (true, start)
          else saveDbs server.toServer rio dbs start) = some (saved, between) →
        (if req.excludeData then (true, start.dump)
          else saveDbsUntraced rio server.toServer (dbs.map Prod.fst) start.dump) =
            (saved, between.dump) := by
      intro saved start between hRun
      split_ifs at hRun ⊢
      · cases hRun
        rfl
      · exact saveDbsUntraced_of_some hRun
    split at h
    · cases h
    next between hRun =>
      have hFailed := hMiddle hRun
      cases h
      dsimp only [Traced.setChannel, Traced.setDump] at hFailed
      rw [hFailed]
    next between hRun =>
      have hSaved := hMiddle hRun
      dsimp only [Traced.setChannel, Traced.setDump] at hSaved
      rw [hSaved]
      rcases hAfter : saveAfter server rio ctx req t.dump.channel.writes.length
        between.dump.channel with ⟨_ | m, last⟩
      · rw [hAfter] at h
        cases h
        simp only [hAfter]
        rfl
      · rw [hAfter] at h
        cases h
        simp only [hAfter]
        rfl

end Files

/-- A server with one library, which its code is the name of, and no module. -/
def dumpServer : FileServer where
  toObjectServer := tableServer
  fileOpcode := fun
    | .expireTime => 253 | .eof => 255 | .aux => 250 | .moduleAux => 247
    | .functionPreGa => 246 | .function2 => 245
  rdbVersion := 12
  moduleOpcodeUint := 2
  dbnum := 16
  iAmMaster := true
  now := 1000
  replBacklog := false
  rdbChecksum := false
  skipChecksumValidation := false
  crc64 := fun _ => 0
  auxLoad := fun _ => none
  createLibrary := fun allowDup libraries code =>
    if !allowDup && libraries.contains code then none else some (libraries ++ [code])

/-- The code of an opcode or a type, from its byte. -/
def dumpCode (byte : UInt8) : Option Code :=
  [Code.opcode .selectDb, .opcode .resizeDb, .opcode .slotInfo, .opcode .expireTimeMs,
    .opcode .idle, .opcode .freq, .file .expireTime, .file .eof, .file .aux, .file .moduleAux,
    .file .functionPreGa, .file .function2, .type .string, .type .listQuicklist2,
    .type .setIntset, .type .set, .type .setListpack, .type .zsetListpack, .type .zset2,
    .type .hashListpack, .type .hashListpackEx, .type .hash, .type .hashMetadata,
    .type .streamListpacks3, .type .module2].find? fun code => dumpServer.code code = byte

/-- The codes differ, since each is found again by its byte. -/
theorem dumpServer_sound : dumpServer.Sound where
  object := tableServer_sound
  sequential :=
    { object := fun _ => sequential_fail
      auxLoad := fun _ _ h => by cases h }
  code_injective := by
    have hCode : ∀ code, dumpCode (dumpServer.code code) = some code := by
      rintro (o | o | t)
      · cases o <;> decide
      · cases o <;> decide
      · cases t <;> decide
    intro a b h
    have hBoth := hCode b
    rw [← h, hCode a] at hBoth
    exact Option.some.inj hBoth
  version_ge := by decide
  version_lt := by decide
  moduleOpcodeUint_lt := by decide

/-- The context of a dump of that server. -/
def dumpContext : DumpContext where
  redisVersion := ascii "7.4"
  redisBits := 64
  time := 0
  usedMemory := 0
  replid := List.replicate 40 97
  masterReplOffset := 0
  functions := [[108]]
  whence := fun _ => 1
  modulesAux := fun _ => []

theorem dumpContext_valid (flags : LoadFlags) : dumpContext.Valid dumpServer flags [[108]] where
  redisVersion := by decide
  replid := by decide
  whence := fun _ => show 1 < 2 ^ 31 by decide
  modules := fun _ _ h => absurd h List.not_mem_nil
  functions := by decide
  libraries := by
    cases hDup : flags.allowDup <;> rfl

/-- All that is asked for, without replication. -/
def dumpRequest : DumpRequest := ⟨false, false, false, none⟩

/-- A set, a number that has expired, and a hash of which one field will expire. -/
def dumpDb : RedisDb where
  dbid := 3
  entries :=
    [⟨0, ⟨4096, [97], by decide⟩, .other 8192 (.set [[118, 119], [120]]), none, 0, 0⟩,
      ⟨0, ⟨4112, [98], by decide⟩, .string (.int 42), some 500, 0, 0⟩,
      ⟨0, ⟨4128, [99], by decide⟩,
        .other 8208 (.hash (some 5000) [⟨[102], some 5000, [118]⟩, ⟨[103], none, [119]⟩]),
        some 2000, 0, 0⟩]

/-- Every key of this database can be saved and loaded. -/
theorem dumpDb_valid : ∀ de ∈ dumpDb.entries, de.Valid dumpServer.toObjectServer := by
  intro de hDe
  simp only [dumpDb, List.mem_cons, List.not_mem_nil, or_false] at hDe
  rcases hDe with rfl | rfl | rfl
  · exact ⟨⟨by decide, by decide, by decide, by decide⟩, rfl, by decide, by decide, by decide,
      by decide⟩
  · exact ⟨trivial, trivial, by decide, by decide, by decide, by decide⟩
  · refine ⟨⟨⟨by decide, by decide, by decide, by decide, ?_⟩, by decide⟩, ?_, by decide, by decide,
      by decide, by decide⟩
    · intro f hf t ht
      simp only [List.mem_cons, List.not_mem_nil, or_false] at hf
      rcases hf with rfl | rfl
      · obtain rfl := Option.some.inj ht
        decide
      · cases ht
    · exact fun len hLen => decide_eq_true (show len < 2 ^ 40 from hLen.trans_lt (by decide))

theorem dumpDbs_valid : DbsValid dumpServer [dumpDb] where
  valid db hDb := by
    obtain rfl := List.mem_singleton.mp hDb
    exact ⟨by decide, by decide, by decide, dumpDb_valid, by decide⟩
  dbids_nodup := by decide

/-- The save of this database. -/
def dumpRun : Bool × DumpState UInt64 :=
  rdbSaveFile dumpServer openRio dumpContext dumpRequest [dumpDb] freshDump.dump

/-- No write fails, and the file has 143 bytes. -/
theorem dumpRun_saves : ∃ st, dumpRun = (true, st) ∧ st.file.length = 143 := by
  have hRun : (dumpRun.1, dumpRun.2.file.length) = (true, 143) := by decide +kernel
  generalize dumpRun = run at hRun
  obtain ⟨ok, st⟩ := run
  obtain ⟨rfl, hLength⟩ := Prod.mk.inj hRun
  exact ⟨st, rfl, hLength⟩

theorem dumpRun_loads : ∃ st, dumpRun = (true, st) ∧
    ∃ loaded, rdbLoadRio dumpServer ⟨false, false, false⟩ (Loading.start [] [] none)
        ⟨[], st.file ++ [36], false⟩ = (some loaded, ⟨st.file, [36], false⟩) ∧
      loaded.keys =
        [⟨3, [97], .other (.set [[118, 119], [120]]), -1, -1, -1⟩,
          ⟨3, [99], .other (.hash (some 5000)
            [⟨[102], some 5000, [118]⟩, ⟨[103], none, [119]⟩]), 2000, -1, -1⟩] ∧
      loaded.functions = [[108]] ∧ loaded.moduleAux = [] ∧ loaded.rsi = none := by
  obtain ⟨st, hRun, _⟩ := dumpRun_saves
  exact ⟨st, hRun, saved_dump_loads dumpServer_sound (dumpContext_valid _) (fun h => by cases h)
    dumpDbs_valid (fun _ h => by cases h) rfl hRun none [36]⟩

theorem dumpRun_cut : ∃ st, dumpRun = (true, st) ∧
    (rdbLoadRio dumpServer ⟨false, false, false⟩ (Loading.start [] [] none)
      ⟨[], st.file.dropLast, false⟩).1 = none := by
  obtain ⟨st, hRun, hLength⟩ := dumpRun_saves
  have hSome : st.file ≠ [] := List.ne_nil_of_length_pos (by omega)
  exact ⟨st, hRun, cut_dump_refused dumpServer_sound (dumpContext_valid _) (fun h => by cases h)
    dumpDbs_valid rfl hRun (List.dropLast_append_getLast hSome).symm (List.cons_ne_nil _ _) none⟩

/-- Two strings that are held as such, the second of which has expired. -/
def stringsDb : RedisDb where
  dbid := 3
  entries :=
    [⟨0, ⟨4096, [97], by decide⟩, .string (.sds ⟨8192, [118, 119], by decide⟩), none, 0, 0⟩,
      ⟨0, ⟨4112, [98], by decide⟩, .string (.sds ⟨8208, [120], by decide⟩), some 500, 0, 0⟩]

theorem stringsDb_same : ∃ t, rdbSaveFileTraced dumpServer openRio dumpContext dumpRequest
      [(stringsDb, fun _ => 0)] freshDump = some (true, t) ∧ t.guestLog.length = 8 ∧
    rdbSaveFile dumpServer openRio dumpContext dumpRequest [stringsDb] freshDump.dump =
      (true, t.dump) := by
  have hRun : (rdbSaveFileTraced dumpServer openRio dumpContext dumpRequest
      [(stringsDb, fun _ => 0)] freshDump).map
        (fun result => (result.1, result.2.guestLog.length)) =
        some (true, 8) := by
    decide +kernel
  obtain ⟨⟨ok, t⟩, hSome, hResult⟩ := Option.map_eq_some_iff.mp hRun
  obtain rfl : ok = true := congrArg Prod.fst hResult
  have hSame := traced_dump_same hSome
  exact ⟨t, hSome, congrArg Prod.snd hResult, hSame⟩

/-- A file that no server has saved: it names a database but has no other opcode. -/
def handWritten : Bytes :=
  [82, 69, 68, 73, 83, 48, 48, 48, 51, 254, 5, 0, 1, 97, 192, 42, 0, 1, 98, 1, 99, 255]

theorem handWritten_sane : Loading.Sane dumpServer ⟨false, false, false⟩
    { Loading.start [] [] none with
      dbid := 5
      keys := [⟨5, [97], .string [52, 50], -1, -1, -1⟩, ⟨5, [98], .string [99], -1, -1, -1⟩]
      keysLoaded := 2 } :=
  have hLoad : (rdbLoadRio dumpServer ⟨false, false, false⟩ (Loading.start [] [] none)
      ⟨[], handWritten, false⟩).1 = some _ := by decide +kernel
  accepted_file_sane (by decide) hLoad

/-- A hash with the time of a field, relative to the least one. -/
theorem loadedHash_wellFormed : Value.WellFormed tableServer
    (.other (.hash (some 5000) [⟨[102], some 5000, [118]⟩, ⟨[103], none, [119, 120]⟩])) := by
  have hLoad : rdbLoadObject tableServer (tableServer.format.type .hashMetadata)
      ⟨[], [136, 19, 0, 0, 0, 0, 0, 0, 2, 1, 1, 102, 1, 118, 0, 1, 103, 2, 119, 120], false⟩ =
      (some (some (.other (.hash (some 5000)
        [⟨[102], some 5000, [118]⟩, ⟨[103], none, [119, 120]⟩]))),
        ⟨[136, 19, 0, 0, 0, 0, 0, 0, 2, 1, 1, 102, 1, 118, 0, 1, 103, 2, 119, 120], [],
          false⟩) := by
    decide +kernel
  exact accepted_object_wellFormed tableServer_sound rfl hLoad

end Redis
