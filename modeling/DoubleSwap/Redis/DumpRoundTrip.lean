import DoubleSwap.Redis.LoadDatabases

/-! What `rdbSaveRio` has saved, `rdbLoadRio` loads. -/
namespace Redis

open Reading Reader

variable {σ : Type} {server : FileServer} {rio : Rio σ} {flags : LoadFlags} {ld : Loading}

/-- What auxiliary fields make of a state. -/
def Loading.withAux (ld : Loading) (fields : List (Bytes × Bytes)) : Loading :=
  fields.foldl (fun ld field => ld.addAux field.1 field.2) ld

section Frame

variable (hServer : server.Sound) {ctx : DumpContext} {req : DumpRequest}

include hServer

/-- The auxiliary fields, which the loader takes note of. -/
theorem loadsOn_auxField {field : Bytes × Bytes} (hKey : field.1.length < lenErr)
    (hVal : field.2.length < lenErr) :
    LoadsOn server flags (rdbSaveAuxField server rio field) ld (ld.addAux field.1 field.2) := by
  refine loadsOn_code hServer fun aux => ?_
  rw [typed_file hServer]
  have hString : ∀ s : Bytes, s.length < lenErr → LoadsBack (rdbSaveRawString server.toServer rio s)
      (rdbGenericLoadStringObject server.toLoadServer) s := fun s =>
    loadsBack_rawString hServer.object.load
  have hField : LoadsBack
      (rdbSaveRawString server.toServer rio field.1 >>= fun key =>
        rdbSaveRawString server.toServer rio field.2 >>= fun val => pure (aux + key + val))
      (rdbLoadAuxField server ld) (ld.addAux field.1 field.2) := by
    refine (hString field.1 hKey).bind fun key => LoadsBack.counted ?_ fun val => aux + key + val
    exact (hString field.2 hVal).then_pure rfl
  exact hField.then_pure rfl

/-- The fields about the server, one after the other. -/
theorem loadsOn_auxFields {fields : List (Bytes × Bytes)}
    (hFields : ∀ field ∈ fields, field.1.length < lenErr ∧ field.2.length < lenErr) :
    LoadsOn server flags (Save.each (rdbSaveAuxField server rio) fields) ld
      (ld.withAux fields) := by
  have hEach : LoadsOn server flags (Save.each (rdbSaveAuxField server rio) fields)
      (ld.withAux []) (ld.withAux ([] ++ fields)) := by
    refine loadsOn_each ld.withAux [] fields fun done field rest hSplit => ?_
    obtain ⟨hKey, hVal⟩ := hFields field (mem_of_split hSplit)
    have hStep : ld.withAux (done ++ [field]) = (ld.withAux done).addAux field.1 field.2 :=
      List.foldl_append
    rw [hStep]
    exact loadsOn_auxField hServer hKey hVal
  exact hEach

/-- The libraries, each of which can be created after those before it. -/
theorem loadsOn_functions {functions libraries : List Bytes}
    (hLen : ∀ code ∈ functions, code.length < lenErr)
    (hLibraries : functions.foldlM (server.createLibrary flags.allowDup) ld.functions =
      some libraries) :
    LoadsOn server flags
      (Save.each (fun code => do
        let type ← rdbSaveType rio (server.fileOpcode .function2)
        let n ← rdbSaveRawString server.toServer rio code
        return type + n) functions)
      ld { ld with functions := libraries } := by
  induction functions generalizing ld with
  | nil =>
      obtain rfl := Option.some.inj hLibraries
      exact loadsOn_pure 0
  | cons code functions ih =>
      obtain ⟨next, hNext, hRest⟩ := Option.bind_eq_some_iff.mp hLibraries
      have hCode : LoadsOn server flags
          (rdbSaveType rio (server.fileOpcode .function2) >>= fun type =>
            rdbSaveRawString server.toServer rio code >>= fun n => pure (type + n))
          ld { ld with functions := next } := by
        refine loadsOn_code hServer fun type => ?_
        rw [typed_file hServer]
        have hLoad : LoadsBack
            (rdbSaveRawString server.toServer rio code >>= fun n => pure (type + n))
            (rdbFunctionLoad server flags ld) { ld with functions := next } := by
          refine LoadsBack.counted ((loadsBack_rawString hServer.object.load
            (hLen code List.mem_cons_self)).then_pure ?_) fun n => type + n
          rw [hNext]
        exact hLoad.then_pure rfl
      refine hCode.bind fun n => LoadsOn.counted ?_ fun rest => n + rest
      exact ih (fun code' hMem => hLen code' (List.mem_cons_of_mem code hMem)) hRest

end Frame

/-- A module that reads the auxiliary data that it has written. -/
structure AuxValid (server : FileServer) (whence : Nat) (mt : ModuleAux) : Prop where
  id_lt : mt.id < 2 ^ 64
  known : server.moduleTypeLookupModuleByID mt.id = true
  reads : ∃ auxLoad, server.auxLoad mt.id = some auxLoad ∧
    Reads (auxLoad whence) mt.saves.flatten (some mt)

/-- What `aux_save2` leaves out. -/
def ModuleAux.Skipped (mt : ModuleAux) : Prop := mt.lazy = true ∧ mt.saves = []

instance : DecidablePred ModuleAux.Skipped := fun _ => by
  unfold ModuleAux.Skipped
  infer_instance

def Loading.withModules (ld : Loading) (modules : List ModuleAux) : Loading :=
  { ld with moduleAux := ld.moduleAux ++ modules.filter fun mt => ¬ mt.Skipped }

/-- To a buffer in memory no write fails. -/
theorem rdbSaveLen_buffer (server : Server) (len : Nat) (channel : Channel Unit) :
    ∃ n channel', rdbSaveLen server bufferRio len channel = (some n, channel') := by
  rw [rdbSaveLen]
  split_ifs <;> exact ⟨_, _, rfl⟩

/-- The writes of a callback and the mark at their end. -/
theorem withEndMark_eq_some {server : FileServer} {callback : Save σ Nat}
    {channel channel' : Channel σ} {n : Nat}
    (h : withEndMark server rio callback channel = (some n, channel')) :
    ∃ written between eof, callback channel = (some written, between) ∧
      rdbSaveLen server.toServer rio server.format.moduleOpcodeEof between =
        (some eof, channel') := by
  rw [withEndMark] at h
  rcases hCallback : callback channel with ⟨_ | written, between⟩
  · simp only [hCallback] at h
    cases h
  · simp only [hCallback] at h
    obtain ⟨eof, last, hEof, hPure⟩ := Save.bind_eq_some.mp h
    obtain rfl : last = channel' := congrArg Prod.snd hPure
    exact ⟨written, between, eof, rfl, hEof⟩

/-- Whether the header is written first or with the first of the module's own
writes, it comes before them. -/
theorem rdbSaveSingleModuleAux_eq_some {server : FileServer} {whence n : Nat} {mt : ModuleAux}
    {channel channel' : Channel σ} (hWritten : ¬ mt.Skipped)
    (h : rdbSaveSingleModuleAux server rio whence mt channel = (some n, channel')) :
    ∃ between eof, between.writes.flatten =
        channel.writes.flatten ++ (auxHeader server whence mt ++ mt.saves.flatten) ∧
      rdbSaveLen server.toServer rio server.format.moduleOpcodeEof between =
        (some eof, channel') := by
  rw [rdbSaveSingleModuleAux] at h
  split_ifs at h with hLazy hEmpty
  · exact absurd ⟨hLazy, hEmpty⟩ hWritten
  · obtain ⟨written, between, eof, hEach, hEof⟩ := withEndMark_eq_some h
    refine ⟨between, eof, ?_, hEof⟩
    rw [flatten_writes_each hEach, List.flatten_cons]
  · obtain ⟨header, first, hHeader, hRest⟩ := Save.bind_eq_some.mp h
    obtain ⟨rest, last, hMark, hPure⟩ := Save.bind_eq_some.mp hRest
    obtain rfl : last = channel' := congrArg Prod.snd hPure
    obtain ⟨written, between, eof, hEach, hEof⟩ := withEndMark_eq_some hMark
    have hWrites : (rdbWriteRaw rio (auxHeader server whence mt) channel).2.writes =
        channel.writes ++ [auxHeader server whence mt] := rfl
    rw [hHeader] at hWrites
    refine ⟨between, eof, ?_, hEof⟩
    rw [flatten_writes_each hEach, hWrites, List.flatten_append, List.flatten_singleton,
      List.append_assoc]

/-- The header is the code and three numbers. -/
theorem auxHeader_eq (hServer : server.Sound) {whence : Nat} {mt : ModuleAux}
    (hWhence : whence < 2 ^ 31) (hId : mt.id < 2 ^ 64) :
    ∃ id opcode when, auxHeader server whence mt =
        server.fileOpcode .moduleAux :: (id ++ (opcode ++ when)) ∧
      Reads (rdbLoadPlainLen server.toLoadServer) id mt.id ∧
      Reads (rdbLoadPlainLen server.toLoadServer) opcode server.moduleOpcodeUint ∧
      Reads (rdbLoadPlainLen server.toLoadServer) when whence := by
  have hFormat := hServer.object.load.format
  have hUint : server.moduleOpcodeUint < 2 ^ 64 := hServer.moduleOpcodeUint_lt.trans (by decide)
  obtain ⟨n, afterId, hId'⟩ := rdbSaveLen_buffer server.toServer mt.id
    ⟨(), [[server.fileOpcode .moduleAux]]⟩
  obtain ⟨n', afterOpcode, hOpcode'⟩ := rdbSaveLen_buffer server.toServer
    server.moduleOpcodeUint afterId
  obtain ⟨n'', channel, hWhen'⟩ := rdbSaveLen_buffer server.toServer whence afterOpcode
  obtain ⟨id, hIdBytes, hReadsId⟩ := loadsBack_plainLen hFormat hId _ _ _ hId'
  obtain ⟨opcode, hOpcodeBytes, hReadsOpcode⟩ := loadsBack_plainLen hFormat hUint _ _ _ hOpcode'
  obtain ⟨when, hWhenBytes, hReadsWhen⟩ :=
    loadsBack_plainLen hFormat (hWhence.trans (by decide)) _ _ _ hWhen'
  have hSave : saveAuxHeader server whence mt ⟨(), []⟩ = (some (1 + n + n' + n''), channel) :=
    Save.bind_eq_some.mpr ⟨1, _, rfl, Save.bind_eq_some.mpr ⟨n, afterId, hId',
      Save.bind_eq_some.mpr ⟨n', afterOpcode, hOpcode',
        Save.bind_eq_some.mpr ⟨n'', channel, hWhen', rfl⟩⟩⟩⟩
  refine ⟨id, opcode, when, ?_, hReadsId, hReadsOpcode, hReadsWhen⟩
  rw [auxHeader, hSave, hWhenBytes, hOpcodeBytes, hIdBytes, List.append_assoc, List.append_assoc]
  rfl

/-- A number that fits is the same as an `int`. -/
theorem asInt_of_lt {n : Nat} (h : n < 2 ^ 31) : asInt n = n := by
  have hMod : ((n : Int) % 2 ^ 32).toNat = n := by omega
  rw [asInt, hMod, signed, if_pos (by omega)]

/-- A module that is known reads its data between the header and the mark. -/
theorem reads_moduleAux (hServer : server.Sound) {whence : Nat} (hWhence : whence < 2 ^ 31)
    {aux : ModuleAux} (hAux : AuxValid server whence aux) {id opcode when mark : Bytes}
    (hId : Reads (rdbLoadPlainLen server.toLoadServer) id aux.id)
    (hOpcode : Reads (rdbLoadPlainLen server.toLoadServer) opcode server.moduleOpcodeUint)
    (hWhen : Reads (rdbLoadPlainLen server.toLoadServer) when whence)
    (hMark : Reads (rdbLoadPlainLen server.toLoadServer) mark server.format.moduleOpcodeEof) :
    Reads (rdbLoadModuleAux server ld) (id ++ (opcode ++ (when ++ (aux.saves.flatten ++ mark))))
      { ld with moduleAux := ld.moduleAux ++ [aux] } := by
  obtain ⟨auxLoad, hLoad, hReads⟩ := hAux.reads
  refine hId.bind (hOpcode.bind (hWhen.bind (reads_giveUpIfFailed ?_)))
  rw [asInt_of_lt hServer.moduleOpcodeUint_lt, asInt_of_lt hWhence, hAux.known, hLoad,
    if_neg (by simp), if_neg (by decide)]
  exact hReads.bind (hMark.then_pure (if_neg (by simp)))

/-- The data of a module, unless they are left out. -/
theorem loadsOn_moduleAux (hServer : server.Sound) {whence : Nat} {mt : ModuleAux}
    (hWhence : whence < 2 ^ 31) (hAux : AuxValid server whence mt) (hWritten : ¬ mt.Skipped) :
    LoadsOn server flags (rdbSaveSingleModuleAux server rio whence mt) ld
      { ld with moduleAux := ld.moduleAux ++ [mt] } := by
  intro channel n channel' h
  obtain ⟨between, eof, hBytes, hEof⟩ := rdbSaveSingleModuleAux_eq_some hWritten h
  obtain ⟨id, opcode, when, hHeader, hId, hOpcode, hWhen⟩ :=
    auxHeader_eq hServer hWhence hAux.id_lt
  have hMarkLt : server.format.moduleOpcodeEof < 2 ^ 64 :=
    hServer.object.moduleOpcodeEof_lt.trans (by decide)
  obtain ⟨mark, hMark, hReadsMark⟩ :=
    loadsBack_plainLen hServer.object.load.format hMarkLt _ _ _ hEof
  have hRound : Reads (rdbLoadOpcode server flags ld)
      ([server.fileOpcode .moduleAux] ++ (id ++ (opcode ++ (when ++ (mt.saves.flatten ++ mark)))))
      (.inl { ld with moduleAux := ld.moduleAux ++ [mt] }) := by
    refine (reads_next (server.fileOpcode .moduleAux)).bind ?_
    dsimp only
    rw [typed_file hServer]
    exact (reads_moduleAux hServer hWhence hAux hId hOpcode hWhen hReadsMark).then_pure rfl
  refine ⟨_, ?_, Advances.of_reads (consumes_opcode hServer.sequential flags) hRound⟩
  rw [hMark, hBytes, hHeader]
  simp

/-- The data of all modules, in their order. -/
theorem loadsOn_modules (hServer : server.Sound) {whence : Nat} {modules : List ModuleAux}
    (hWhence : whence < 2 ^ 31) (hModules : ∀ mt ∈ modules, AuxValid server whence mt) :
    LoadsOn server flags (Save.each (rdbSaveSingleModuleAux server rio whence) modules) ld
      (ld.withModules modules) := by
  have hEach : LoadsOn server flags (Save.each (rdbSaveSingleModuleAux server rio whence) modules)
      (ld.withModules []) (ld.withModules ([] ++ modules)) := by
    refine loadsOn_each ld.withModules [] modules fun done mt rest hSplit => ?_
    have hAux := hModules mt (mem_of_split hSplit)
    by_cases hSkipped : mt.Skipped
    · have hStep : ld.withModules (done ++ [mt]) = ld.withModules done := by
        simp [Loading.withModules, hSkipped]
      have hNothing : rdbSaveSingleModuleAux server rio whence mt = pure 0 := by
        rw [rdbSaveSingleModuleAux, if_pos hSkipped.1, if_pos hSkipped.2]
      rw [hStep, hNothing]
      exact loadsOn_pure 0
    · have hStep : ld.withModules (done ++ [mt]) =
          { ld.withModules done with moduleAux := (ld.withModules done).moduleAux ++ [mt] } := by
        simp [Loading.withModules, hSkipped]
      rw [hStep]
      exact loadsOn_moduleAux hServer hWhence hAux hSkipped
  have hStart : ld.withModules [] = ld := by
    simp [Loading.withModules]
  rwa [hStart] at hEach

/-- What holds of the server that makes a dump, and of the modules and libraries
on the server that loads it. -/
structure DumpContext.Valid (server : FileServer) (flags : LoadFlags) (ctx : DumpContext)
    (libraries : List Bytes) : Prop where
  redisVersion : ctx.redisVersion.length < lenErr
  replid : ctx.replid.length < lenErr
  whence : ∀ time, ctx.whence time < 2 ^ 31
  modules : ∀ time, ∀ mt ∈ ctx.modulesAux time, AuxValid server (ctx.whence time) mt
  functions : ∀ code ∈ ctx.functions, code.length < lenErr
  libraries : ctx.functions.foldlM (server.createLibrary flags.allowDup) [] = some libraries

section Dump

variable {ctx : DumpContext} {req : DumpRequest} {libraries : List Bytes}

/-- The fields about the server are short enough to be read again. -/
theorem length_auxField (hServer : server.Sound) (hCtx : ctx.Valid server flags libraries) :
    ∀ field ∈ infoAuxFields server ctx req, field.1.length < lenErr ∧ field.2.length < lenErr := by
  have hText : ∀ value, (server.ll2string value).length < lenErr := fun value =>
    (hServer.object.load.length_ll2string value).trans (by decide)
  have hName : ∀ s : String, s.toList.length < 2 ^ 32 → (ascii s).length < lenErr := fun s hs => by
    rw [ascii, List.length_map, lenErr]
    omega
  have hRepl : ∀ db, ∀ field ∈ replAuxFields server ctx db,
      field.1.length < lenErr ∧ field.2.length < lenErr := by
    intro db field hField
    simp only [replAuxFields, List.mem_cons, List.not_mem_nil, or_false] at hField
    rcases hField with rfl | rfl | rfl
    · exact ⟨hName "repl-stream-db" (by decide), hText db⟩
    · exact ⟨hName "repl-id" (by decide), hCtx.replid⟩
    · exact ⟨hName "repl-offset" (by decide), hText ctx.masterReplOffset⟩
  intro field hField
  simp only [infoAuxFields, serverAuxFields, List.mem_append, List.mem_cons, List.not_mem_nil,
    or_false] at hField
  rcases hField with ((rfl | rfl | rfl | rfl) | hField) | rfl
  · exact ⟨hName "redis-ver" (by decide), hCtx.redisVersion⟩
  · exact ⟨hName "redis-bits" (by decide), hText ctx.redisBits⟩
  · exact ⟨hName "ctime" (by decide), hText ctx.time⟩
  · exact ⟨hName "used-mem" (by decide), hText ctx.usedMemory⟩
  · cases hDb : req.replStreamDb with
    | none =>
        rw [hDb] at hField
        cases hField
    | some db =>
        rw [hDb] at hField
        exact hRepl db field hField
  · exact ⟨hName "aof-base" (by decide), hText _⟩

/-- A part of the file that was not asked for leaves no trace in the state. -/
theorem LoadsOn.unless {p : Prop} [Decidable p] {save : Save σ Nat} {ld' : Loading}
    (h : LoadsOn server flags save ld ld') :
    LoadsOn server flags (if p then pure 0 else save) ld (if p then ld else ld') := by
  split_ifs
  · exact loadsOn_pure 0
  · exact h

/-- What the loader knows before the databases. -/
def Loading.beforeDbs (server : FileServer) (ctx : DumpContext) (req : DumpRequest)
    (libraries : List Bytes) (ld : Loading) : Loading :=
  let ld := ld.withAux (infoAuxFields server ctx req)
  let ld := if req.excludeData then ld else ld.withModules (ctx.modulesAux .before)
  if req.excludeFunctions then ld else { ld with functions := libraries }

/-- Auxiliary fields are about the replication and the memory only. -/
theorem withAux_eq (ld : Loading) (fields : List (Bytes × Bytes)) :
    ∃ rsi usedMem, ld.withAux fields = { ld with rsi := rsi, loadingRdbUsedMem := usedMem } := by
  induction fields generalizing ld with
  | nil => exact ⟨ld.rsi, ld.loadingRdbUsedMem, rfl⟩
  | cons field fields ih =>
      have hAdd : ∃ rsi usedMem, ld.addAux field.1 field.2 =
          { ld with rsi := rsi, loadingRdbUsedMem := usedMem } := by
        rw [Loading.addAux]
        split_ifs <;> exact ⟨_, _, rfl⟩
      obtain ⟨rsi, usedMem, hFirst⟩ := hAdd
      obtain ⟨rsi', usedMem', hRest⟩ := ih (ld.addAux field.1 field.2)
      refine ⟨rsi', usedMem', ?_⟩
      show (ld.addAux field.1 field.2).withAux fields = _
      rw [hRest, hFirst]

/-- All that comes between the magic and the databases. -/
theorem loadsOn_beforeDbs (hServer : server.Sound) (hCtx : ctx.Valid server flags libraries)
    (hFunctions : ld.functions = []) (n : Nat) :
    LoadsOn server flags
      (rdbSaveInfoAuxFields server rio ctx req >>= fun aux =>
        (if req.excludeData then pure 0 else rdbSaveModulesAux server rio ctx .before) >>=
          fun modules =>
            (if req.excludeFunctions then pure 0 else rdbSaveFunctions server rio ctx) >>=
              fun functions => pure (n + aux + modules + functions))
      ld (ld.beforeDbs server ctx req libraries) := by
  have hNone : (ld.withAux (infoAuxFields server ctx req)).functions = [] := by
    obtain ⟨_, _, hNoted⟩ := withAux_eq ld (infoAuxFields server ctx req)
    rw [hNoted]
    exact hFunctions
  refine (loadsOn_auxFields hServer (length_auxField hServer hCtx)).bind fun aux =>
    (loadsOn_modules hServer (hCtx.whence .before) (hCtx.modules .before)).unless.bind
      fun modules => LoadsOn.counted ?_ fun functions => n + aux + modules + functions
  refine (loadsOn_functions hServer hCtx.functions ?_).unless
  split_ifs
  · rw [hNone]
    exact hCtx.libraries
  · rw [Loading.withModules, hNone]
    exact hCtx.libraries

/-- What the loader knows before the databases, apart from what is noted. -/
theorem beforeDbs_eq (server : FileServer) (ctx : DumpContext) (req : DumpRequest)
    (libraries : List Bytes) (ld : Loading) :
    ∃ usedMem, ld.beforeDbs server ctx req libraries =
      { ld with
        rsi := (ld.withAux (infoAuxFields server ctx req)).rsi
        loadingRdbUsedMem := usedMem
        moduleAux := ld.moduleAux ++ if req.excludeData then [] else
          (ctx.modulesAux .before).filter fun mt => ¬ mt.Skipped
        functions := if req.excludeFunctions then ld.functions else libraries } := by
  obtain ⟨rsi, usedMem, hNoted⟩ := withAux_eq ld (infoAuxFields server ctx req)
  refine ⟨usedMem, ?_⟩
  rw [Loading.beforeDbs, hNoted]
  split_ifs
  · rw [List.append_nil]
  · rfl
  · rw [List.append_nil]
  · rfl

/-- The first key starts without attributes. -/
theorem reset_beforeDbs (hReset : ld.reset = ld) :
    (ld.beforeDbs server ctx req libraries).reset = ld.beforeDbs server ctx req libraries := by
  obtain ⟨usedMem, hBefore⟩ := beforeDbs_eq server ctx req libraries ld
  rw [hBefore, ← hReset]
  rfl

/-- No key is loaded before the databases. -/
theorem keys_beforeDbs : (ld.beforeDbs server ctx req libraries).keys = ld.keys := by
  obtain ⟨usedMem, hBefore⟩ := beforeDbs_eq server ctx req libraries ld
  rw [hBefore]

/-- What is loaded from a dump. -/
def Loading.afterDump (server : FileServer) (flags : LoadFlags) (ctx : DumpContext)
    (req : DumpRequest) (libraries : List Bytes) (dbs : List RedisDb) (ld : Loading) : Loading :=
  let ld := ld.beforeDbs server ctx req libraries
  if req.excludeData then ld else (ld.withDbs server flags dbs).withModules (ctx.modulesAux .after)

/-- The loader takes nine bytes for the magic and the version. -/
theorem length_magic (server : FileServer) : (magic server).length = 9 := rfl

/-- The checksum at the end of what was written is the one that is expected. -/
theorem verifyChecksum_cksum (server : FileServer) (ld : Loading) (dump rest : Bytes) :
    verifyChecksum server ld ⟨dump, littleEndian 8 (cksum server dump).toNat ++ rest, false⟩ =
      (some ld, ⟨dump ++ littleEndian 8 (cksum server dump).toNat, rest, false⟩) := by
  have hDemand := reads_demand (littleEndian 8 (cksum server dump).toNat) dump rest
  rw [length_littleEndian] at hDemand
  have hBack : UInt64.ofNat (ofLittleEndian (littleEndian 8 (cksum server dump).toNat)) =
      cksum server dump := by
    rw [ofLittleEndian_littleEndian (cksum server dump).toNat_lt, UInt64.ofNat_toNat]
  have hPast : ∀ remaining, (past : Reader UInt8 Bytes) ⟨dump, remaining, false⟩ =
      (some dump, ⟨dump, remaining, false⟩) := fun _ => rfl
  rw [verifyChecksum, bind_of_some (hPast _), bind_of_some hDemand, hBack, if_neg]
  · rfl
  · exact fun h => h.2.2.2 rfl

/-- The loader takes the bytes of a saved file, all of them and no more. -/
theorem rdbLoadRio_of_advances (hServer : server.Sound) {ld' : Loading} {bytes : Bytes}
    (h : Advances (rdbLoadOpcode server flags) bytes ld ld') (rest : Bytes) :
    let dump := magic server ++ (bytes ++ [server.fileOpcode .eof])
    let file := dump ++ littleEndian 8 (cksum server dump).toNat
    rdbLoadRio server flags ld ⟨[], file ++ rest, false⟩ = (some ld', ⟨file, rest, false⟩) := by
  intro dump file
  have hEnd : Reads (rdbLoadOpcode server flags ld') [server.fileOpcode .eof] (.inr ld') := by
    refine (reads_next (server.fileOpcode .eof)).then_pure ?_
    dsimp only
    rw [typed_file hServer]
  have hLoop := h _ _ (reads_loop_of_end (consumes_opcode hServer.sequential flags) hEnd)
  have hFile : file ++ rest = magic server ++ ((bytes ++ [server.fileOpcode .eof]) ++
      (littleEndian 8 (cksum server dump).toNat ++ rest)) := by
    simp only [file, dump, List.append_assoc]
  have hMagic := reads_demand (magic server) [] ((bytes ++ [server.fileOpcode .eof]) ++
    (littleEndian 8 (cksum server dump).toNat ++ rest))
  rw [length_magic, List.nil_append] at hMagic
  have hSignature : (magic server).take 5 = ascii "REDIS" := rfl
  have hVersion : atoi ((magic server).drop 5) = server.rdbVersion :=
    atoi_fourDigits hServer.version_lt
  have hLow := hServer.version_ge
  rw [hFile, rdbLoadRio, bind_of_some hMagic, if_neg (not_not_intro hSignature), hVersion,
    if_neg (by omega), bind_of_some (hLoop _ _), if_pos (by omega)]
  exact verifyChecksum_cksum server ld' dump rest

/-- The parts of a dump that was saved. -/
theorem carries_rdbSaveFile (hServer : server.Sound) (hCtx : ctx.Valid server flags libraries)
    (hFeed : flags.feedRepl = true → server.replBacklog = true) {dbs : List RedisDb}
    (hDbs : DbsValid server dbs) (hReset : ld.reset = ld) (hFunctions : ld.functions = [])
    (hKeys : ld.keys = []) {st st' : DumpState σ} (hFresh : st.channel.writes = [])
    (h : rdbSaveFile server rio ctx req dbs st = (true, st')) :
    ∃ bytes, Advances (rdbLoadOpcode server flags) bytes ld
        (ld.afterDump server flags ctx req libraries dbs) ∧
      let dump := magic server ++ (bytes ++ [server.fileOpcode .eof])
      st'.file = dump ++ littleEndian 8 (cksum server dump).toNat := by
  rw [rdbSaveFile] at h
  dsimp only at h
  split at h
  · cases h
  next _ channel hBefore =>
  split at h
  · cases h
  next st₂ hMiddle =>
  split at h
  · cases h
  next _ last hAfter =>
  cases h
  rw [saveBefore_eq] at hBefore
  obtain ⟨_, first, hMagic, hRest⟩ := Save.bind_eq_some.mp hBefore
  have hStart : first.writes.flatten = magic server := by
    rw [flatten_writes hMagic, hFresh]
    rfl
  have hHead : Carries server flags first channel ld (ld.beforeDbs server ctx req libraries) :=
    loadsOn_beforeDbs hServer hCtx hFunctions _ _ _ _ hRest
  have hBody : Carries server flags channel st₂.channel
      (ld.beforeDbs server ctx req libraries)
      (if req.excludeData then ld.beforeDbs server ctx req libraries
        else (ld.beforeDbs server ctx req libraries).withDbs server flags dbs) := by
    split_ifs at hMiddle ⊢
    · cases hMiddle
      exact carries_refl _ _
    · refine carries_saveDbs hServer hFeed hDbs (reset_beforeDbs hReset) (fun loaded hMem => ?_)
        hMiddle
      rw [keys_beforeDbs, hKeys] at hMem
      cases hMem
  rw [saveAfter_eq] at hAfter
  obtain ⟨_, third, hModules, hEnd⟩ := Save.bind_eq_some.mp hAfter
  obtain ⟨_, fourth, hEof, hSum⟩ := Save.bind_eq_some.mp hEnd
  obtain ⟨_, fifth, hChecksum, hPure⟩ := Save.bind_eq_some.mp hSum
  obtain rfl : fifth = last := congrArg Prod.snd hPure
  have hTail : Carries server flags st₂.channel third
      (if req.excludeData then ld.beforeDbs server ctx req libraries
        else (ld.beforeDbs server ctx req libraries).withDbs server flags dbs)
      (ld.afterDump server flags ctx req libraries dbs) := by
    rw [Loading.afterDump]
    split_ifs at hModules ⊢
    · exact loadsOn_pure 0 _ _ _ hModules
    · exact loadsOn_modules hServer (hCtx.whence .after) (hCtx.modules .after) _ _ _ hModules
  obtain ⟨bytes, hBytes, hAdvances⟩ := (hHead.trans hBody).trans hTail
  refine ⟨bytes, hAdvances, ?_⟩
  dsimp only
  have hDump : fourth.writes.flatten = magic server ++ (bytes ++ [server.fileOpcode .eof]) := by
    rw [flatten_writes hEof, hBytes, hStart, List.append_assoc]
  have hSkipped : fourth.writes.drop st.channel.writes.length = fourth.writes := by
    rw [hFresh]
    rfl
  have hWritten := flatten_writes hChecksum
  rwa [hSkipped, hDump] at hWritten

/-- A dump that was saved is loaded, up to its end, whatever comes after it. -/
theorem rdbLoadRio_rdbSaveFile (hServer : server.Sound) (hCtx : ctx.Valid server flags libraries)
    (hFeed : flags.feedRepl = true → server.replBacklog = true) {dbs : List RedisDb}
    (hDbs : DbsValid server dbs) (hReset : ld.reset = ld) (hFunctions : ld.functions = [])
    (hKeys : ld.keys = []) {st st' : DumpState σ} (hFresh : st.channel.writes = [])
    (h : rdbSaveFile server rio ctx req dbs st = (true, st')) (rest : Bytes) :
    rdbLoadRio server flags ld ⟨[], st'.file ++ rest, false⟩ =
      (some (ld.afterDump server flags ctx req libraries dbs), ⟨st'.file, rest, false⟩) := by
  obtain ⟨bytes, hAdvances, hFile⟩ :=
    carries_rdbSaveFile hServer hCtx hFeed hDbs hReset hFunctions hKeys hFresh h
  rw [hFile]
  exact rdbLoadRio_of_advances hServer hAdvances rest

/-- A field with another name is not about the replication. -/
theorem addAux_rsi {auxkey : Bytes} (auxval : Bytes)
    (hDb : sameName auxkey (ascii "repl-stream-db") = false)
    (hId : sameName auxkey (ascii "repl-id") = false)
    (hOffset : sameName auxkey (ascii "repl-offset") = false) :
    (ld.addAux auxkey auxval).rsi = ld.rsi := by
  simp only [Loading.addAux, hDb, hId, hOffset, Bool.false_eq_true, if_false]
  split_ifs <;> rfl

/-- The replication state that a dump tells of. -/
theorem rsi_withAux_repl {db : Int} (hDb : strtoll (server.ll2string db) = db)
    (hInt : -2 ^ 31 ≤ db ∧ db < 2 ^ 31) (hId : ctx.replid.length = replIdSize)
    (hOffset : strtoll (server.ll2string ctx.masterReplOffset) = ctx.masterReplOffset) :
    (ld.withAux (replAuxFields server ctx db)).rsi =
      ld.rsi.map fun _ => ⟨db, some ctx.replid, ctx.masterReplOffset⟩ := by
  have hAtoi : atoi (server.ll2string db) = db := by
    rw [atoi, hDb, asInt]
    exact signed_toNat (show 0 < 4 by decide) hInt.1 hInt.2
  have hFirst : ld.addAux (ascii "repl-stream-db") (server.ll2string db) =
      { ld with rsi := ld.rsi.map fun rsi => { rsi with replStreamDb := db } } := by
    rw [Loading.addAux, if_neg (by decide), if_pos (by decide), hAtoi]
  have hSecond : ∀ ld : Loading, ld.addAux (ascii "repl-id") ctx.replid =
      { ld with rsi := ld.rsi.map fun rsi => { rsi with replId := some ctx.replid } } := by
    intro ld
    rw [Loading.addAux, if_neg (by decide), if_neg (by decide), if_pos (by decide), if_pos hId]
  have hThird : ∀ ld : Loading, ld.addAux (ascii "repl-offset")
      (server.ll2string ctx.masterReplOffset) =
        { ld with
          rsi := ld.rsi.map fun rsi => { rsi with replOffset := ctx.masterReplOffset } } := by
    intro ld
    rw [Loading.addAux, if_neg (by decide), if_neg (by decide), if_neg (by decide),
      if_pos (by decide), hOffset]
  rw [replAuxFields, Loading.withAux, List.foldl_cons, List.foldl_cons, List.foldl_cons,
    List.foldl_nil, hFirst, hSecond, hThird]
  cases ld.rsi <;> rfl

/-- What a loader that asks for it learns about the replication. -/
def replicationOf (ctx : DumpContext) (req : DumpRequest) (rsi : Option SaveInfo) :
    Option SaveInfo :=
  match req.replStreamDb with
  | none => rsi
  | some db => rsi.map fun _ => ⟨db, some ctx.replid, ctx.masterReplOffset⟩

/-- The state of the replication, if it was saved and is asked for. -/
theorem rsi_withAux (hRepl : ∀ db, req.replStreamDb = some db →
      (-2 ^ 31 ≤ db ∧ db < 2 ^ 31) ∧ strtoll (server.ll2string db) = db ∧
        ctx.replid.length = replIdSize ∧
        strtoll (server.ll2string ctx.masterReplOffset) = ctx.masterReplOffset) :
    (ld.withAux (infoAuxFields server ctx req)).rsi = replicationOf ctx req ld.rsi := by
  have hAppend : ∀ (ld : Loading) (fields more : List (Bytes × Bytes)),
      ld.withAux (fields ++ more) = (ld.withAux fields).withAux more := fun ld fields more =>
    List.foldl_append
  have hHead : ∀ ld : Loading, (ld.withAux (serverAuxFields server ctx)).rsi = ld.rsi := by
    intro ld
    simp only [serverAuxFields, Loading.withAux, List.foldl_cons, List.foldl_nil]
    rw [addAux_rsi _ (by decide) (by decide) (by decide),
      addAux_rsi _ (by decide) (by decide) (by decide),
      addAux_rsi _ (by decide) (by decide) (by decide),
      addAux_rsi _ (by decide) (by decide) (by decide)]
  have hLast : ∀ (ld : Loading) (val : Bytes),
      (ld.withAux [(ascii "aof-base", val)]).rsi = ld.rsi := by
    intro ld val
    show (ld.addAux (ascii "aof-base") val).rsi = ld.rsi
    exact addAux_rsi val (by decide) (by decide) (by decide)
  rw [infoAuxFields, hAppend, hAppend, hLast, replicationOf]
  cases hDb : req.replStreamDb with
  | none =>
      have hNothing : ∀ ld : Loading, ld.withAux [] = ld := fun _ => rfl
      rw [Option.elim_none, hNothing, hHead]
  | some db =>
      obtain ⟨hInt, hNumber, hId, hOffset⟩ := hRepl db hDb
      rw [Option.elim_some, rsi_withAux_repl hNumber hInt hId hOffset, hHead]

/-- Databases and modules bring nothing else. -/
theorem withDbs_frame (server : FileServer) (flags : LoadFlags) (ld : Loading)
    (dbs : List RedisDb) :
    (ld.withDbs server flags dbs).functions = ld.functions ∧
      (ld.withDbs server flags dbs).moduleAux = ld.moduleAux ∧
      (ld.withDbs server flags dbs).rsi = ld.rsi ∧
      (ld.withDbs server flags dbs).keysExpired =
        ld.keysExpired +
          (dbs.flatMap RedisDb.entries).countP fun de => de.Expired server flags := by
  induction dbs generalizing ld with
  | nil => exact ⟨rfl, rfl, rfl, rfl⟩
  | cons db dbs ih =>
      obtain ⟨hFunctions, hModules, hRsi, hExpired⟩ := ih (ld.withDb server flags db)
      have hDb : (ld.withDb server flags db).functions = ld.functions ∧
          (ld.withDb server flags db).moduleAux = ld.moduleAux ∧
          (ld.withDb server flags db).rsi = ld.rsi ∧
          (ld.withDb server flags db).keysExpired =
            ld.keysExpired + db.entries.countP fun de => de.Expired server flags := by
        rw [Loading.withDb]
        split_ifs with hEmpty
        · rw [hEmpty]
          exact ⟨rfl, rfl, rfl, rfl⟩
        · exact ⟨rfl, rfl, rfl, rfl⟩
      refine ⟨hFunctions.trans hDb.1, hModules.trans hDb.2.1, hRsi.trans hDb.2.2.1, ?_⟩
      refine hExpired.trans ?_
      rw [hDb.2.2.2, List.flatMap_cons, List.countP_append, Nat.add_assoc]

/-- The keys that are loaded from a dump. -/
def dumpKeys (server : FileServer) (flags : LoadFlags) (req : DumpRequest) (dbs : List RedisDb) :
    List LoadedKey :=
  if req.excludeData then []
  else dbs.flatMap fun db => loadedKeys server flags db.dbid db.entries

/-- The data of modules in a dump. -/
def dumpModules (ctx : DumpContext) (req : DumpRequest) : List ModuleAux :=
  if req.excludeData then []
  else (ctx.modulesAux .before ++ ctx.modulesAux .after).filter fun mt => ¬ mt.Skipped

/-- What a loader that starts with nothing gets from a dump. -/
theorem afterDump_data (dbs : List RedisDb) (rsi : Option SaveInfo) :
    let loaded := (Loading.start [] [] rsi).afterDump server flags ctx req libraries dbs
    loaded.keys = dumpKeys server flags req dbs ∧
      loaded.functions = (if req.excludeFunctions then [] else libraries) ∧
      loaded.moduleAux = dumpModules ctx req ∧
      loaded.rsi = ((Loading.start [] [] rsi).withAux (infoAuxFields server ctx req)).rsi := by
  intro loaded
  obtain ⟨usedMem, hBefore⟩ := beforeDbs_eq server ctx req libraries (Loading.start [] [] rsi)
  have hFields : ∃ before, (Loading.start [] [] rsi).beforeDbs server ctx req libraries = before ∧
      before.keys = [] ∧ before.functions = (if req.excludeFunctions then [] else libraries) ∧
      before.moduleAux = (if req.excludeData then [] else
        (ctx.modulesAux .before).filter fun mt => ¬ mt.Skipped) ∧
      before.rsi = ((Loading.start [] [] rsi).withAux (infoAuxFields server ctx req)).rsi :=
    ⟨_, hBefore, rfl, rfl, List.nil_append _, rfl⟩
  obtain ⟨before, hBefore, hKeys, hFunctions, hModules, hRsi⟩ := hFields
  by_cases hData : req.excludeData = true
  · have hLoaded : loaded = before := by
      rw [← hBefore]
      exact if_pos hData
    rw [if_pos hData] at hModules
    rw [hLoaded, dumpKeys, dumpModules, if_pos hData, if_pos hData]
    exact ⟨hKeys, hFunctions, hModules, hRsi⟩
  · have hLoaded :
        loaded = (before.withDbs server flags dbs).withModules (ctx.modulesAux .after) := by
      rw [← hBefore]
      exact if_neg hData
    rw [if_neg hData] at hModules
    obtain ⟨hSameFunctions, hSameModules, hSameRsi, _⟩ :=
      withDbs_frame server flags before dbs
    rw [hLoaded, dumpKeys, dumpModules, if_neg hData, if_neg hData]
    refine ⟨?_, hSameFunctions.trans hFunctions, ?_, hSameRsi.trans hRsi⟩
    · show (before.withDbs server flags dbs).keys = _
      rw [keys_withDbs, hKeys, List.nil_append]
    · show (before.withDbs server flags dbs).moduleAux ++ _ = _
      rw [hSameModules, hModules, List.filter_append]

/-- What was saved and what is loaded, for a loader that starts with nothing. -/
theorem afterDump_start (dbs : List RedisDb) (rsi : Option SaveInfo)
    (hRepl : ∀ db, req.replStreamDb = some db →
      (-2 ^ 31 ≤ db ∧ db < 2 ^ 31) ∧ strtoll (server.ll2string db) = db ∧
        ctx.replid.length = replIdSize ∧
        strtoll (server.ll2string ctx.masterReplOffset) = ctx.masterReplOffset) :
    let loaded := (Loading.start [] [] rsi).afterDump server flags ctx req libraries dbs
    loaded.keys = dumpKeys server flags req dbs ∧
      loaded.functions = (if req.excludeFunctions then [] else libraries) ∧
      loaded.moduleAux = dumpModules ctx req ∧
      loaded.rsi = replicationOf ctx req rsi := by
  obtain ⟨hKeys, hFunctions, hModules, hRsi⟩ := afterDump_data dbs rsi
  exact ⟨hKeys, hFunctions, hModules, hRsi.trans (rsi_withAux hRepl)⟩

end Dump

end Redis
