import DoubleSwap.Redis.LoadRio

/-! The loader reads a file from front to back and does not look ahead: what it
makes of the front of a file does not depend on what follows. -/
namespace Redis

open Reading Reader

section Strings

variable (server : LoadServer)

/-- A time is eight bytes, and the lack of them a value like any other. -/
theorem sequential_millisecondTime : Sequential rdbLoadMillisecondTime := by
  refine (sequential_take 8).bind fun bytes => ?_
  cases bytes with
  | none => exact sequential_pure _
  | some bytes => exact sequential_pure _

/-- The lengths of four and of eight bytes. -/
theorem sequential_bigEndian (width : Nat) :
    Sequential (take width >>= fun
      | none => pure none
      | some bytes =>
          pure (some (false, ofBigEndian bytes)) : Reader UInt8 (Option (Bool × Nat))) := by
  refine (sequential_take width).bind fun bytes => ?_
  cases bytes with
  | none => exact sequential_pure _
  | some bytes => exact sequential_pure _

/-- The first byte of a length, and what is read after it. -/
theorem lenByRef_eq : ∃ f, rdbLoadLenByRef server = next >>= f ∧ f none = pure none ∧
    ∀ b, Sequential (f (some b)) := by
  refine ⟨_, rfl, rfl, fun b => ?_⟩
  refine (sequential_pure _).ite ((sequential_pure _).ite (Sequential.ite ?_
    ((sequential_bigEndian 4).ite ((sequential_bigEndian 8).ite (sequential_pure none)))))
  refine sequential_next.bind fun b' => ?_
  cases b' with
  | none => exact sequential_pure none
  | some b' => exact sequential_pure _

/-- The first byte decides how many bytes of a length come after it. -/
theorem sequential_lenByRef : Sequential (rdbLoadLenByRef server) := by
  obtain ⟨f, hEq, hNone, hSome⟩ := lenByRef_eq server
  rw [hEq]
  refine sequential_next.bind fun b => ?_
  cases b with
  | none =>
      rw [hNone]
      exact sequential_pure none
  | some b => exact hSome b

/-- What becomes of the result of `rdbLoadLenByRef`. -/
theorem len_eq : ∃ f, rdbLoadLen server = rdbLoadLenByRef server >>= f ∧
    f none = pure (false, lenErr) ∧ ∀ result, Sequential (f result) := by
  refine ⟨_, rfl, rfl, fun result => ?_⟩
  cases result with
  | none => exact sequential_pure _
  | some result => exact sequential_pure _

/-- The error value of a length reads nothing more. -/
theorem sequential_len : Sequential (rdbLoadLen server) := by
  obtain ⟨f, hEq, _, hRest⟩ := len_eq server
  rw [hEq]
  exact (sequential_lenByRef server).bind hRest

/-- Nor does it read more to forget whether the length was an encoding. -/
theorem sequential_plainLen : Sequential (rdbLoadPlainLen server) :=
  (sequential_len server).bind fun _ => sequential_pure _

theorem sequential_demandLen : Sequential (rdbDemandLen server) :=
  (sequential_plainLen server).bind fun _ => sequential_fail.ite (sequential_pure _)

/-- An integer has as many bytes as its encoding says. -/
theorem sequential_integerObject (enctype : Nat) :
    Sequential (rdbLoadIntegerObject server enctype) := by
  have hNumber : ∀ width, Sequential (demand width >>= fun enc =>
      pure (server.ll2string (signed width (ofLittleEndian enc)))) := fun width =>
    (sequential_demand width).bind fun enc => sequential_pure _
  exact (hNumber 1).ite ((hNumber 2).ite ((hNumber 4).ite sequential_fail))

/-- Of a compressed string only the compressed bytes are in the file. -/
theorem sequential_lzfStringObject : Sequential (rdbLoadLzfStringObject server) := by
  refine (sequential_demandLen server).bind fun clen =>
    (sequential_demandLen server).bind fun len => Sequential.ite ?_ sequential_fail
  refine (sequential_demand clen).bind fun c => ?_
  cases server.lzfDecompress c len with
  | none => exact sequential_fail
  | some val => exact sequential_pure val

/-- A string after its length. -/
theorem string_eq : ∃ f, rdbGenericLoadStringObject server = rdbLoadLen server >>= f ∧
    f (false, lenErr) = fail ∧ ∀ result, Sequential (f result) := by
  refine ⟨_, rfl, if_pos rfl, fun result => ?_⟩
  refine sequential_fail.ite (Sequential.ite ?_ ?_)
  · exact (sequential_integerObject server result.2).ite
      ((sequential_lzfStringObject server).ite sequential_fail)
  · exact ((sequential_demand result.2).ite (sequential_pure [])).ite sequential_fail

/-- Every kind of string is read from front to back. -/
theorem sequential_string : Sequential (rdbGenericLoadStringObject server) := by
  obtain ⟨f, hEq, _, hRest⟩ := string_eq server
  rw [hEq]
  exact (sequential_len server).bind hRest

/-- Without a first byte there is no length, and without a length no string. -/
theorem consuming_string : Consuming (rdbGenericLoadStringObject server) := by
  obtain ⟨ofByte, hByRef, hNoByte, hByte⟩ := lenByRef_eq server
  obtain ⟨ofResult, hLen, hNoResult, hResult⟩ := len_eq server
  obtain ⟨ofLen, hString, hNoLen, hRest⟩ := string_eq server
  rw [hString, hLen, hByRef, Reader.bind_assoc, Reader.bind_assoc]
  refine consuming_of_next (fun source => ?_) fun b => (hByte b).bind fun result =>
    (hResult result).bind hRest
  rw [hNoByte]
  show ((ofResult none >>= ofLen) source).1 = none
  rw [hNoResult]
  show (ofLen (false, lenErr) source).1 = none
  rw [hNoLen]
  rfl

end Strings

theorem sequential_giveUpIfFailed : Sequential giveUpIfFailed :=
  sequential_failed.bind fun _ => sequential_fail.ite (sequential_pure _)

/-- The callbacks of modules read the file in the same way. -/
def ObjectServer.Sequential (server : ObjectServer) : Prop :=
  ∀ moduleid, Reading.Sequential (server.rdbLoad moduleid)

section Collections

variable (server : ObjectServer)

theorem sequential_binaryDouble : Sequential rdbLoadBinaryDoubleValue :=
  (sequential_demand 8).bind fun _ => sequential_pure _

/-- So is a loop over elements, if each of them is. -/
theorem sequential_counted {γ : Type} {body : γ → Reader UInt8 γ} (h : ∀ acc, Sequential (body acc))
    (acc : γ) : Sequential (rdbLoadCounted server body acc) :=
  (sequential_demandLen _).bind fun len =>
    (sequential_pure none).ite ((sequential_repeatFrom h len acc).bind fun _ => sequential_pure _)

/-- What a set does with an element that was read. -/
theorem sequential_setRest (len : Nat) (set : LoadedSet) : ∃ f,
    rdbLoadSetElement server len set = rdbGenericLoadStringObject server.toLoadServer >>= f ∧
      ∀ sdsele, Sequential (f sdsele) := by
  refine ⟨_, rfl, fun sdsele => ?_⟩
  cases set.encodingFor server len sdsele with
  | none => exact sequential_fail
  | some encoding => exact sequential_fail.ite (sequential_pure _)

/-- Whether a set takes an element depends on what it holds, not on the file. -/
theorem sequential_setElement (len : Nat) (set : LoadedSet) :
    Sequential (rdbLoadSetElement server len set) := by
  obtain ⟨f, hEq, hRest⟩ := sequential_setRest server len set
  rw [hEq]
  exact (sequential_string _).bind hRest

/-- An element takes at least one byte, so the loop of a set that is too long ends
where the file does. -/
theorem consuming_setElement (len : Nat) (set : LoadedSet) :
    Consuming (rdbLoadSetElement server len set) := by
  obtain ⟨f, hEq, hRest⟩ := sequential_setRest server len set
  rw [hEq]
  exact (consuming_string _).bind hRest

/-- Both loops of a set, the one that counts and the one whose counter wraps. -/
theorem sequential_setElements (len : Nat) (set : LoadedSet) :
    Sequential (rdbLoadSetElements server len set) := by
  refine (sequential_repeatFrom (sequential_setElement server len) len set).ite ?_
  refine sequential_loop (fun set => ?_) (consumes_of_consuming fun set => ?_) set
  · exact (sequential_setElement server len set).bind fun _ => sequential_pure _
  · exact (consuming_setElement server len set).bind fun _ => sequential_pure _

theorem sequential_set : Sequential (rdbLoadSet server) :=
  (sequential_demandLen _).bind fun len => (sequential_pure none).ite
    (sequential_fail.ite ((sequential_setElements server len _).bind fun _ => sequential_pure _))

/-- A sorted set in both formats of its scores. -/
theorem sequential_zset {loadScore : Reader UInt8 UInt64} (h : Sequential loadScore) :
    Sequential (rdbLoadZset server loadScore) := by
  have hElement : ∀ elements, Sequential (rdbLoadZsetElement server loadScore elements) :=
    fun elements => (sequential_string _).bind fun _ => h.bind fun _ =>
      sequential_fail.ite (sequential_fail.ite (sequential_pure _))
  exact (sequential_demandLen _).bind fun len => (sequential_pure none).ite
    (sequential_fail.ite ((sequential_repeatFrom hElement len []).bind fun _ => sequential_pure _))

/-- The time of a field, if fields have one here. -/
theorem sequential_ttl (ttls : HashTtl) : Sequential (rdbLoadTtl server ttls) := by
  refine (sequential_pure none).ite ((sequential_lenByRef _).bind fun result => ?_)
  cases result with
  | none => exact sequential_fail
  | some result => exact sequential_fail.ite (sequential_pure _)

theorem sequential_addToTable (fields : List HashField) (f : HashField) (len : Nat) :
    Sequential (addToTable fields f len) :=
  (sequential_pure _).ite sequential_fail

/-- A field is read in the same way whatever the encoding of the hash. -/
theorem sequential_hashField (ttls : HashTtl) (hash : LoadedHash) :
    Sequential (rdbLoadHashField server ttls hash) :=
  (sequential_ttl server ttls).bind fun _ => (sequential_string _).bind fun _ =>
    (sequential_string _).bind fun _ => (sequential_addToTable _ _ _).ite
      (sequential_fail.ite ((sequential_pure _).ite
        (sequential_fail.ite (sequential_addToTable _ _ _))))

/-- A hash with as many fields as its length says. -/
theorem sequential_hash (ttls : HashTtl) : Sequential (rdbLoadHash server ttls) :=
  (sequential_demandLen _).bind fun len => (sequential_pure none).ite (sequential_fail.ite
    ((sequential_repeatFrom (sequential_hashField server ttls) len _).bind fun _ =>
      sequential_pure _))

/-- A node of a list, which may be skipped after it was read. -/
theorem sequential_quicklistNode (nodes : List QuicklistNode) :
    Sequential (rdbLoadQuicklistNode server nodes) :=
  (sequential_demandLen _).bind fun _ => sequential_fail.ite ((sequential_string _).bind fun _ =>
    sequential_fail.ite ((sequential_pure _).ite (sequential_fail.ite
      ((sequential_pure _).ite (sequential_pure _)))))

/-- A packed collection is a single string. -/
theorem sequential_listpack (tupleLen : Nat) (make : Bytes → Contents) :
    Sequential (rdbLoadListpack server tupleLen make) :=
  (sequential_string _).bind fun _ =>
    sequential_fail.ite ((sequential_pure _).ite (sequential_pure _))

theorem sequential_intset : Sequential (rdbLoadIntset server) :=
  (sequential_string _).bind fun _ => sequential_fail.ite (sequential_pure _)

end Collections

section Streams

variable (server : ObjectServer)

theorem sequential_streamID : Sequential (rdbLoadStreamID server) :=
  (sequential_plainLen _).bind fun _ => (sequential_plainLen _).bind fun _ => sequential_pure _

/-- A node of a stream: its key and its listpack. -/
theorem sequential_streamNode (nodes : List (Bytes × Bytes)) :
    Sequential (rdbLoadStreamNode server nodes) :=
  (sequential_string _).bind fun _ => sequential_fail.ite ((sequential_string _).bind fun _ =>
    sequential_fail.ite (sequential_fail.ite (sequential_fail.ite (sequential_pure _))))

/-- A pending entry of a group has a fixed form. -/
theorem sequential_streamNack (pel : List StreamNack) :
    Sequential (rdbLoadStreamNack server pel) :=
  (sequential_demand 16).bind fun _ => sequential_millisecondTime.bind fun _ =>
    (sequential_plainLen _).bind fun _ => sequential_giveUpIfFailed.bind fun _ =>
      sequential_fail.ite (sequential_pure _)

/-- A pending entry of a consumer is only an ID, which is looked up in the
group. -/
theorem sequential_consumerNack (group pel : List StreamNack) :
    Sequential (rdbLoadConsumerNack group pel) := by
  refine (sequential_demand 16).bind fun rawid => ?_
  cases group.find? fun nack => nack.id = rawid with
  | none => exact sequential_fail
  | some nack => exact sequential_fail.ite (sequential_pure _)

/-- Which times of a consumer are in the file depends on the version only. -/
theorem sequential_activeTime (version : Nat) (seenTime : Int) :
    Sequential (rdbLoadActiveTime version seenTime) :=
  (sequential_millisecondTime.bind fun _ => sequential_giveUpIfFailed.bind fun _ =>
    sequential_pure _).ite (sequential_pure _)

/-- A consumer with its pending entries. -/
theorem sequential_streamConsumer (version : Nat) (group : List StreamNack)
    (consumers : List StreamConsumer) :
    Sequential (rdbLoadStreamConsumer server version group consumers) :=
  (sequential_string _).bind fun _ => sequential_fail.ite
    (sequential_millisecondTime.bind fun _ => sequential_giveUpIfFailed.bind fun _ =>
      (sequential_activeTime version _).bind fun _ => (sequential_demandLen _).bind fun pelSize =>
        (sequential_repeatFrom (sequential_consumerNack group) pelSize []).bind fun _ =>
          sequential_pure _)

theorem sequential_offset (version : Nat) (s : StreamObject) (lastId : StreamID) :
    Sequential (rdbLoadOffset server version s lastId) :=
  ((sequential_plainLen _).bind fun _ => sequential_giveUpIfFailed.bind fun _ =>
    sequential_pure _).ite (sequential_pure _)

/-- A group with its pending entries and its consumers. -/
theorem sequential_streamCG (version : Nat) (s : StreamObject) (cgroups : List StreamCG) :
    Sequential (rdbLoadStreamCG server version s cgroups) :=
  (sequential_string _).bind fun _ => (sequential_streamID server).bind fun _ =>
    sequential_giveUpIfFailed.bind fun _ => (sequential_offset server version s _).bind fun _ =>
      sequential_fail.ite ((sequential_demandLen _).bind fun pelSize =>
        (sequential_repeatFrom (sequential_streamNack server) pelSize []).bind fun pel =>
          (sequential_demandLen _).bind fun consumersNum =>
            (sequential_repeatFrom (sequential_streamConsumer server version pel)
              consumersNum []).bind fun _ => sequential_fail.ite (sequential_pure _))

/-- The version decides which fields of a stream are in the file. -/
theorem sequential_streamMetadata (version : Nat) (listpacks : List (Bytes × Bytes)) :
    Sequential (rdbLoadStreamMetadata server version listpacks) :=
  (sequential_plainLen _).bind fun _ => (sequential_streamID server).bind fun _ => Sequential.ite
    ((sequential_streamID server).bind fun _ => (sequential_streamID server).bind fun _ =>
      (sequential_plainLen _).bind fun _ => sequential_pure _) (sequential_pure _)

/-- A stream with its nodes and its groups. -/
theorem sequential_stream (version : Nat) : Sequential (rdbLoadStream server version) :=
  (sequential_demandLen _).bind fun nodeCount =>
    (sequential_repeatFrom (sequential_streamNode server) nodeCount []).bind fun listpacks =>
      (sequential_streamMetadata server version listpacks).bind fun s =>
        sequential_giveUpIfFailed.bind fun _ => sequential_fail.ite
          ((sequential_demandLen _).bind fun cgroupsCount =>
            (sequential_repeatFrom (sequential_streamCG server version s) cgroupsCount []).bind
              fun _ => sequential_pure _)

end Streams

section Objects

variable {server : ObjectServer}

/-- A module's value, if the module itself reads from front to back. -/
theorem sequential_module (h : server.Sequential) : Sequential (rdbLoadModule server) := by
  refine (sequential_plainLen _).bind fun moduleid => sequential_giveUpIfFailed.bind fun _ =>
    sequential_fail.ite ((h moduleid).bind fun ptr => (sequential_demandLen _).bind fun eof =>
      sequential_fail.ite ?_)
  cases ptr with
  | none => exact sequential_fail
  | some mv => exact sequential_pure mv

theorem sequential_asContents {α : Type} {r : Reader UInt8 (Option α)} (h : Sequential r)
    (make : α → Contents) : Sequential (asContents make r) :=
  h.bind fun _ => sequential_pure _

/-- What becomes of a list without nodes does not depend on what follows. -/
theorem sequential_asList {r : Reader UInt8 (Option (List QuicklistNode))} (h : Sequential r) :
    Sequential (asList r) := by
  refine h.bind fun nodes => ?_
  rcases nodes with _ | _ | ⟨node, nodes⟩
  · exact sequential_pure none
  · exact sequential_pure none
  · exact sequential_pure _

/-- A score that is written out has its length in front of it. -/
theorem sequential_doubleValue : Sequential (rdbLoadDoubleValue server) := by
  refine (sequential_demand 1).bind fun len => ?_
  split
  · exact sequential_pure _
  · exact sequential_pure _
  · exact sequential_pure _
  · refine (sequential_demand _).bind fun buf => ?_
    cases server.sscanfDouble buf with
    | none => exact sequential_fail
    | some val => exact sequential_pure val

/-- A node of an older list. -/
theorem sequential_ziplistNode (nodes : List QuicklistNode) :
    Sequential (rdbLoadZiplistNode server nodes) := by
  refine (sequential_string _).bind fun data => sequential_fail.ite ?_
  cases server.ziplistEntries data with
  | none => exact sequential_fail
  | some entries => exact (sequential_pure _).ite (sequential_pure _)

theorem sequential_listZiplist : Sequential (rdbLoadListZiplist server) := by
  refine (sequential_string _).bind fun encoded => ?_
  cases server.ziplistEntries encoded with
  | none => exact sequential_fail
  | some entries => exact sequential_pure _

/-- An older hash is a single string. -/
theorem sequential_zipmap : Sequential (rdbLoadZipmap server) := by
  refine (sequential_string _).bind fun encoded => ?_
  cases (server.zipmapFields encoded).bind fun fields =>
    fields.foldlM (addZipmapField server) [] with
  | none => exact sequential_fail
  | some fields => exact sequential_pure _

/-- So are older sorted sets and hashes of few elements. -/
theorem sequential_ziplistPairs (make : Bytes → Contents) :
    Sequential (rdbLoadZiplistPairs server make) := by
  refine (sequential_string _).bind fun encoded => ?_
  cases ziplistPairsConvertAndValidateIntegrity server encoded with
  | none => exact sequential_fail
  | some lp => exact (sequential_pure _).ite (sequential_pure _)

/-- The types of older versions. -/
theorem sequential_olderType (rdbtype : UInt8) : Sequential (rdbLoadOlderType server rdbtype) := by
  refine Sequential.ite (sequential_asContents (sequential_counted server (fun nodes =>
    (sequential_string _).bind fun _ => sequential_pure _) []) _) ?_
  refine Sequential.ite (sequential_asContents
    (sequential_zset server sequential_doubleValue) _) ?_
  refine Sequential.ite (sequential_asContents (sequential_hash server _) _) ?_
  refine Sequential.ite (sequential_asList
    (sequential_counted server sequential_ziplistNode [])) ?_
  refine Sequential.ite (sequential_asContents sequential_zipmap _) ?_
  refine Sequential.ite (sequential_asList sequential_listZiplist) ?_
  refine Sequential.ite (sequential_asContents (sequential_ziplistPairs _) _) ?_
  refine Sequential.ite (sequential_asContents (sequential_ziplistPairs _) _) ?_
  refine Sequential.ite (sequential_asContents (sequential_listpack server 3 _) _) ?_
  refine Sequential.ite ((sequential_stream server 1).bind fun _ => sequential_pure _) ?_
  exact Sequential.ite ((sequential_stream server 2).bind fun _ => sequential_pure _)
    sequential_fail

/-- Every type is read from front to back. -/
theorem sequential_rdbLoadObject (h : server.Sequential) (rdbtype : UInt8) :
    Sequential (rdbLoadObject server rdbtype) := by
  refine Sequential.ite ((sequential_string _).bind fun _ => sequential_pure _) ?_
  refine Sequential.ite (sequential_asContents (sequential_set server) _) ?_
  refine Sequential.ite (sequential_asContents
    (sequential_zset server sequential_binaryDouble) _) ?_
  refine Sequential.ite (sequential_asContents (sequential_hash server _) _) ?_
  refine Sequential.ite (sequential_millisecondTime.bind fun _ =>
    sequential_giveUpIfFailed.bind fun _ => sequential_asContents (sequential_hash server _) _) ?_
  refine Sequential.ite (sequential_asList
    (sequential_counted server (sequential_quicklistNode server) [])) ?_
  refine Sequential.ite (sequential_asContents (sequential_intset server) _) ?_
  refine Sequential.ite (sequential_asContents (sequential_listpack server 1 _) _) ?_
  refine Sequential.ite (sequential_asContents (sequential_listpack server 2 _) _) ?_
  refine Sequential.ite (sequential_asContents (sequential_listpack server 2 _) _) ?_
  refine Sequential.ite (sequential_millisecondTime.bind fun _ =>
    sequential_giveUpIfFailed.bind fun _ =>
      sequential_asContents (sequential_listpack server 3 _) _) ?_
  refine Sequential.ite ((sequential_stream server 3).bind fun _ => sequential_pure _) ?_
  exact Sequential.ite ((sequential_module h).bind fun _ => sequential_pure _)
    (sequential_olderType rdbtype)

end Objects

/-- The callbacks of modules for auxiliary data, too. -/
structure FileServer.Sequential (server : FileServer) : Prop where
  object : server.toObjectServer.Sequential
  auxLoad : ∀ moduleid auxLoad, server.auxLoad moduleid = some auxLoad →
    ∀ whence, Reading.Sequential (auxLoad whence)

section Files

variable {server : FileServer}

theorem sequential_auxField (ld : Loading) : Sequential (rdbLoadAuxField server ld) :=
  (sequential_string _).bind fun _ => (sequential_string _).bind fun _ => sequential_pure _

/-- The data of a module, if the module itself reads from front to back. -/
theorem sequential_moduleAux (h : server.Sequential) (ld : Loading) :
    Sequential (rdbLoadModuleAux server ld) := by
  refine (sequential_plainLen _).bind fun moduleid => (sequential_plainLen _).bind fun whenOpcode =>
    (sequential_plainLen _).bind fun whence => sequential_giveUpIfFailed.bind fun _ =>
      sequential_fail.ite (sequential_fail.ite ?_)
  cases hLoad : server.auxLoad moduleid with
  | none => exact sequential_fail
  | some auxLoad =>
      refine (h.auxLoad moduleid auxLoad hLoad (asInt whence)).bind fun aux => ?_
      cases aux with
      | none => exact sequential_fail
      | some aux =>
          exact (sequential_plainLen _).bind fun eof => sequential_fail.ite (sequential_pure _)

/-- A library is a single string. -/
theorem sequential_function (flags : LoadFlags) (ld : Loading) :
    Sequential (rdbFunctionLoad server flags ld) := by
  refine (sequential_string _).bind fun payload => ?_
  cases server.createLibrary flags.allowDup ld.functions payload with
  | none => exact sequential_fail
  | some functions => exact sequential_pure _

/-- A key and its value. -/
theorem sequential_key (h : server.Sequential) (flags : LoadFlags) (type : UInt8) (ld : Loading) :
    Sequential (rdbLoadKey server flags type ld) := by
  refine (sequential_string _).bind fun key =>
    (sequential_rdbLoadObject h.object type).bind fun val => ?_
  cases ld.addKey server flags key val with
  | none => exact sequential_fail
  | some ld => exact sequential_pure ld

/-- What an opcode announces, or a key. -/
theorem sequential_typed (h : server.Sequential) (flags : LoadFlags) (type : UInt8)
    (ld : Loading) : Sequential (rdbLoadTyped server flags type ld) := by
  have hTime : Sequential rdbLoadTime := by
    refine (sequential_take 4).bind fun bytes => ?_
    cases bytes with
    | none => exact sequential_pure _
    | some bytes => exact sequential_pure _
  have hLen := sequential_demandLen server.toLoadServer
  refine Sequential.ite (hTime.bind fun _ => sequential_giveUpIfFailed.bind fun _ =>
    sequential_pure _) ?_
  refine Sequential.ite (sequential_millisecondTime.bind fun _ =>
    sequential_giveUpIfFailed.bind fun _ => sequential_pure _) ?_
  refine Sequential.ite (sequential_next.bind fun byte => ?_) ?_
  · cases byte with
    | none => exact sequential_fail
    | some byte => exact sequential_pure _
  refine Sequential.ite (hLen.bind fun _ => sequential_pure _) ?_
  refine Sequential.ite (sequential_pure _) ?_
  refine Sequential.ite (hLen.bind fun _ => sequential_fail.ite (sequential_pure _)) ?_
  refine Sequential.ite (hLen.bind fun _ => hLen.bind fun _ => sequential_pure _) ?_
  refine Sequential.ite (hLen.bind fun _ => hLen.bind fun _ => hLen.bind fun _ =>
    sequential_pure _) ?_
  refine Sequential.ite ((sequential_auxField ld).bind fun _ => sequential_pure _) ?_
  refine Sequential.ite ((sequential_moduleAux h ld).bind fun _ => sequential_pure _) ?_
  refine Sequential.ite sequential_fail ?_
  exact Sequential.ite ((sequential_function flags ld).bind fun _ => sequential_pure _)
    ((sequential_key h flags type ld).bind fun _ => sequential_pure _)

theorem sequential_opcode (h : server.Sequential) (flags : LoadFlags) (ld : Loading) :
    Sequential (rdbLoadOpcode server flags ld) := by
  refine sequential_next.bind fun type => ?_
  cases type with
  | none => exact sequential_fail
  | some type => exact sequential_typed h flags type ld

/-- Every round reads its opcode. -/
theorem consumes_opcode (h : server.Sequential) (flags : LoadFlags) :
    Consumes (rdbLoadOpcode server flags) :=
  consumes_of_consuming fun ld =>
    consuming_of_next (fun _ => rfl) fun type => sequential_typed h flags type ld

/-- The checksum is compared with what was read before it, not with what
follows. -/
theorem sequential_verifyChecksum (ld : Loading) : Sequential (verifyChecksum server ld) :=
  sequential_past.bind fun _ => (sequential_demand 8).bind fun _ =>
    sequential_fail.ite (sequential_pure _)

/-- A whole file. -/
theorem sequential_rdbLoadRio (h : server.Sequential) (flags : LoadFlags) (ld : Loading) :
    Sequential (rdbLoadRio server flags ld) :=
  (sequential_demand 9).bind fun _ => sequential_fail.ite (sequential_fail.ite
    ((sequential_loop (sequential_opcode h flags) (consumes_opcode h flags) ld).bind fun ld =>
      (sequential_verifyChecksum ld).ite (sequential_pure ld)))

end Files

end Redis
