import DoubleSwap.Redis.LoadObject
import DoubleSwap.Redis.Transparency

/-! What `rdbSaveObject` writes, `rdbLoadObject` reads back as the same value. -/
namespace Redis

open Reading Reader

variable {σ : Type}

/-- The elements of a collection, read into an accumulator: after each of them an
invariant holds of those that were read. -/
theorem exists_loadsBack_each {α γ : Type} {f : α → Save σ Nat} {body : γ → Reader UInt8 γ}
    {I : List α → γ → Prop} (before items : List α) {acc : γ} (hStart : I before acc)
    (h : ∀ done item rest acc, before ++ items = done ++ item :: rest → I done acc →
      ∃ next, LoadsBack (f item) (body acc) next ∧ I (done ++ [item]) next) :
    ∃ last, LoadsBack (Save.each f items) (repeatFrom body items.length acc) last ∧
      I (before ++ items) last := by
  induction items generalizing before acc with
  | nil =>
      rw [List.append_nil]
      exact ⟨acc, loadsBack_pure 0 acc, hStart⟩
  | cons item items ih =>
      obtain ⟨next, hItem, hNext⟩ := h before item items acc rfl hStart
      obtain ⟨last, hRest, hLast⟩ := ih (before ++ [item]) hNext fun done item' rest acc hSplit =>
        h done item' rest acc (by rw [← hSplit, List.append_assoc, List.singleton_append])
      rw [List.append_assoc, List.singleton_append] at hLast
      exact ⟨last, hItem.bind fun n => hRest.counted fun rest => n + rest, hLast⟩

/-- The same where the accumulator is given by what was read. -/
theorem loadsBack_each {α γ : Type} {f : α → Save σ Nat} {body : γ → Reader UInt8 γ}
    (state : List α → γ) (before items : List α)
    (h : ∀ done item rest, before ++ items = done ++ item :: rest →
      LoadsBack (f item) (body (state done)) (state (done ++ [item]))) :
    LoadsBack (Save.each f items) (repeatFrom body items.length (state before))
      (state (before ++ items)) := by
  obtain ⟨last, hEach, rfl⟩ := exists_loadsBack_each (I := fun done acc => acc = state done)
    before items rfl fun done item rest acc hSplit hAcc =>
      ⟨_, hAcc ▸ h done item rest hSplit, rfl⟩
  exact hEach

/-- A listpack that passes the checks of the loader and has an entry. -/
structure PackedValid (server : ObjectServer) (tupleLen : Nat) (lp : Bytes) : Prop where
  length_lt : lp.length < lenErr
  valid : lpValidateIntegrityAndDups server lp (deepIntegrityValidation server) tupleLen = true
  nonempty : server.lpLength lp / tupleLen ≠ 0

/-- A node that holds these bytes, compressed or not. -/
structure NodeValid (server : ObjectServer) (container : Nat) (entry : Bytes) : Prop where
  container_eq : container = server.format.containerPacked ∨ container = server.containerPlain
  length_pos : entry.length ≠ 0
  length_lt : entry.length < lenErr
  packed : container ≠ server.containerPlain →
    lpValidateIntegrity server entry (deepIntegrityValidation server) = true ∧
      server.lpLength entry ≠ 0

/-- What a loaded node holds in place of compressed bytes. -/
def QuicklistNode.loaded (server : ObjectServer) : QuicklistNode → QuicklistNode
  | .raw container entry => .raw container entry
  | .lzf container data size => .raw container ((server.lzfDecompress data size).getD [])

def QuicklistNode.Valid (server : ObjectServer) : QuicklistNode → Prop
  | .raw container entry => NodeValid server container entry
  | .lzf container data size =>
      data.length < lenErr ∧ size < lenErr ∧
        ∃ entry, server.lzfDecompress data size = some entry ∧ NodeValid server container entry

/-- The fields of a table, whose times, if any, are after the least one. -/
structure FieldsValid (server : ObjectServer) (fields : List HashField) : Prop where
  nonempty : fields ≠ []
  length_lt : fields.length < lenErr
  nodup : (fields.map HashField.field).Nodup
  lengths : ∀ f ∈ fields, f.field.length < lenErr ∧ f.value.length < lenErr
  times : ∀ f ∈ fields, ∀ t, f.expireTime = some t →
    0 < t.toNat ∧ t.toNat ≤ server.expireTimeMax

structure StreamID.Valid (id : StreamID) : Prop where
  ms_lt : id.ms < 2 ^ 64
  seq_lt : id.seq < 2 ^ 64

structure NackValid (nack : StreamNack) : Prop where
  id_length : nack.id.length = 16
  time_ge : -2 ^ 63 ≤ nack.deliveryTime
  time_lt : nack.deliveryTime < 2 ^ 63
  count_lt : nack.deliveryCount < 2 ^ 64

/-- A consumer whose pending entries are entries of the group. -/
structure ConsumerValid (group : List StreamNack) (consumer : StreamConsumer) : Prop where
  name_length : consumer.name.length < lenErr
  seen_ge : -2 ^ 63 ≤ consumer.seenTime
  seen_lt : consumer.seenTime < 2 ^ 63
  active_ge : -2 ^ 63 ≤ consumer.activeTime
  active_lt : consumer.activeTime < 2 ^ 63
  pel_length : consumer.pel.length < lenErr
  pel_nodup : (consumer.pel.map StreamNack.id).Nodup
  pel_group : ∀ nack ∈ consumer.pel, nack ∈ group

structure CGValid (cg : StreamCG) : Prop where
  name_length : cg.name.length < lenErr
  lastId : cg.lastId.Valid
  read_ge : -2 ^ 63 ≤ cg.entriesRead
  read_lt : cg.entriesRead < 2 ^ 63
  pel_length : cg.pel.length < lenErr
  pel_nodup : (cg.pel.map StreamNack.id).Nodup
  nacks : ∀ nack ∈ cg.pel, NackValid nack
  consumers_length : cg.consumers.length < lenErr
  consumers_nodup : (cg.consumers.map StreamConsumer.name).Nodup
  consumers : ∀ consumer ∈ cg.consumers, ConsumerValid cg.pel consumer
  owned : ∀ nack ∈ cg.pel, ∃ consumer ∈ cg.consumers, nack.id ∈ consumer.pel.map StreamNack.id

structure StreamValid (server : ObjectServer) (s : StreamObject) : Prop where
  listpacks_length : s.listpacks.length < lenErr
  keys_nodup : (s.listpacks.map Prod.fst).Nodup
  nodes : ∀ node ∈ s.listpacks, node.1.length = 16 ∧ node.2.length < lenErr ∧
    server.streamValidateListpackIntegrity node.2 (deepIntegrityValidation server) = true ∧
    server.lpHasFirst node.2 = true
  length_lt : s.length < 2 ^ 64
  length_nodes : s.length ≠ 0 → s.listpacks.length ≠ 0
  lastId : s.lastId.Valid
  firstId : s.firstId.Valid
  deletedId : s.maxDeletedEntryId.Valid
  added_lt : s.entriesAdded < 2 ^ 64
  cgroups_length : s.cgroups.length < lenErr
  cgroups_nodup : (s.cgroups.map StreamCG.name).Nodup
  cgroups : ∀ cg ∈ s.cgroups, CGValid cg

/-- A value whose module reads what it has written. -/
structure ModuleValid (server : ObjectServer) (mv : ModuleValue) : Prop where
  id_lt : mv.id < 2 ^ 64
  known : server.moduleTypeLookupModuleByID mv.id = true
  reads : Reads (server.rdbLoad mv.id) mv.saves.flatten (some mv)

/-- What holds of the contents of an object in memory. -/
def Contents.Valid (server : ObjectServer) : Contents → Prop
  | .quicklist nodes =>
      nodes ≠ [] ∧ nodes.length < lenErr ∧ ∀ node ∈ nodes, node.Valid server
  | .listListpack lp => NodeValid server server.format.containerPacked lp
  | .set elements =>
      elements ≠ [] ∧ elements.length < 2 ^ 32 ∧ elements.Nodup ∧
        ∀ element ∈ elements, element.length < lenErr
  | .setIntset blob =>
      blob.length < lenErr ∧
        server.intsetValidateIntegrity blob (deepIntegrityValidation server) = true
  | .setListpack lp => PackedValid server 1 lp
  | .zsetListpack lp => PackedValid server 2 lp
  | .zsetSkiplist elements =>
      elements ≠ [] ∧ elements.length < lenErr ∧ (elements.map Prod.fst).Nodup ∧
        ∀ element ∈ elements, element.1.length < lenErr ∧ isNan element.2 = false
  | .hashListpack lp => PackedValid server 2 lp
  | .hashListpackEx minExpire lp =>
      PackedValid server 3 lp ∧ minExpire = server.listpackExGetMinExpire lp
  | .hash minExpire fields => FieldsValid server fields ∧ minExpire = minExpireOf fields
  | .stream s => StreamValid server s
  | .module mv => ModuleValid server mv

/-- There is memory for the tables in which the contents are loaded. -/
def Contents.Fits (server : ObjectServer) : Contents → Prop
  | .set elements => server.dictTryExpand elements.length = true
  | .zsetSkiplist elements => server.dictTryExpand elements.length = true
  | .hash _ fields => ∀ len ≤ fields.length, server.dictTryExpand len = true
  | _ => True

/-- The contents in the form in which they are loaded. -/
def Contents.loaded (server : ObjectServer) : Contents → Contents
  | .quicklist nodes => .quicklist (nodes.map (QuicklistNode.loaded server))
  | .listListpack lp => .quicklist [.raw server.format.containerPacked lp]
  | contents => contents

/-- The codes of the types are told apart, and the other numbers of the format
are small. -/
structure ObjectServer.Sound (server : ObjectServer) : Prop where
  load : server.toLoadServer.Sound
  type_injective : Function.Injective server.format.type
  containerPacked_lt : server.format.containerPacked < lenErr
  containerPlain_lt : server.containerPlain < lenErr
  moduleOpcodeEof_lt : server.format.moduleOpcodeEof < lenErr
  expireTimeMax_lt : server.expireTimeMax < 2 ^ 63

variable {server : ObjectServer} {rio : Rio σ}

theorem mem_of_split {α : Type} {items done rest : List α} {item : α}
    (h : items = done ++ item :: rest) : item ∈ items := by
  rw [h]
  exact List.mem_append_right done List.mem_cons_self

/-- A key that occurs once is new when its element is read. -/
theorem key_not_mem {α κ : Type} {key : α → κ} {items done rest : List α} {item : α}
    (hNodup : (items.map key).Nodup) (h : items = done ++ item :: rest) :
    key item ∉ done.map key := by
  rw [h, List.map_append, List.map_cons] at hNodup
  exact fun hDone => List.disjoint_of_nodup_append hNodup hDone List.mem_cons_self

/-- A collection that may be empty. -/
theorem loadsBack_loop {α γ : Type} (hServer : server.Sound) {f : α → Save σ Nat}
    {body : γ → Reader UInt8 γ} (state : List α → γ) {items : List α}
    (hLen : items.length < lenErr)
    (h : ∀ done item rest, items = done ++ item :: rest →
      LoadsBack (f item) (body (state done)) (state (done ++ [item]))) :
    LoadsBack (rdbSaveCounted server.toServer rio f items)
      (rdbDemandLen server.toLoadServer >>= fun len => repeatFrom body len (state []))
      (state items) := by
  refine (loadsBack_demandLen hServer.load.format hLen).bind fun n => ?_
  exact (loadsBack_each state [] items h).counted fun rest => n + rest

/-- A collection that is not empty. -/
theorem loadsBack_counted {α γ : Type} (hServer : server.Sound) {f : α → Save σ Nat}
    {body : γ → Reader UInt8 γ} (state : List α → γ) {items : List α} (hEmpty : items ≠ [])
    (hLen : items.length < lenErr)
    (h : ∀ done item rest, items = done ++ item :: rest →
      LoadsBack (f item) (body (state done)) (state (done ++ [item]))) :
    LoadsBack (rdbSaveCounted server.toServer rio f items)
      (rdbLoadCounted server body (state [])) (some (state items)) := by
  refine (loadsBack_demandLen hServer.load.format hLen).bind fun n => ?_
  rw [if_neg (by simpa using hEmpty)]
  refine LoadsBack.counted ?_ fun rest => n + rest
  exact (loadsBack_each state [] items h).then_pure rfl

/-- Where there is memory the size of a table is no obstacle. -/
theorem cannotExpand_of_expand {len : Nat} (h : server.dictTryExpand len = true) :
    cannotExpand server len = false := by
  rw [cannotExpand, h]
  exact Bool.and_false _

/-- Where there is memory for a table, every element finds an encoding. -/
theorem exists_encodingFor {len : Nat} (h : server.dictTryExpand len = true) (set : LoadedSet)
    (sdsele : Bytes) : ∃ encoding, set.encodingFor server len sdsele = some encoding := by
  simp only [LoadedSet.encodingFor, if_pos h]
  split
  · exact ⟨_, rfl⟩
  · split_ifs <;> exact ⟨_, rfl⟩
  · split_ifs <;> exact ⟨_, rfl⟩

/-- The elements of a set differ, so none is refused, whatever encoding the set
has by then. -/
theorem loadsBack_setElements (hServer : server.Sound) {elements : List Bytes}
    (hLen : elements.length < 2 ^ 32) (hNodup : elements.Nodup)
    (hElements : ∀ element ∈ elements, element.length < lenErr)
    (hFits : server.dictTryExpand elements.length = true) {start : LoadedSet}
    (hStart : start.elements = []) : ∃ last : LoadedSet,
    LoadsBack (Save.each (rdbSaveRawString server.toServer rio) elements)
      (rdbLoadSetElements server elements.length start) last ∧ last.elements = elements := by
  rw [rdbLoadSetElements, if_pos hLen]
  refine exists_loadsBack_each (I := fun done (set : LoadedSet) => set.elements = done) [] elements
    hStart
    fun done element rest set hSplit hDone => ?_
  obtain ⟨encoding, hEncoding⟩ := exists_encodingFor hFits set element
  have hNew : element ∉ set.elements := by
    have hKey : id element ∉ done.map id := key_not_mem (by rwa [List.map_id]) hSplit
    rwa [List.map_id, ← hDone] at hKey
  refine ⟨⟨encoding, set.elements ++ [element], max set.maxelelen element.length,
    set.sumelelen + element.length⟩, ?_, by rw [hDone]⟩
  refine (loadsBack_rawString hServer.load (hElements element (mem_of_split hSplit))).then_pure ?_
  rw [hEncoding]
  exact if_neg hNew

/-- A set, whose length the counter of the loader can reach. -/
theorem loadsBack_set (hServer : server.Sound) {elements : List Bytes}
    (hValid : (Contents.set elements).Valid server) (hFits : (Contents.set elements).Fits server) :
    LoadsBack (rdbSaveCounted server.toServer rio (rdbSaveRawString server.toServer rio) elements)
      (rdbLoadSet server) (some elements) := by
  obtain ⟨hEmpty, hLen, hNodup, hElements⟩ := hValid
  have hLenErr : elements.length < lenErr := hLen.trans (by decide)
  refine (loadsBack_demandLen hServer.load.format hLenErr).bind fun n => ?_
  rw [if_neg (by simpa using hEmpty), if_neg (by simp [cannotExpand_of_expand hFits])]
  obtain ⟨last, hEach, hLast⟩ : ∃ last : LoadedSet, LoadsBack
      (Save.each (rdbSaveRawString server.toServer rio) elements)
      (rdbLoadSetElements server elements.length
        ⟨if min server.setMaxIntsetEntries (2 ^ 30) < elements.length then .table else .intset,
          [], 0, 0⟩) last ∧ last.elements = elements :=
    loadsBack_setElements hServer hLen hNodup hElements hFits rfl
  refine LoadsBack.counted (hEach.then_pure ?_) fun rest => n + rest
  rw [hLast]

/-- A score is eight bytes, whatever they mean. -/
theorem loadsBack_doubleValue (score : UInt64) :
    LoadsBack (rdbSaveBinaryDoubleValue rio score) rdbLoadBinaryDoubleValue score := by
  have hDemand := reads_demand (littleEndian 8 score.toNat)
  rw [length_littleEndian] at hDemand
  refine loadsBack_of_reads (hDemand.then_pure ?_)
  rw [ofLittleEndian_littleEndian score.toNat_lt, UInt64.ofNat_toNat]

/-- A sorted set, in the order in which it is written. -/
theorem loadsBack_zset (hServer : server.Sound) {elements : List (Bytes × UInt64)}
    (hValid : (Contents.zsetSkiplist elements).Valid server)
    (hFits : (Contents.zsetSkiplist elements).Fits server) :
    LoadsBack (rdbSaveCounted server.toServer rio (rdbSaveZsetElement server.toServer rio) elements)
      (rdbLoadZset server rdbLoadBinaryDoubleValue) (some elements) := by
  obtain ⟨hEmpty, hLen, hNodup, hElements⟩ := hValid
  refine (loadsBack_demandLen hServer.load.format hLen).bind fun n => ?_
  rw [if_neg (by simpa using hEmpty), if_neg (by simp [cannotExpand_of_expand hFits])]
  refine LoadsBack.counted ?_ fun rest => n + rest
  have hEach : LoadsBack (Save.each (rdbSaveZsetElement server.toServer rio) elements)
      (repeatFrom (rdbLoadZsetElement server rdbLoadBinaryDoubleValue) elements.length [])
      elements := by
    refine loadsBack_each id [] elements fun done element rest hSplit => ?_
    obtain ⟨hShort, hNumber⟩ := hElements element (mem_of_split hSplit)
    refine (loadsBack_rawString hServer.load hShort).bind fun n => LoadsBack.counted ?_ fun score =>
      n + score
    refine (loadsBack_doubleValue element.2).then_pure ?_
    rw [if_neg (by rw [hNumber]; decide)]
    exact if_neg (key_not_mem hNodup hSplit)
  exact hEach.then_pure rfl

/-- A node is kept if it is a plain one or has entries. -/
theorem loadsBack_node (hServer : server.Sound) {container : Nat} {entry : Bytes}
    {saveData : Save σ Nat} (nodes : List QuicklistNode) (hNode : NodeValid server container entry)
    (hData : LoadsBack saveData (rdbGenericLoadStringObject server.toLoadServer) entry)
    (total : Nat → Nat → Nat) :
    LoadsBack (rdbSaveLen server.toServer rio container >>= fun n =>
        saveData >>= fun data => pure (total n data))
      (rdbLoadQuicklistNode server nodes) (nodes ++ [.raw container entry]) := by
  have hContainer : container < lenErr := by
    rcases hNode.container_eq with rfl | rfl
    · exact hServer.containerPacked_lt
    · exact hServer.containerPlain_lt
  have hKnown : ¬ (container ≠ server.format.containerPacked ∧ container ≠ server.containerPlain) :=
    fun h => hNode.container_eq.elim h.1 h.2
  refine (loadsBack_demandLen hServer.load.format hContainer).bind fun n => ?_
  rw [if_neg hKnown]
  refine LoadsBack.counted (hData.then_pure ?_) (total n)
  rw [if_neg hNode.length_pos]
  split_ifs with hPlain hRefused hEmpty
  · rfl
  · rw [(hNode.packed hPlain).1] at hRefused
    cases hRefused
  · exact absurd hEmpty (hNode.packed hPlain).2
  · rfl

/-- A list comes back with its nodes decompressed. -/
theorem loadsBack_quicklist (hServer : server.Sound) {nodes : List QuicklistNode}
    (hEmpty : nodes ≠ []) (hLen : nodes.length < lenErr)
    (hNodes : ∀ node ∈ nodes, node.Valid server) :
    LoadsBack (rdbSaveCounted server.toServer rio (rdbSaveQuicklistNode server.toServer rio) nodes)
      (rdbLoadCounted server (rdbLoadQuicklistNode server) [])
      (some (nodes.map (QuicklistNode.loaded server))) := by
  refine loadsBack_counted hServer (List.map (QuicklistNode.loaded server)) hEmpty hLen
    fun done node rest hSplit => ?_
  have hNode := hNodes node (mem_of_split hSplit)
  rw [List.map_append, List.map_singleton]
  cases node with
  | raw container entry =>
      have hValid : NodeValid server container entry := hNode
      exact loadsBack_node hServer _ hValid (loadsBack_rawString hServer.load hValid.length_lt) _
  | lzf container data size =>
      obtain ⟨hData, hSize, entry, hEntry, hValid⟩ := hNode
      rw [QuicklistNode.loaded, hEntry]
      exact loadsBack_node hServer _ hValid (loadsBack_lzfBlob hServer.load hData hSize hEntry) _

/-- A listpack of a list is saved as a list of one node. -/
theorem loadsBack_listListpack (hServer : server.Sound) {lp : Bytes}
    (hLp : NodeValid server server.format.containerPacked lp) :
    LoadsBack (rdbSaveContents server.toServer rio (.listListpack lp))
      (rdbLoadCounted server (rdbLoadQuicklistNode server) [])
      (some [.raw server.format.containerPacked lp]) := by
  refine (loadsBack_demandLen hServer.load.format (by decide)).bind fun count => ?_
  have hData : LoadsBack (rdbSaveRawString server.toServer rio lp)
      (rdbGenericLoadStringObject server.toLoadServer) lp :=
    loadsBack_rawString hServer.load hLp.length_lt
  have hOne : LoadsBack
      (rdbSaveLen server.toServer rio server.format.containerPacked >>= fun container =>
        rdbSaveRawString server.toServer rio lp >>= fun data => pure (count + container + data))
      (repeatFrom (rdbLoadQuicklistNode server) 1 []) [.raw server.format.containerPacked lp] :=
    (loadsBack_node hServer [] hLp hData fun container data => count + container + data).then_pure
      rfl
  exact hOne.then_pure rfl

/-- How the times of a hash with this least one are saved. -/
def HashTtl.saved : Option UInt64 → HashTtl
  | Option.none => .none
  | some least => .relative least.toNat

/-- The distance to the least time, with one added, so that it is not zero. -/
theorem toNat_ttl {least expiryTime : UInt64} (hLeast : least ≤ expiryTime)
    (hLt : expiryTime.toNat < 2 ^ 63) : (expiryTime - least + 1).toNat =
      expiryTime.toNat - least.toNat + 1 := by
  rw [UInt64.toNat_add, UInt64.toNat_sub_of_le _ _ hLeast, UInt64.toNat_one]
  omega

/-- The time of a field comes back from its distance to the least one. -/
theorem loadsBack_ttl (hServer : server.Sound) {minExpire : Option UInt64} {f : HashField}
    (hNone : minExpire = none → f.expireTime = none)
    (hTimes : ∀ least t, minExpire = some least → f.expireTime = some t → least ≤ t)
    (hRange : ∀ t, f.expireTime = some t → 0 < t.toNat ∧ t.toNat ≤ server.expireTimeMax) :
    LoadsBack (rdbSaveTtl server.toServer rio minExpire f)
      (rdbLoadTtl server (.saved minExpire)) f.expireTime := by
  cases minExpire with
  | none =>
      rw [hNone rfl]
      exact loadsBack_pure 0 none
  | some least =>
      rw [rdbLoadTtl, HashTtl.saved, if_neg (fun h => by cases h)]
      cases hTime : f.expireTime with
      | none =>
          simp only [rdbSaveTtl, hTime]
          refine (loadsBack_rdbSaveLen hServer.load.format (by decide)).then_pure ?_
          simp [HashTtl.expireAt]
      | some t =>
          have hLeast := hTimes least t rfl hTime
          obtain ⟨hPos, hMax⟩ := hRange t hTime
          have hMaxLt := hServer.expireTimeMax_lt
          have hTtl := toNat_ttl hLeast (by omega)
          have hLe : least.toNat ≤ t.toNat := hLeast
          simp only [rdbSaveTtl, hTime]
          refine (loadsBack_rdbSaveLen hServer.load.format (t - least + 1).toNat_lt).then_pure ?_
          have hBack : ((t - least + 1).toNat + least.toNat + (2 ^ 64 - 1)) % 2 ^ 64 = t.toNat := by
            rw [hTtl]
            omega
          have hNonzero : (t - least + 1).toNat ≠ 0 := by omega
          have hExpire :
              (HashTtl.relative least.toNat).expireAt (t - least + 1).toNat = t.toNat := by
            rw [HashTtl.expireAt, if_pos hNonzero, hBack]
          dsimp only
          rw [hExpire, if_neg (by omega), if_neg (by omega), UInt64.ofNat_toNat]

/-- A new field is added, to the listpack or to a table for which there is memory. -/
theorem loadsBack_hashField (hServer : server.Sound) {minExpire : Option UInt64}
    {hash : LoadedHash} {f : HashField}
    (hTtl : LoadsBack (rdbSaveTtl server.toServer rio minExpire f)
      (rdbLoadTtl server (.saved minExpire)) f.expireTime)
    (hField : f.field.length < lenErr) (hValue : f.value.length < lenErr)
    (hNodup : (hash.fields.map HashField.field).Nodup)
    (hNew : f.field ∉ hash.fields.map HashField.field)
    (hFits : server.dictTryExpand (hash.len - 1) = true) :
    ∃ isTable, LoadsBack (rdbSaveHashField server.toServer rio minExpire f)
      (rdbLoadHashField server (.saved minExpire) hash)
      ⟨isTable, hash.fields ++ [f], hash.len - 1⟩ := by
  refine ⟨hash.isTable || !lpTakes server (.saved minExpire) hash.fields f, ?_⟩
  refine hTtl.bind fun ttl => (loadsBack_rawString hServer.load hField).bind fun field =>
    LoadsBack.counted ((loadsBack_rawString hServer.load hValue).then_pure ?_) fun value =>
      ttl + field + value
  have hAdd : addToTable hash.fields f (hash.len - 1) =
      pure ⟨true, hash.fields ++ [f], hash.len - 1⟩ :=
    if_pos ⟨hNodup, hNew⟩
  dsimp only
  split_ifs with hTable hDup hTakes hMemory
  · rw [hAdd, hTable, Bool.true_or]
  · exact absurd hDup.2 hNew
  · rw [hTakes, Bool.eq_false_of_not_eq_true hTable]
    rfl
  · rw [cannotExpand_of_expand hFits] at hMemory
    cases hMemory
  · rw [hAdd, Bool.eq_false_of_not_eq_true hTakes]
    rw [Bool.not_false, Bool.or_true]

/-- The time of every field of a valid hash. -/
theorem loadsBack_fieldTtl (hServer : server.Sound) {minExpire : Option UInt64}
    {fields : List HashField} (hFields : FieldsValid server fields)
    (hMin : minExpire = minExpireOf fields) {f : HashField} (hMem : f ∈ fields) :
    LoadsBack (rdbSaveTtl server.toServer rio minExpire f)
      (rdbLoadTtl server (.saved minExpire)) f.expireTime := by
  refine loadsBack_ttl hServer ?_ ?_ (hFields.times f hMem)
  · intro hNone
    rw [hMin, minExpireOf, List.min?_eq_none_iff, List.filterMap_eq_nil_iff] at hNone
    exact hNone f hMem
  · intro least t hLeast hTime
    rw [hMin, minExpireOf, List.min?_eq_some_iff] at hLeast
    exact hLeast.2 t (List.mem_filterMap.mpr ⟨f, hMem, hTime⟩)

/-- The fields of a hash differ, so none is refused in either encoding. -/
theorem loadsBack_hashFields (hServer : server.Sound) {minExpire : Option UInt64}
    {fields : List HashField} (hFields : FieldsValid server fields)
    (hMin : minExpire = minExpireOf fields)
    (hFits : ∀ len ≤ fields.length, server.dictTryExpand len = true) (isTable : Bool) :
    ∃ last : LoadedHash, LoadsBack
      (Save.each (rdbSaveHashField server.toServer rio minExpire) fields)
      (repeatFrom (rdbLoadHashField server (.saved minExpire)) fields.length
        ⟨isTable, [], fields.length⟩) last ∧ last.fields = fields ∧ last.len ≤ fields.length := by
  refine exists_loadsBack_each
    (I := fun done (hash : LoadedHash) => hash.fields = done ∧ hash.len ≤ fields.length)
    [] fields ⟨rfl, Nat.le_refl _⟩ fun done f rest hash hSplit hHash => ?_
  obtain ⟨rfl, hLen⟩ := hHash
  have hMem : f ∈ fields := mem_of_split hSplit
  have hNodup : (hash.fields.map HashField.field).Nodup := by
    have hAll := hFields.nodup
    rw [show fields = hash.fields ++ f :: rest from hSplit, List.map_append] at hAll
    exact hAll.of_append_left
  obtain ⟨hField, hValue⟩ := hFields.lengths f hMem
  obtain ⟨isTable, hLoad⟩ := loadsBack_hashField hServer
    (loadsBack_fieldTtl hServer hFields hMin hMem) hField hValue hNodup
    (key_not_mem hFields.nodup hSplit) (hFits (hash.len - 1) (by omega))
  exact ⟨_, hLoad, rfl, (Nat.sub_le _ _).trans hLen⟩

/-- A hash with times or without. -/
theorem loadsBack_hash (hServer : server.Sound) {minExpire : Option UInt64}
    {fields : List HashField} (hFields : FieldsValid server fields)
    (hMin : minExpire = minExpireOf fields)
    (hFits : ∀ len ≤ fields.length, server.dictTryExpand len = true) :
    LoadsBack (rdbSaveCounted server.toServer rio (rdbSaveHashField server.toServer rio minExpire)
        fields)
      (rdbLoadHash server (.saved minExpire)) (some fields) := by
  refine (loadsBack_demandLen hServer.load.format hFields.length_lt).bind fun n => ?_
  rw [if_neg (by simpa using hFields.nonempty),
    if_neg (by simp [cannotExpand_of_expand (hFits _ (Nat.le_refl _))])]
  obtain ⟨last, hEach, hLast, _⟩ := loadsBack_hashFields hServer hFields hMin hFits
    (server.hashMaxListpackEntries < fields.length)
  refine LoadsBack.counted (hEach.then_pure ?_) fun rest => n + rest
  rw [hLast]

/-- A packed collection comes back as the same bytes. -/
theorem loadsBack_listpack (hServer : server.Sound) {tupleLen : Nat} {lp : Bytes}
    (hLp : PackedValid server tupleLen lp) (make : Bytes → Contents) :
    LoadsBack (rdbSaveRawString server.toServer rio lp) (rdbLoadListpack server tupleLen make)
      (some (make lp)) := by
  refine (loadsBack_rawString hServer.load hLp.length_lt).then_pure ?_
  rw [hLp.valid, if_neg (by decide), if_neg hLp.nonempty]

theorem loadsBack_streamID (hServer : server.Sound) {id : StreamID} (hId : id.Valid) :
    LoadsBack (rdbSaveStreamID server.toServer rio id) (rdbLoadStreamID server) id := by
  refine (loadsBack_plainLen hServer.load.format hId.ms_lt).bind fun ms => LoadsBack.counted ?_
    fun seq => ms + seq
  exact (loadsBack_plainLen hServer.load.format hId.seq_lt).then_pure rfl

/-- Where no read has failed, the check for it changes nothing. -/
theorem reads_giveUpIfFailed {α : Type} {load : Reader UInt8 α} {used : Bytes} {a : α}
    (h : Reads load used a) : Reads (giveUpIfFailed >>= fun _ => load) used a := by
  have hGo : Reads giveUpIfFailed [] () := reads_failed.then_pure rfl
  exact hGo.bind h

/-- A check for failed reads passes after what was written. -/
theorem LoadsBack.unlessFailed {ν α : Type} {save : Save σ ν} {load : Reader UInt8 α} {a : α}
    (h : LoadsBack save load a) : LoadsBack save (giveUpIfFailed >>= fun _ => load) a := by
  intro channel n channel' hSave
  obtain ⟨bytes, hBytes, hReads⟩ := h _ _ _ hSave
  exact ⟨bytes, hBytes, reads_giveUpIfFailed hReads⟩

/-- What is made of the value, with a look at whether a read has failed. -/
theorem LoadsBack.then_reads {ν α β : Type} {save : Save σ ν} {load : Reader UInt8 α}
    {g : α → Reader UInt8 β} {a : α} {b : β} (h : LoadsBack save load a) (hg : Reads (g a) [] b) :
    LoadsBack save (load >>= g) b := by
  intro channel n channel' hSave
  obtain ⟨bytes, hBytes, hReads⟩ := h _ _ _ hSave
  have hBoth := hReads.bind hg
  rw [List.append_nil] at hBoth
  exact ⟨bytes, hBytes, hBoth⟩

theorem loadsBack_raw {p : Bytes} {length : Nat} (hLength : p.length = length) :
    LoadsBack (rdbWriteRaw rio p) (demand length) p := by
  rw [← hLength]
  exact loadsBack_of_reads (reads_demand p)

/-- The pending list of a group. -/
theorem loadsBack_pel (hServer : server.Sound) {pel : List StreamNack}
    (hLen : pel.length < lenErr) (hNodup : (pel.map StreamNack.id).Nodup)
    (hNacks : ∀ nack ∈ pel, NackValid nack) :
    LoadsBack (rdbSaveStreamPEL server.toServer rio pel true)
      (rdbDemandLen server.toLoadServer >>= fun len => repeatFrom (rdbLoadStreamNack server) len [])
      pel := by
  refine loadsBack_loop hServer id hLen fun done nack rest hSplit => ?_
  have hNack := hNacks nack (mem_of_split hSplit)
  refine (loadsBack_raw hNack.id_length).bind fun n => ?_
  refine (loadsBack_millisecondTime hNack.time_ge hNack.time_lt).bind fun time => ?_
  refine LoadsBack.counted ?_ fun count => n + time + count
  refine (loadsBack_plainLen hServer.load.format hNack.count_lt).then_reads
    (reads_giveUpIfFailed ?_)
  rw [id_eq, if_neg (key_not_mem hNodup hSplit)]
  exact reads_pure (done ++ [nack])

/-- A pending entry of the group is found by its ID. -/
theorem find_nack {group : List StreamNack} (hNodup : (group.map StreamNack.id).Nodup)
    {nack : StreamNack} (hMem : nack ∈ group) :
    group.find? (fun other => other.id = nack.id) = some nack := by
  induction group with
  | nil => cases hMem
  | cons first group ih =>
      rw [List.map_cons, List.nodup_cons] at hNodup
      rcases List.mem_cons.mp hMem with rfl | hRest
      · rw [List.find?_cons_of_pos (by simp)]
      · have hOther : first.id ≠ nack.id := fun h =>
          hNodup.1 (h ▸ List.mem_map_of_mem hRest)
        rw [List.find?_cons_of_neg (by simpa using hOther), ih hNodup.2 hRest]

/-- The pending list of a consumer. -/
theorem loadsBack_consumerPel (hServer : server.Sound) {group : List StreamNack}
    (hGroup : (group.map StreamNack.id).Nodup) (hNacks : ∀ nack ∈ group, NackValid nack)
    {consumer : StreamConsumer} (hConsumer : ConsumerValid group consumer) :
    LoadsBack (rdbSaveStreamPEL server.toServer rio consumer.pel false)
      (rdbDemandLen server.toLoadServer >>= fun len =>
        repeatFrom (rdbLoadConsumerNack group) len []) consumer.pel := by
  refine loadsBack_loop hServer id hConsumer.pel_length fun done nack rest hSplit => ?_
  have hMem := hConsumer.pel_group nack (mem_of_split hSplit)
  refine LoadsBack.counted ((loadsBack_raw (hNacks nack hMem).id_length).then_pure ?_) id
  simp only [find_nack hGroup hMem]
  exact if_neg (key_not_mem hConsumer.pel_nodup hSplit)

/-- The last version has both times of a consumer. -/
theorem loadsBack_activeTime {activeTime : Int} (hGe : -2 ^ 63 ≤ activeTime)
    (hLt : activeTime < 2 ^ 63) (seenTime : Int) :
    LoadsBack (rdbSaveMillisecondTime rio activeTime) (rdbLoadActiveTime 3 seenTime)
      activeTime := by
  rw [rdbLoadActiveTime, if_pos (Nat.le_refl 3)]
  exact (loadsBack_millisecondTime hGe hLt).then_reads (reads_giveUpIfFailed (reads_pure _))

/-- The consumers of a group, with pending entries that the group has. -/
theorem loadsBack_consumers (hServer : server.Sound) {cg : StreamCG} (hCg : CGValid cg) :
    LoadsBack (rdbSaveStreamConsumers server.toServer rio cg)
      (rdbDemandLen server.toLoadServer >>= fun len =>
        repeatFrom (rdbLoadStreamConsumer server 3 cg.pel) len []) cg.consumers := by
  refine loadsBack_loop hServer id hCg.consumers_length fun done consumer rest hSplit => ?_
  have hConsumer := hCg.consumers consumer (mem_of_split hSplit)
  refine (loadsBack_rawString hServer.load hConsumer.name_length).bind fun name => ?_
  rw [id_eq, if_neg (key_not_mem hCg.consumers_nodup hSplit)]
  refine (loadsBack_millisecondTime hConsumer.seen_ge hConsumer.seen_lt).bind fun seen =>
    LoadsBack.unlessFailed ?_
  refine (loadsBack_activeTime hConsumer.active_ge hConsumer.active_lt _).bind fun active =>
    LoadsBack.counted ?_ fun pel => name + seen + active + pel
  rw [← Reader.bind_assoc]
  exact (loadsBack_consumerPel hServer hCg.pel_nodup hCg.nacks hConsumer).then_pure rfl

/-- The number of entries read is a signed one. -/
theorem loadsBack_offset (hServer : server.Sound) {cg : StreamCG} (hCg : CGValid cg)
    (s : StreamObject) (lastId : StreamID) :
    LoadsBack (rdbSaveLen server.toServer rio (cg.entriesRead % 2 ^ 64).toNat)
      (rdbLoadOffset server 3 s lastId) cg.entriesRead := by
  have hRead : (cg.entriesRead % 2 ^ 64).toNat < 2 ^ 64 := by omega
  have hSigned : signed 8 (cg.entriesRead % 2 ^ 64).toNat = cg.entriesRead :=
    signed_toNat (show 0 < 8 by decide) hCg.read_ge hCg.read_lt
  rw [rdbLoadOffset, if_pos (by decide)]
  refine (loadsBack_plainLen hServer.load.format hRead).then_reads (reads_giveUpIfFailed ?_)
  rw [hSigned]
  exact reads_pure _

/-- A group, whose pending entries come before its consumers. -/
theorem loadsBack_cgroup (hServer : server.Sound) (s : StreamObject) {cg : StreamCG}
    (hCg : CGValid cg) {done : List StreamCG} (hNew : cg.name ∉ done.map StreamCG.name) :
    LoadsBack (rdbSaveStreamCG server.toServer rio cg) (rdbLoadStreamCG server 3 s done)
      (done ++ [cg]) := by
  refine (loadsBack_rawString hServer.load hCg.name_length).bind fun name => ?_
  refine (loadsBack_streamID hServer hCg.lastId).bind fun lastId => LoadsBack.unlessFailed ?_
  refine (loadsBack_offset hServer hCg s cg.lastId).bind fun read => ?_
  rw [if_neg hNew]
  rw [← Reader.bind_assoc]
  refine (loadsBack_pel hServer hCg.pel_length hCg.pel_nodup hCg.nacks).bind fun pel => ?_
  rw [← Reader.bind_assoc]
  refine LoadsBack.counted ((loadsBack_consumers hServer hCg).then_pure ?_) fun consumers =>
    name + lastId + read + pel + consumers
  rw [if_neg fun h => h.2 hCg.owned]

/-- A node of a stream, whose key is new. -/
theorem loadsBack_streamNode (hServer : server.Sound) {done : List (Bytes × Bytes)}
    {node : Bytes × Bytes} (hKey : node.1.length = 16) (hLen : node.2.length < lenErr)
    (hValid : server.streamValidateListpackIntegrity node.2 (deepIntegrityValidation server) = true)
    (hFirst : server.lpHasFirst node.2 = true) (hNew : node.1 ∉ done.map Prod.fst) :
    LoadsBack (do
        let key ← rdbSaveRawString server.toServer rio node.1
        let lp ← rdbSaveRawString server.toServer rio node.2
        return key + lp)
      (rdbLoadStreamNode server done) (done ++ [node]) := by
  have hKeyLen : node.1.length < lenErr := by
    rw [hKey, lenErr]
    decide
  refine (loadsBack_rawString hServer.load hKeyLen).bind fun key => ?_
  rw [if_neg (not_not_intro hKey)]
  refine LoadsBack.counted ((loadsBack_rawString hServer.load hLen).then_pure ?_) fun lp => key + lp
  rw [hValid, hFirst, if_neg (by decide), if_neg (by decide), if_neg hNew]

theorem loadsBack_streamNodes (hServer : server.Sound) {s : StreamObject}
    (hStream : StreamValid server s) :
    LoadsBack (rdbSaveCounted server.toServer rio (fun node => do
        let key ← rdbSaveRawString server.toServer rio node.1
        let lp ← rdbSaveRawString server.toServer rio node.2
        return key + lp) s.listpacks)
      (rdbDemandLen server.toLoadServer >>= fun len => repeatFrom (rdbLoadStreamNode server) len [])
      s.listpacks := by
  refine loadsBack_loop hServer id hStream.listpacks_length fun done node rest hSplit => ?_
  obtain ⟨hKey, hLen, hValid, hFirst⟩ := hStream.nodes node (mem_of_split hSplit)
  exact loadsBack_streamNode hServer hKey hLen hValid hFirst
    (key_not_mem hStream.keys_nodup hSplit)

/-- The groups of a stream, with different names. -/
theorem loadsBack_cgroups (hServer : server.Sound) {s : StreamObject}
    (hStream : StreamValid server s) (loaded : StreamObject) :
    LoadsBack (rdbSaveCounted server.toServer rio (rdbSaveStreamCG server.toServer rio) s.cgroups)
      (rdbDemandLen server.toLoadServer >>= fun len =>
        repeatFrom (rdbLoadStreamCG server 3 loaded) len [])
      s.cgroups :=
  loadsBack_loop hServer id hStream.cgroups_length fun _ cg _ hSplit =>
    loadsBack_cgroup hServer loaded (hStream.cgroups cg (mem_of_split hSplit))
      (key_not_mem hStream.cgroups_nodup hSplit)

/-- What the third version stores of a stream without its groups. -/
theorem streamMetadata_three (listpacks : List (Bytes × Bytes)) :
    rdbLoadStreamMetadata server 3 listpacks =
      rdbLoadPlainLen server.toLoadServer >>= fun length => rdbLoadStreamID server >>= fun lastId =>
        rdbLoadStreamID server >>= fun firstId => rdbLoadStreamID server >>= fun deletedId =>
          rdbLoadPlainLen server.toLoadServer >>= fun added =>
            pure ⟨listpacks, length, lastId, firstId, deletedId, added, []⟩ :=
  rfl

/-- A stream with its nodes, its numbers and its groups. -/
theorem loadsBack_stream (hServer : server.Sound) {s : StreamObject}
    (hStream : StreamValid server s) :
    LoadsBack (rdbSaveStream server.toServer rio s) (rdbLoadStream server 3) s := by
  have hFormat := hServer.load.format
  rw [rdbLoadStream, ← Reader.bind_assoc]
  refine (loadsBack_streamNodes hServer hStream).bind fun listpacks => ?_
  rw [streamMetadata_three]
  simp only [Reader.bind_assoc]
  refine (loadsBack_plainLen hFormat hStream.length_lt).bind fun length => ?_
  refine (loadsBack_streamID hServer hStream.lastId).bind fun lastId => ?_
  refine (loadsBack_streamID hServer hStream.firstId).bind fun firstId => ?_
  refine (loadsBack_streamID hServer hStream.deletedId).bind fun deletedId => ?_
  refine (loadsBack_plainLen hFormat hStream.added_lt).bind fun added => LoadsBack.unlessFailed ?_
  rw [if_neg fun h => hStream.length_nodes h.1 h.2, ← Reader.bind_assoc]
  refine LoadsBack.counted ?_ fun cgroups =>
    listpacks + length + lastId + firstId + deletedId + added + cgroups
  exact (loadsBack_cgroups hServer hStream _).then_pure rfl

/-- The writes of a module, one after the other. -/
theorem flatten_writes_each {writes : List Bytes} {channel channel' : Channel σ} {n : Nat}
    (h : Save.each (rdbWriteRaw rio) writes channel = (some n, channel')) :
    channel'.writes.flatten = channel.writes.flatten ++ writes.flatten := by
  induction writes generalizing channel n with
  | nil =>
      obtain rfl : channel = channel' := congrArg Prod.snd h
      exact (List.append_nil _).symm
  | cons p writes ih =>
      obtain ⟨_, between, hWrite, hRest⟩ := Save.bind_eq_some.mp h
      obtain ⟨_, last, hEach, hPure⟩ := Save.bind_eq_some.mp hRest
      obtain rfl : last = channel' := congrArg Prod.snd hPure
      have hWrites : (rdbWriteRaw rio p channel).2.writes = channel.writes ++ [p] := rfl
      rw [hWrite] at hWrites
      rw [ih hEach, hWrites, List.flatten_append, List.flatten_singleton, List.append_assoc,
        List.flatten_cons]

/-- A module's value, which its own callback reads. -/
theorem loadsBack_module (hServer : server.Sound) {mv : ModuleValue}
    (hModule : ModuleValid server mv) :
    LoadsBack (rdbSaveModule server.toServer rio mv) (rdbLoadModule server) mv := by
  refine (loadsBack_plainLen hServer.load.format hModule.id_lt).bind fun id =>
    LoadsBack.unlessFailed ?_
  rw [hModule.known, if_neg (by decide)]
  intro channel n channel' h
  rcases hEach : Save.each (rdbWriteRaw rio) mv.saves channel with ⟨_ | written, between⟩
  · simp only [hEach] at h
    cases h
  · simp only [hEach] at h
    have hEof : LoadsBack
        (rdbSaveLen server.toServer rio server.format.moduleOpcodeEof >>= fun eof =>
          pure (id + written + eof))
        (rdbDemandLen server.toLoadServer >>= fun eof =>
          if eof ≠ server.format.moduleOpcodeEof then fail else pure mv) mv := by
      refine LoadsBack.counted ?_ fun eof => id + written + eof
      refine (loadsBack_demandLen hServer.load.format hServer.moduleOpcodeEof_lt).then_pure ?_
      exact if_neg (not_not_intro rfl)
    obtain ⟨bytes, hBytes, hReads⟩ := hEof _ _ _ h
    refine ⟨mv.saves.flatten ++ bytes, ?_, hModule.reads.bind hReads⟩
    rw [hBytes, flatten_writes_each hEach, List.append_assoc]

/-- What an object holds, as the loader sees it. -/
def Robj.value (server : ObjectServer) : Robj → Value
  | .string (.sds s) => .string s.bytes
  | .string (.int value) => .string (server.ll2string value)
  | .other _ contents => .other (contents.loaded server)

def Robj.Valid (server : ObjectServer) : Robj → Prop
  | .string _ => True
  | .other _ contents => contents.Valid server

def Robj.Fits (server : ObjectServer) : Robj → Prop
  | .string _ => True
  | .other _ contents => contents.Fits server

/-- Contents that are loaded make a value. -/
theorem loadsBack_asContents {α ν : Type} {save : Save σ ν} {load : Reader UInt8 (Option α)}
    {a : α} (h : LoadsBack save load (some a)) (make : α → Contents) :
    LoadsBack save (asContents make load) (some (.other (make a))) :=
  h.then_pure rfl

/-- The least time of a hash comes before its fields. -/
theorem loadsBack_minExpire {least : UInt64} (hLeast : least.toNat < 2 ^ 63) :
    LoadsBack (rdbSaveMillisecondTime rio least.toNat) rdbLoadMillisecondTime least.toNat :=
  loadsBack_millisecondTime (by omega) (by exact_mod_cast hLeast)

/-- A hash as a table, with the format that its times need. -/
theorem loadsBack_table (hServer : server.Sound) {minExpire : Option UInt64}
    {fields : List HashField} (hFields : FieldsValid server fields)
    (hMin : minExpire = minExpireOf fields)
    (hFits : ∀ len ≤ fields.length, server.dictTryExpand len = true) :
    LoadsBack (rdbSaveCounted server.toServer rio (rdbSaveHashField server.toServer rio minExpire)
        fields)
      (asContents (fun fields => .hash (minExpireOf fields) fields)
        (rdbLoadHash server (.saved minExpire)))
      (some (.other (.hash minExpire fields))) := by
  subst hMin
  exact loadsBack_asContents (loadsBack_hash hServer hFields rfl hFits) _

/-- A table with times, after its least time. -/
theorem loadsBack_hashMetadata (hServer : server.Sound) {least : UInt64} {fields : List HashField}
    (hFields : FieldsValid server fields) (hMin : some least = minExpireOf fields)
    (hFits : ∀ len ≤ fields.length, server.dictTryExpand len = true) :
    LoadsBack (rdbSaveContents server.toServer rio (.hash (some least) fields))
      (rdbLoadMillisecondTime >>= fun minExpire => giveUpIfFailed >>= fun _ =>
        asContents (fun fields => .hash (minExpireOf fields) fields)
          (rdbLoadHash server (.relative (minExpire % 2 ^ 64).toNat)))
      (some (.other (.hash (some least) fields))) := by
  have hLeast : least.toNat < 2 ^ 63 := by
    have hTimes := (List.min?_eq_some_iff.mp hMin.symm).1
    obtain ⟨f, hMem, hTime⟩ := List.mem_filterMap.mp hTimes
    exact (hFields.times f hMem least hTime).2.trans_lt hServer.expireTimeMax_lt
  have hNat : ((least.toNat : Int) % 2 ^ 64).toNat = least.toNat := by omega
  refine (loadsBack_minExpire hLeast).bind fun _ => LoadsBack.unlessFailed ?_
  rw [hNat]
  exact loadsBack_table hServer hFields hMin hFits

/-- The contents of every type and encoding, one case for each. -/
theorem loadsBack_contents (hServer : server.Sound) {ptr : Nat} {contents : Contents}
    (hValid : contents.Valid server) (hFits : contents.Fits server) :
    LoadsBack (rdbSaveContents server.toServer rio contents)
      (rdbLoadObject server (server.format.type (Robj.other ptr contents).rdbType))
      (some (.other (contents.loaded server))) := by
  have hType : ∀ a b, server.format.type a = server.format.type b ↔ a = b := fun _ _ =>
    hServer.type_injective.eq_iff
  simp only [rdbLoadObject, hType]
  cases contents with
  | quicklist nodes =>
      obtain ⟨hEmpty, hLen, hNodes⟩ := hValid
      refine (loadsBack_quicklist hServer hEmpty hLen hNodes).then_pure ?_
      cases nodes with
      | nil => exact absurd rfl hEmpty
      | cons node nodes => rfl
  | listListpack lp => exact (loadsBack_listListpack hServer hValid).then_pure rfl
  | set elements => exact loadsBack_asContents (loadsBack_set hServer hValid hFits) _
  | setIntset blob =>
      refine loadsBack_asContents ((loadsBack_rawString hServer.load hValid.1).then_pure ?_) id
      rw [hValid.2, if_neg (by decide)]
  | setListpack lp => exact loadsBack_asContents (loadsBack_listpack hServer hValid _) id
  | zsetListpack lp => exact loadsBack_asContents (loadsBack_listpack hServer hValid _) id
  | zsetSkiplist elements => exact loadsBack_asContents (loadsBack_zset hServer hValid hFits) _
  | hashListpack lp => exact loadsBack_asContents (loadsBack_listpack hServer hValid _) id
  | hashListpackEx minExpire lp =>
      obtain ⟨hLp, hMin⟩ := hValid
      refine (loadsBack_lowTime _).bind fun _ => LoadsBack.unlessFailed ?_
      subst hMin
      exact loadsBack_asContents (loadsBack_listpack hServer hLp fun lp =>
        .hashListpackEx (server.listpackExGetMinExpire lp) lp) id
  | hash minExpire fields =>
      obtain ⟨hFields, hMin⟩ := hValid
      cases minExpire with
      | none => exact loadsBack_table hServer hFields hMin hFits
      | some least => exact loadsBack_hashMetadata hServer hFields hMin hFits
  | stream s => exact (loadsBack_stream hServer hValid).then_pure rfl
  | module mv => exact (loadsBack_module hServer hValid).then_pure rfl

/-- An object of any type, in any encoding, is read back. -/
theorem loadsBack_rdbSaveObject (hServer : server.Sound) {o : Robj} (hValid : o.Valid server)
    (hFits : o.Fits server) :
    LoadsBack (rdbSaveObject server.toServer rio o)
      (rdbLoadObject server (server.format.type o.rdbType)) (some (o.value server)) := by
  cases o with
  | other ptr contents => exact loadsBack_contents hServer hValid hFits
  | string s =>
      rw [rdbLoadObject, Robj.rdbType, if_pos rfl]
      cases s with
      | int value => exact (loadsBack_longLong hServer.load value).then_pure rfl
      | sds s =>
          have hSpace := s.inUserSpace
          have hLen : s.bytes.length < lenErr := by
            rw [lenErr]
            omega
          exact (loadsBack_rawString hServer.load hLen).then_pure rfl

/-- The bytes that are saved for an object of any type, in any encoding, are
loaded as its value, wherever they stand in a file, if there is memory for it. -/
theorem saved_object_loads (hServer : server.Sound) {o : Robj} (hValid : o.Valid server)
    (hFits : o.Fits server)
    {channel channel' : Channel σ} {n : Nat}
    (h : rdbSaveObject server.toServer rio o channel = (some n, channel')) :
    ∃ bytes, channel'.writes.flatten = channel.writes.flatten ++ bytes ∧ ∀ past rest,
      rdbLoadObject server (server.format.type o.rdbType) ⟨past, bytes ++ rest, false⟩ =
        (some (some (o.value server)), ⟨past ++ bytes, rest, false⟩) :=
  loadsBack_rdbSaveObject hServer hValid hFits channel n channel' h

/-- The digits of a number. -/
def decimalBytes (value : Int) : Bytes :=
  let digits := (Nat.toDigits 10 value.natAbs).map fun c => UInt8.ofNat c.toNat
  (if value < 0 then 45 :: digits else digits).take 31

/-- A server without packed encodings, compression and modules. -/
def tableServer : ObjectServer where
  toServer := { plainServer with ll2string := decimalBytes }
  canAllocate := fun _ => true
  lzfDecompress := fun _ _ => none
  sanitizeDumpPayload := .yes
  loading := true
  currentClient := none
  containerPlain := 1
  expireTimeMax := 2 ^ 48 - 2
  setMaxIntsetEntries := 0
  setMaxListpackEntries := 0
  setMaxListpackValue := 0
  hashMaxListpackEntries := 0
  hashMaxListpackValue := 0
  dictHtInitialSize := 4
  dictTryExpand := fun size => size < 2 ^ 40
  lpSafeToAdd := fun _ _ => false
  lpEntrySizeInteger := fun _ => 0
  lpHeaderOk := fun _ => false
  lpEntries := fun _ => none
  lpLength := fun _ => 0
  intsetValidateIntegrity := fun _ _ => false
  streamValidateListpackIntegrity := fun _ _ => false
  listpackExGetMinExpire := fun _ => none
  lpHasFirst := fun _ => false
  moduleTypeLookupModuleByID := fun _ => false
  rdbLoad := fun _ => fail
  olderType := fun
    | .list => 1 | .zset => 3 | .modulePreGa => 6 | .hashZipmap => 9 | .listZiplist => 10
    | .zsetZiplist => 12 | .hashZiplist => 13 | .listQuicklist => 14 | .streamListpacks => 15
    | .streamListpacks2 => 19 | .hashMetadataPreGa => 22 | .hashListpackExPreGa => 23
  lpOf := fun _ => []
  quicklistPushTail := fun nodes ele => nodes ++ [.raw 1 ele]
  ziplistEntries := fun _ => none
  zipmapFields := fun _ => none
  sscanfDouble := fun _ => none
  streamGetEdgeID := fun _ => ⟨0, 0⟩
  streamEstimateDistanceFromFirstEverEntry := fun _ _ => -1

theorem plainServer_format_sound : plainServer.format.Sound where
  sixBitLen_lt := by decide
  fourteenBitLen_lt := by decide
  encVal_lt := by decide
  six_ne_fourteen := by decide
  encVal_ne_six := by decide
  encVal_ne_fourteen := by decide
  wide := by
    rintro b (rfl | rfl)
    · decide
    · decide
  thirtyTwo_ne_sixtyFour := by decide
  encs_lt := by decide
  encs_nodup := by decide

theorem tableServer_sound : tableServer.Sound where
  load :=
    { format := plainServer_format_sound
      ll2string_string2ll := fun s value h => by cases h
      length_ll2string := fun value => (List.length_take_le 31 _).trans_lt (by decide)
      length_lzfCompress := fun s limit data h => by cases h
      lzfDecompress_lzfCompress := fun s limit data h => by cases h
      length_lzfDecompress := fun data size s h => by cases h
      canAllocate := fun _ => rfl }
  type_injective := by
    intro a b
    cases a <;> cases b <;> decide
  containerPacked_lt := by decide
  containerPlain_lt := by decide
  moduleOpcodeEof_lt := by decide
  expireTimeMax_lt := by decide

/-- A table with a field that expires and one that does not. -/
def expiringHash : Robj :=
  .other 0 (.hash (some 5000) [⟨[102], some 5000, [118]⟩, ⟨[103], none, [119, 120]⟩])

/-- Its least time is that of its first field. -/
theorem expiringHash_valid : expiringHash.Valid tableServer := by
  refine ⟨⟨by decide, by decide, by decide, by decide, ?_⟩, by decide⟩
  intro f hf t ht
  simp only [List.mem_cons, List.not_mem_nil, or_false] at hf
  rcases hf with rfl | rfl
  · obtain rfl := Option.some.inj ht
    decide
  · cases ht

theorem expiringHash_loads :
    ∃ bytes, [136, 19, 0, 0, 0, 0, 0, 0, 2, 1, 1, 102, 1, 118, 0, 1, 103, 2, 119, 120] =
        [] ++ bytes ∧ ∀ past rest,
      rdbLoadObject tableServer 24 ⟨past, bytes ++ rest, false⟩ =
        (some (some (expiringHash.value tableServer)), ⟨past ++ bytes, rest, false⟩) := by
  have hSave : rdbSaveObject tableServer.toServer openRio expiringHash ⟨0, []⟩ =
      (some 12, ⟨20, [[136, 19, 0, 0, 0, 0, 0, 0], [2], [1], [1], [102], [1], [118], [0], [1],
        [103], [2], [119, 120]]⟩) := rfl
  have hFits : expiringHash.Fits tableServer := fun len hLen =>
    decide_eq_true (show len < 2 ^ 40 from hLen.trans_lt (by decide))
  exact saved_object_loads tableServer_sound expiringHash_valid hFits hSave

end Redis
