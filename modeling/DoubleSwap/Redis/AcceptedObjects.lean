import DoubleSwap.Redis.ListpackTuples
import DoubleSwap.Redis.RoundTrip

/-! Whatever bytes a value of a type that is still written was loaded from, with
deep validation it is well formed. -/
namespace Redis

open Reading Reader

/-- A number has no more digits than it is read from, by induction on them. -/
theorem ofLittleEndian_lt (bytes : Bytes) : ofLittleEndian bytes < 256 ^ bytes.length := by
  induction bytes with
  | nil => exact Nat.zero_lt_one
  | cons b bytes ih =>
      have hByte : b.toNat < 256 := b.toNat_lt
      have hDigits : ofLittleEndian (b :: bytes) = b.toNat + 256 * ofLittleEndian bytes := rfl
      rw [hDigits, List.length_cons, Nat.pow_succ]
      omega

theorem ofBigEndian_lt (bytes : Bytes) : ofBigEndian bytes < 256 ^ bytes.length := by
  have hLt := ofLittleEndian_lt bytes.reverse
  rwa [List.length_reverse] at hLt

/-- Whatever eight bytes say, the number is a signed one of 64 bits. -/
theorem signed_range {n : Nat} (h : n < 2 ^ 64) : -2 ^ 63 ≤ signed 8 n ∧ signed 8 n < 2 ^ 63 := by
  rw [signed]
  split_ifs <;> omega

section Strings

variable {server : LoadServer}

/-- The value for a failed read is in the range of the times, too. -/
theorem yields_millisecondTime :
    Yields rdbLoadMillisecondTime fun t => -2 ^ 63 ≤ t ∧ t < 2 ^ 63 := by
  refine (yields_take 8).bind fun bytes hBytes => ?_
  cases bytes with
  | none => exact yields_pure ⟨by decide, by decide⟩
  | some bytes =>
      have hLt := ofLittleEndian_lt bytes
      rw [hBytes bytes rfl] at hLt
      exact yields_pure (signed_range hLt)

/-- The long lengths, of four and of eight bytes. -/
theorem yields_bigEndian {width : Nat} (hWidth : width ≤ 8) :
    Yields (take width >>= fun
      | none => pure none
      | some bytes => pure (some (false, ofBigEndian bytes)) : Reader UInt8 (Option (Bool × Nat)))
      fun result => ∀ p ∈ result, p.2 < 2 ^ 64 := by
  refine (yields_take width).bind fun bytes hBytes => ?_
  cases bytes with
  | none => exact yields_pure fun p hp => absurd hp (Option.not_mem_none p)
  | some bytes =>
      refine yields_pure fun p hp => ?_
      obtain rfl := Option.mem_some_iff.mp hp
      have hLt := ofBigEndian_lt bytes
      rw [hBytes bytes rfl] at hLt
      exact hLt.trans_le (Nat.pow_le_pow_right (by decide) hWidth)

/-- A length fits into 64 bits in every one of its forms. -/
theorem yields_lenByRef :
    Yields (rdbLoadLenByRef server) fun result => ∀ p ∈ result, p.2 < 2 ^ 64 := by
  have hNone : ∀ p ∈ (none : Option (Bool × Nat)), p.2 < 2 ^ 64 := fun p hp =>
    absurd hp (Option.not_mem_none p)
  have hSix : ∀ (b : UInt8) (isencoded : Bool), ∀ p ∈ some (isencoded, b.toNat &&& 0x3F),
      p.2 < 2 ^ 64 := by
    intro b isencoded p hp
    obtain rfl := Option.mem_some_iff.mp hp
    exact Nat.and_le_right.trans_lt (by decide)
  refine yields_after fun b => ?_
  cases b with
  | none => exact yields_pure hNone
  | some b =>
      refine yields_ite (fun _ => yields_pure (hSix b true)) fun _ => ?_
      refine yields_ite (fun _ => yields_pure (hSix b false)) fun _ => ?_
      refine yields_ite (fun _ => yields_after fun b' => ?_) fun _ => ?_
      · cases b' with
        | none => exact yields_pure hNone
        | some b' =>
            refine yields_pure fun p hp => ?_
            obtain rfl := Option.mem_some_iff.mp hp
            have hLow : b'.toNat < 2 ^ 64 := b'.toNat_lt.trans (by decide)
            have hHigh : (b.toNat &&& 0x3F) <<< 8 < 2 ^ 64 := by
              have hMask : b.toNat &&& 0x3F ≤ 0x3F := Nat.and_le_right
              rw [Nat.shiftLeft_eq]
              omega
            exact Nat.or_lt_two_pow hHigh hLow
      · exact yields_ite (fun _ => yields_bigEndian (by decide)) fun _ =>
          yields_ite (fun _ => yields_bigEndian (by decide)) fun _ => yields_pure hNone

theorem yields_rdbLoadLen : Yields (rdbLoadLen server) fun result => result.2 < 2 ^ 64 := by
  refine yields_lenByRef.bind fun result hResult => ?_
  cases result with
  | none => exact yields_pure (by decide : lenErr < 2 ^ 64)
  | some result => exact yields_pure (hResult result rfl)

theorem yields_plainLen : Yields (rdbLoadPlainLen server) fun len => len < 2 ^ 64 :=
  yields_rdbLoadLen.bind fun _ h => yields_pure h

/-- A length that is accepted is not the mark of an error. -/
theorem yields_demandLen : Yields (rdbDemandLen server) fun len => len < lenErr := by
  refine yields_plainLen.bind fun len hLen => yields_ite (fun _ => yields_fail) fun hErr =>
    yields_pure ?_
  rw [lenErr] at hErr ⊢
  omega

/-- A string is never longer than a length can say, also when it was
compressed. -/
theorem yields_string (hServer : server.Sound) :
    Yields (rdbGenericLoadStringObject server) fun s => s.length < lenErr := by
  have hNumber : ∀ width, Yields (demand width >>= fun enc =>
      pure (server.ll2string (signed width (ofLittleEndian enc)))) fun s => s.length < lenErr :=
    fun width => yields_after fun enc =>
      yields_pure ((hServer.length_ll2string _).trans (by decide))
  refine yields_rdbLoadLen.bind fun result hResult => ?_
  obtain ⟨isencoded, len⟩ := result
  refine yields_ite (fun _ => yields_fail) fun hErr => ?_
  have hLen : len < lenErr := by
    have hLt : len < 2 ^ 64 := hResult
    rw [lenErr] at hErr ⊢
    omega
  refine yields_ite (fun _ => ?_) fun _ => ?_
  · refine yields_ite (fun _ => ?_) fun _ => yields_ite (fun _ => ?_) fun _ => yields_fail
    · exact yields_ite (fun _ => hNumber 1) fun _ => yields_ite (fun _ => hNumber 2) fun _ =>
        yields_ite (fun _ => hNumber 4) fun _ => yields_fail
    · refine yields_after fun clen => yields_demandLen.bind fun size hSize =>
        yields_ite (fun _ => yields_after fun c => ?_) fun _ => yields_fail
      cases hBack : server.lzfDecompress c size with
      | none => exact yields_fail
      | some val =>
          refine yields_pure ?_
          rwa [hServer.length_lzfDecompress c size val hBack]
  · refine yields_ite (fun _ => yields_ite (fun _ => ?_) fun _ => ?_) fun _ => yields_fail
    · exact (yields_demand len).mono fun s hs => hs.trans_lt hLen
    · exact yields_pure (by decide)

end Strings

section Objects

variable {server : ObjectServer}

/-- A loop of as many rounds as a length says, with an invariant that counts
them. -/
theorem yields_loop {γ : Type} {body : γ → Reader UInt8 γ} {acc : γ} {I : Nat → γ → Prop}
    (hStart : I 0 acc) (hStep : ∀ done acc, I done acc → Yields (body acc) (I (done + 1))) :
    Yields (rdbDemandLen server.toLoadServer >>= fun len => repeatFrom body len acc) fun result =>
      ∃ len < lenErr, I len result := by
  refine yields_demandLen.bind fun len hLen => (yields_repeatFrom hStep len hStart).mono
    fun result hResult => ⟨len, hLen, ?_⟩
  rwa [Nat.zero_add] at hResult

/-- The same loop where a length of zero makes an empty key. -/
theorem yields_counted {γ : Type} {body : γ → Reader UInt8 γ} {acc : γ} {I : Nat → γ → Prop}
    (hStart : I 0 acc) (hStep : ∀ done acc, I done acc → Yields (body acc) (I (done + 1))) :
    Yields (rdbLoadCounted server body acc) fun result =>
      ∀ acc ∈ result, ∃ len, 0 < len ∧ len < lenErr ∧ I len acc := by
  refine yields_demandLen.bind fun len hLen => yields_ite (fun _ => ?_) fun hPositive => ?_
  · exact yields_pure fun acc h => absurd h (Option.not_mem_none acc)
  · refine (yields_repeatFrom hStep len hStart).bind fun result hResult => yields_pure ?_
    intro acc h
    obtain rfl := Option.mem_some_iff.mp h
    rw [Nat.zero_add] at hResult
    exact ⟨len, Nat.pos_of_ne_zero hPositive, hLen, hResult⟩

/-- Elements of which no two have the same key, with what holds of each. -/
structure Distinct {α κ : Type} (key : α → κ) (P : α → Prop) (count : Nat) (items : List α) :
    Prop where
  length_eq : items.length = count
  nodup : (items.map key).Nodup
  each : ∀ item ∈ items, P item

section Distinct

variable {α κ : Type} {key : α → κ} {P : α → Prop} {count : Nat} {items : List α} {item : α}

theorem distinct_nil : Distinct key P 0 [] :=
  ⟨rfl, List.nodup_nil, fun _ h => absurd h List.not_mem_nil⟩

/-- A new element joins the others if its key is not there yet. -/
theorem Distinct.append (h : Distinct key P count items) (hNew : key item ∉ items.map key)
    (hItem : P item) : Distinct key P (count + 1) (items ++ [item]) where
  length_eq := by rw [List.length_append, h.length_eq, List.length_singleton]
  nodup := by
    rw [List.map_append, List.map_singleton]
    exact h.nodup.append (List.nodup_singleton _) (List.disjoint_singleton.mpr hNew)
  each item' hMem := by
    rcases List.mem_append.mp hMem with hBefore | hHere
    · exact h.each item' hBefore
    · rwa [List.mem_singleton.mp hHere]

/-- Where elements were counted there are some. -/
theorem Distinct.ne_nil (h : Distinct key P count items) (hCount : 0 < count) : items ≠ [] := by
  rintro rfl
  exact hCount.ne h.length_eq

theorem Distinct.length_lt (h : Distinct key P count items) (hCount : count < lenErr) :
    items.length < lenErr := by
  rwa [h.length_eq]

end Distinct

variable (hServer : server.Sound)

include hServer

/-- The elements of a set differ, in whatever encoding it is while it is loaded. -/
theorem yields_setElement {done len : Nat} {set : LoadedSet}
    (h : Distinct id (fun element : Bytes => element.length < lenErr) done set.elements) :
    Yields (rdbLoadSetElement server len set) fun next =>
      Distinct id (fun element : Bytes => element.length < lenErr) (done + 1) next.elements := by
  refine (yields_string hServer.load).bind fun element hElement => ?_
  cases set.encodingFor server len element with
  | none => exact yields_fail
  | some encoding =>
      refine yields_ite (fun _ => yields_fail) fun hNew => yields_pure (h.append ?_ hElement)
      rwa [List.map_id]

/-- Only a set of fewer than 2 ^ 32 elements is ever complete. -/
theorem yields_setElements {len : Nat} {set : LoadedSet} (hStart : set.elements = []) :
    Yields (rdbLoadSetElements server len set) fun last => len < 2 ^ 32 ∧
      Distinct id (fun element : Bytes => element.length < lenErr) len last.elements := by
  refine yields_ite (fun hLen => ?_) fun _ => ?_
  · refine (yields_repeatFrom (I := fun count (set : LoadedSet) =>
      Distinct id (fun element : Bytes => element.length < lenErr) count set.elements)
      (fun done set hSet => yields_setElement hServer hSet) len (hStart ▸ distinct_nil)).mono ?_
    intro last hLast
    rw [Nat.zero_add] at hLast
    exact ⟨hLen, hLast⟩
  · intro source last source' hRun
    refine loop_induction (P := fun _ => True) (Q := fun _ _ => _) trivial
      (fun _ _ _ _ _ _ => trivial) (fun set source result source' _ hEnd => ?_) hRun
    obtain ⟨_, _, _, hPure⟩ := bind_eq_some_iff.mp hEnd
    cases hPure

/-- A set is not empty, and no element is there twice. -/
theorem yields_set : Yields (rdbLoadSet server) fun result =>
    ∀ elements ∈ result, (Contents.set elements).Valid server := by
  refine yields_demandLen.bind fun len _ => yields_ite (fun _ => ?_) fun hPositive =>
    yields_ite (fun _ => yields_fail) fun _ => ?_
  · exact yields_pure fun elements h => absurd h (Option.not_mem_none elements)
  · refine (yields_setElements hServer rfl).bind fun last hLast => yields_pure ?_
    intro elements h
    obtain rfl := Option.mem_some_iff.mp h
    obtain ⟨hLen, hElements⟩ := hLast
    have hNodup := hElements.nodup
    rw [List.map_id] at hNodup
    exact ⟨hElements.ne_nil (Nat.pos_of_ne_zero hPositive), hElements.length_eq.trans_lt hLen,
      hNodup, hElements.each⟩

/-- The members of a sorted set differ, and their scores are numbers. -/
theorem yields_zset : Yields (rdbLoadZset server rdbLoadBinaryDoubleValue) fun result =>
    ∀ elements ∈ result, (Contents.zsetSkiplist elements).Valid server := by
  refine yields_demandLen.bind fun len hLen => yields_ite (fun _ => ?_) fun hPositive =>
    yields_ite (fun _ => yields_fail) fun _ => ?_
  · exact yields_pure fun elements h => absurd h (Option.not_mem_none elements)
  · refine (yields_repeatFrom (I := Distinct Prod.fst fun element : Bytes × UInt64 =>
      element.1.length < lenErr ∧ isNan element.2 = false) (fun done elements h => ?_) len
      distinct_nil).bind fun last hLast => yields_pure ?_
    · exact (yields_string hServer.load).bind fun element hElement => yields_after fun score =>
        yields_ite (fun _ => yields_fail) fun hNumber => yields_ite (fun _ => yields_fail)
          fun hNew => yields_pure (h.append hNew ⟨hElement, Bool.eq_false_of_not_eq_true hNumber⟩)
    · intro elements h
      obtain rfl := Option.mem_some_iff.mp h
      rw [Nat.zero_add] at hLast
      exact ⟨hLast.ne_nil (Nat.pos_of_ne_zero hPositive), hLast.length_lt hLen, hLast.nodup,
        hLast.each⟩

/-- The time of a field is in range, whether it is stored as it is or relative to
the least one. Zero stands for none. -/
theorem yields_ttl (ttls : HashTtl) : Yields (rdbLoadTtl server ttls) fun expireTime =>
    ∀ t, expireTime = some t → 0 < t.toNat ∧ t.toNat ≤ server.expireTimeMax := by
  refine yields_ite (fun _ => yields_pure fun t h => by cases h) fun _ =>
    yields_after fun result => ?_
  cases result with
  | none => exact yields_fail
  | some result =>
      have hMaxLt := hServer.expireTimeMax_lt
      refine yields_ite (fun _ => yields_fail) fun hMax => yields_pure fun t h => ?_
      split_ifs at h with hZero
      obtain rfl := Option.some.inj h
      have hFits : (UInt64.ofNat (ttls.expireAt result.2)).toNat = ttls.expireAt result.2 :=
        UInt64.toNat_ofNat_of_lt' (show ttls.expireAt result.2 < 2 ^ 64 by omega)
      rw [hFits]
      omega

/-- With deep validation no field is there twice. -/
theorem yields_hashField (hDeep : deepIntegrityValidation server = true) (ttls : HashTtl)
    {P : HashField → Prop} (hP : ∀ f, P f ↔ (f.field.length < lenErr ∧ f.value.length < lenErr) ∧
      ∀ t, f.expireTime = some t → 0 < t.toNat ∧ t.toNat ≤ server.expireTimeMax)
    {done : Nat} {hash : LoadedHash} (h : Distinct HashField.field P done hash.fields) :
    Yields (rdbLoadHashField server ttls hash) fun next =>
      Distinct HashField.field P (done + 1) next.fields := by
  refine (yields_ttl hServer ttls).bind fun expireTime hTime => ?_
  refine (yields_string hServer.load).bind fun field hField => ?_
  refine (yields_string hServer.load).bind fun value hValue => ?_
  have hItem : P ⟨field, expireTime, value⟩ := (hP _).mpr ⟨⟨hField, hValue⟩, hTime⟩
  have hTable : ∀ len, Yields (addToTable hash.fields ⟨field, expireTime, value⟩ len) fun next =>
      Distinct HashField.field P (done + 1) next.fields := fun len =>
    yields_ite (fun hNew => yields_pure (h.append hNew.2 hItem)) fun _ => yields_fail
  refine yields_ite (fun _ => hTable _) fun _ => yields_ite (fun _ => yields_fail) fun hNew =>
    yields_ite (fun _ => yields_pure (h.append (fun hDup => ?_) hItem)) fun _ =>
      yields_ite (fun _ => yields_fail) fun _ => hTable _
  exact hNew ⟨hDeep, hDup⟩

/-- A hash is not empty, its fields differ, and their times are in range. -/
theorem yields_hash (hDeep : deepIntegrityValidation server = true) (ttls : HashTtl) :
    Yields (rdbLoadHash server ttls) fun result =>
      ∀ fields ∈ result, FieldsValid server fields := by
  refine yields_demandLen.bind fun len hLen => yields_ite (fun _ => ?_) fun hPositive =>
    yields_ite (fun _ => yields_fail) fun _ => ?_
  · exact yields_pure fun fields h => absurd h (Option.not_mem_none fields)
  · refine (yields_repeatFrom (I := fun count hash => Distinct HashField.field _ count hash.fields)
      (fun done hash hHash => yields_hashField hServer hDeep ttls (fun _ => Iff.rfl) hHash)
      len distinct_nil).bind fun hash hHash => yields_pure ?_
    intro fields h
    obtain rfl := Option.mem_some_iff.mp h
    rw [Nat.zero_add] at hHash
    exact ⟨hHash.ne_nil (Nat.pos_of_ne_zero hPositive), hHash.length_lt hLen, hHash.nodup,
      fun f hf => (hHash.each f hf).1, fun f hf => (hHash.each f hf).2⟩

/-- The nodes of a loaded list are plain ones and listpacks with entries. -/
theorem yields_quicklist : Yields (rdbLoadCounted server (rdbLoadQuicklistNode server) [])
    fun result => ∀ nodes ∈ result, nodes.length < lenErr ∧ ∀ node ∈ nodes,
      ∃ container entry, node = .raw container entry ∧ NodeValid server container entry := by
  refine (yields_counted (I := fun count nodes => nodes.length ≤ count ∧ ∀ node ∈ nodes,
    ∃ container entry, node = .raw container entry ∧ NodeValid server container entry)
    ⟨Nat.le_refl 0, fun node h => absurd h List.not_mem_nil⟩ fun done nodes h => ?_).mono
      fun result hResult nodes hMem => ?_
  · have hAppend : ∀ container entry, NodeValid server container entry →
        (nodes ++ [QuicklistNode.raw container entry]).length ≤ done + 1 ∧
          ∀ node ∈ nodes ++ [QuicklistNode.raw container entry],
            ∃ container entry, node = .raw container entry ∧ NodeValid server container entry := by
      intro container entry hNode
      refine ⟨by rw [List.length_append, List.length_singleton]; omega, fun node hMem => ?_⟩
      rcases List.mem_append.mp hMem with hBefore | hHere
      · exact h.2 node hBefore
      · exact ⟨container, entry, List.mem_singleton.mp hHere, hNode⟩
    refine yields_after fun container => yields_ite (fun _ => yields_fail) fun hContainer => ?_
    refine (yields_string hServer.load).bind fun data hData => yields_ite (fun _ => yields_fail)
      fun hEmpty => ?_
    have hKind : container = server.format.containerPacked ∨ container = server.containerPlain := by
      by_contra hOther
      exact hContainer ⟨fun hc => hOther (Or.inl hc), fun hc => hOther (Or.inr hc)⟩
    refine yields_ite (fun hPlain => yields_pure (hAppend _ _ ?_)) fun hPacked => ?_
    · exact ⟨hKind, hEmpty, hData, fun hNot => absurd hPlain hNot⟩
    · refine yields_ite (fun _ => yields_fail) fun hValid =>
        yields_ite (fun _ => ?_) fun hEntries => ?_
      · exact yields_pure ⟨h.1.trans (Nat.le_succ done), h.2⟩
      · refine yields_pure (hAppend _ _ ⟨hKind, hEmpty, hData, fun _ => ⟨?_, hEntries⟩⟩)
        simpa using hValid
  · obtain ⟨len, _, hLen, hLength, hNodes⟩ := hResult nodes hMem
    exact ⟨hLength.trans_lt hLen, hNodes⟩

/-- A listpack of tuples that has passed the deep check. -/
structure PackedWellFormed (server : ObjectServer) (tupleLen : Nat) (lp : Bytes) : Prop where
  length_lt : lp.length < lenErr
  nonempty : server.lpLength lp / tupleLen ≠ 0
  tuples : ∃ entries, server.lpEntries lp = some entries ∧ TuplesValid server tupleLen entries

/-- A packed collection has passed the deep check, which `validate_deep_iff`
spells out. -/
theorem yields_listpack (hDeep : deepIntegrityValidation server = true) (tupleLen : Nat)
    (make : Bytes → Contents) : Yields (rdbLoadListpack server tupleLen make) fun result =>
      ∀ contents ∈ result, ∃ lp, contents = make lp ∧ PackedWellFormed server tupleLen lp := by
  refine (yields_string hServer.load).bind fun lp hLp => yields_ite (fun _ => yields_fail)
    fun hValid => yields_ite (fun _ => ?_) fun hEntries => ?_
  · exact yields_pure fun contents h => absurd h (Option.not_mem_none contents)
  · refine yields_pure fun contents h => ?_
    obtain rfl := Option.mem_some_iff.mp h
    rw [hDeep] at hValid
    exact ⟨lp, rfl, hLp, hEntries, (validate_deep_iff lp).mp (by simpa using hValid)⟩

/-- A set of numbers has passed the check of its file. -/
theorem yields_intset : Yields (rdbLoadIntset server) fun result =>
    ∀ contents ∈ result, ∃ blob, contents = .setIntset blob ∧
      (Contents.setIntset blob).Valid server := by
  refine (yields_string hServer.load).bind fun blob hBlob => yields_ite (fun _ => yields_fail)
    fun hValid => yields_pure fun contents h => ?_
  obtain rfl := Option.mem_some_iff.mp h
  exact ⟨blob, rfl, hBlob, by simpa using hValid⟩

omit hServer in
theorem yields_streamID : Yields (rdbLoadStreamID server) StreamID.Valid :=
  yields_plainLen.bind fun _ hMs => yields_plainLen.bind fun _ hSeq => yields_pure ⟨hMs, hSeq⟩

/-- What holds of a node of a stream. -/
def StreamNodeValid (server : ObjectServer) (node : Bytes × Bytes) : Prop :=
  node.1.length = 16 ∧ node.2.length < lenErr ∧
    server.streamValidateListpackIntegrity node.2 (deepIntegrityValidation server) = true ∧
    server.lpHasFirst node.2 = true

/-- The nodes of a stream have different keys of sixteen bytes. -/
theorem yields_streamNode {done : Nat} {nodes : List (Bytes × Bytes)}
    (h : Distinct Prod.fst (StreamNodeValid server) done nodes) :
    Yields (rdbLoadStreamNode server nodes)
      (Distinct Prod.fst (StreamNodeValid server) (done + 1)) := by
  refine yields_after fun nodekey => yields_ite (fun _ => yields_fail) fun hKey => ?_
  refine (yields_string hServer.load).bind fun lp hLp => yields_ite (fun _ => yields_fail)
    fun hValid => yields_ite (fun _ => yields_fail) fun hFirst => yields_ite (fun _ => yields_fail)
      fun hNew => yields_pure (h.append hNew ⟨not_not.mp hKey, hLp, ?_, ?_⟩)
  · simpa using hValid
  · simpa using hFirst

omit hServer in
/-- The pending entries of a group have different IDs. -/
theorem yields_streamNack {done : Nat} {pel : List StreamNack}
    (h : Distinct StreamNack.id NackValid done pel) :
    Yields (rdbLoadStreamNack server pel) (Distinct StreamNack.id NackValid (done + 1)) := by
  refine (yields_demand 16).bind fun rawid hId => yields_millisecondTime.bind fun time hTime =>
    yields_plainLen.bind fun count hCount => yields_after fun _ => ?_
  exact yields_ite (fun _ => yields_fail) fun hNew =>
    yields_pure (h.append hNew ⟨hId, hTime.1, hTime.2, hCount⟩)

omit hServer in
/-- Those of a consumer are found in the group. -/
theorem yields_consumerNack {group : List StreamNack} {done : Nat} {pel : List StreamNack}
    (h : Distinct StreamNack.id (· ∈ group) done pel) :
    Yields (rdbLoadConsumerNack group pel) (Distinct StreamNack.id (· ∈ group) (done + 1)) := by
  refine yields_after fun rawid => ?_
  cases hFind : group.find? fun nack => nack.id = rawid with
  | none => exact yields_fail
  | some nack =>
      have hId : nack.id = rawid := of_decide_eq_true (List.find?_some hFind :)
      refine yields_ite (fun _ => yields_fail) fun hNew => yields_pure (h.append ?_ ?_)
      · rwa [hId]
      · exact List.mem_of_find?_eq_some hFind

omit hServer in
/-- Both times of a consumer are in range. -/
theorem yields_activeTime (version : Nat) {seen : Int} (hSeen : -2 ^ 63 ≤ seen ∧ seen < 2 ^ 63) :
    Yields (rdbLoadActiveTime version seen) fun active => -2 ^ 63 ≤ active ∧ active < 2 ^ 63 :=
  yields_ite (fun _ => yields_millisecondTime.bind fun _ hActive => yields_after fun _ =>
    yields_pure hActive) fun _ => yields_pure hSeen

/-- The consumers of a group have different names. -/
theorem yields_streamConsumer {version : Nat} {group : List StreamNack} {done : Nat}
    {consumers : List StreamConsumer}
    (h : Distinct StreamConsumer.name (ConsumerValid group) done consumers) :
    Yields (rdbLoadStreamConsumer server version group consumers)
      (Distinct StreamConsumer.name (ConsumerValid group) (done + 1)) := by
  refine (yields_string hServer.load).bind fun name hName => yields_ite (fun _ => yields_fail)
    fun hNew => ?_
  refine yields_millisecondTime.bind fun seen hSeen => yields_after fun _ => ?_
  refine (yields_activeTime version hSeen).bind fun active hActive => ?_
  rw [← Reader.bind_assoc]
  refine (yields_loop distinct_nil fun done pel hPel => yields_consumerNack hPel).bind
    fun pel hPel => yields_pure (h.append hNew ?_)
  obtain ⟨len, hLen, hPel⟩ := hPel
  exact ⟨hName, hSeen.1, hSeen.2, hActive.1, hActive.2, hPel.length_lt hLen, hPel.nodup, hPel.each⟩

omit hServer in
/-- From the second version on the number of entries read is in the file. -/
theorem yields_offset {version : Nat} (hVersion : 2 ≤ version) (s : StreamObject)
    (lastId : StreamID) : Yields (rdbLoadOffset server version s lastId) fun offset =>
      -2 ^ 63 ≤ offset ∧ offset < 2 ^ 63 :=
  yields_ite (fun _ => yields_plainLen.bind fun _ hOffset => yields_after fun _ =>
    yields_pure (signed_range hOffset)) fun hOld => absurd hVersion hOld

/-- The groups of a stream have different names, and every pending entry of a
group has a consumer. -/
theorem yields_streamCG (hDeep : deepIntegrityValidation server = true) {version : Nat}
    (hVersion : 2 ≤ version) (s : StreamObject) {done : Nat} {cgroups : List StreamCG}
    (h : Distinct StreamCG.name CGValid done cgroups) :
    Yields (rdbLoadStreamCG server version s cgroups)
      (Distinct StreamCG.name CGValid (done + 1)) := by
  refine (yields_string hServer.load).bind fun name hName => ?_
  refine yields_streamID.bind fun lastId hLastId => yields_after fun _ => ?_
  refine (yields_offset hVersion s lastId).bind fun offset hOffset => ?_
  refine yields_ite (fun _ => yields_fail) fun hNew => ?_
  rw [← Reader.bind_assoc]
  refine (yields_loop distinct_nil fun done pel hPel => yields_streamNack hPel).bind
    fun pel hPel => ?_
  rw [← Reader.bind_assoc]
  refine (yields_loop distinct_nil fun done consumers hConsumers =>
    yields_streamConsumer hServer hConsumers).bind fun consumers hConsumers => ?_
  refine yields_ite (fun _ => yields_fail) fun hOwned => yields_pure (h.append hNew ?_)
  obtain ⟨pelLen, hPelLen, hPel⟩ := hPel
  obtain ⟨len, hLen, hConsumers⟩ := hConsumers
  refine ⟨hName, hLastId, hOffset.1, hOffset.2, hPel.length_lt hPelLen, hPel.nodup, hPel.each,
    hConsumers.length_lt hLen, hConsumers.nodup, hConsumers.each, ?_⟩
  by_contra hNot
  exact hOwned ⟨hDeep, hNot⟩

omit hServer in
/-- The numbers of a stream without its groups. -/
theorem yields_streamMetadata {version : Nat} (hVersion : 2 ≤ version)
    (listpacks : List (Bytes × Bytes)) :
    Yields (rdbLoadStreamMetadata server version listpacks) fun s => s.listpacks = listpacks ∧
      (s.length < 2 ^ 64 ∧ s.entriesAdded < 2 ^ 64) ∧
      s.lastId.Valid ∧ s.firstId.Valid ∧ s.maxDeletedEntryId.Valid :=
  yields_plainLen.bind fun _ hLength => yields_streamID.bind fun _ hLastId =>
    yields_ite (fun _ => yields_streamID.bind fun _ hFirstId => yields_streamID.bind
      fun _ hDeletedId => yields_plainLen.bind fun _ hAdded =>
        yields_pure ⟨rfl, ⟨hLength, hAdded⟩, hLastId, hFirstId, hDeletedId⟩)
      fun hOld => absurd hVersion hOld

/-- A stream of one of the later versions, with its nodes and groups. -/
theorem yields_stream (hDeep : deepIntegrityValidation server = true) {version : Nat}
    (hVersion : 2 ≤ version) : Yields (rdbLoadStream server version) (StreamValid server) := by
  rw [rdbLoadStream, ← Reader.bind_assoc]
  refine (yields_loop distinct_nil fun done nodes hNodes => yields_streamNode hServer hNodes).bind
    fun listpacks hNodes => ?_
  refine (yields_streamMetadata hVersion listpacks).bind fun s hMetadata => yields_after fun _ => ?_
  refine yields_ite (fun _ => yields_fail) fun hFilled => ?_
  rw [← Reader.bind_assoc]
  refine (yields_loop distinct_nil fun done cgroups hGroups =>
    yields_streamCG hServer hDeep hVersion s hGroups).bind fun cgroups hGroups => yields_pure ?_
  obtain ⟨rfl, ⟨hLength, hAdded⟩, hLastId, hFirstId, hDeletedId⟩ := hMetadata
  obtain ⟨nodeLen, hNodeLen, hNodes⟩ := hNodes
  obtain ⟨groupLen, hGroupLen, hGroups⟩ := hGroups
  exact ⟨hNodes.length_lt hNodeLen, hNodes.nodup, hNodes.each, hLength,
    fun hSome hNone => hFilled ⟨hSome, hNone⟩, hLastId, hFirstId, hDeletedId, hAdded,
    hGroups.length_lt hGroupLen, hGroups.nodup, hGroups.each⟩

/-- What is promised of contents that were accepted. What a module makes of its
bytes is its own affair. -/
def Contents.WellFormed (server : ObjectServer) : Contents → Prop
  | .setListpack lp => PackedWellFormed server 1 lp
  | .zsetListpack lp => PackedWellFormed server 2 lp
  | .hashListpack lp => PackedWellFormed server 2 lp
  | .hashListpackEx minExpire lp =>
      PackedWellFormed server 3 lp ∧ minExpire = server.listpackExGetMinExpire lp
  | .module _ => True
  | contents => contents.Valid server

def Value.WellFormed (server : ObjectServer) : Value → Prop
  | .string s => s.length < lenErr
  | .other contents => contents.WellFormed server

omit hServer in
/-- What holds of the contents holds of the value. -/
theorem yields_asContents {α : Type} {r : Reader UInt8 (Option α)} {make : α → Contents}
    (h : Yields r fun result => ∀ a ∈ result, (make a).WellFormed server) :
    Yields (asContents make r) fun result => ∀ v ∈ result, v.WellFormed server := by
  refine h.bind fun result hResult => yields_pure fun v hv => ?_
  obtain ⟨a, ha, rfl⟩ := Option.mem_map.mp hv
  exact hResult a ha

omit hServer in
theorem nodes_valid {nodes : List QuicklistNode}
    (h : ∀ node ∈ nodes, ∃ container entry, node = .raw container entry ∧
      NodeValid server container entry) : ∀ node ∈ nodes, node.Valid server := by
  intro node hMem
  obtain ⟨container, entry, rfl, hNode⟩ := h node hMem
  exact hNode

/-- The types that are still written, under deep validation. -/
theorem yields_rdbLoadObject (hDeep : deepIntegrityValidation server = true) (type : RdbType) :
    Yields (rdbLoadObject server (server.format.type type)) fun result =>
      ∀ v ∈ result, v.WellFormed server := by
  have hType : ∀ a b, server.format.type a = server.format.type b ↔ a = b := fun _ _ =>
    hServer.type_injective.eq_iff
  have hHash : ∀ ttls, Yields (asContents (fun fields => .hash (minExpireOf fields) fields)
      (rdbLoadHash server ttls)) fun result => ∀ v ∈ result, v.WellFormed server := fun ttls =>
    yields_asContents ((yields_hash hServer hDeep ttls).mono fun _ h a ha => ⟨h a ha, rfl⟩)
  simp only [rdbLoadObject, hType]
  cases type with
  | string =>
      refine (yields_string hServer.load).bind fun s hs => yields_pure fun v hv => ?_
      obtain rfl := Option.mem_some_iff.mp hv
      exact hs
  | set => exact yields_asContents (yields_set hServer)
  | zset2 => exact yields_asContents (yields_zset hServer)
  | hash => exact hHash .none
  | hashMetadata => exact yields_after fun minExpire => yields_after fun _ => hHash _
  | listQuicklist2 =>
      refine (yields_quicklist hServer).bind fun nodes hNodes => ?_
      rcases nodes with _ | _ | ⟨node, nodes⟩
      · exact yields_pure fun v hv => absurd hv (Option.not_mem_none v)
      · exact yields_pure fun v hv => absurd hv (Option.not_mem_none v)
      · obtain ⟨hLen, hEach⟩ := hNodes _ rfl
        refine yields_pure fun v hv => ?_
        obtain rfl := Option.mem_some_iff.mp hv
        exact ⟨List.cons_ne_nil node nodes, hLen, nodes_valid hEach⟩
  | setIntset =>
      refine yields_asContents ((yields_intset hServer).mono fun _ h a ha => ?_)
      obtain ⟨blob, rfl, hBlob⟩ := h a ha
      exact hBlob
  | setListpack =>
      refine yields_asContents ((yields_listpack hServer hDeep 1 _).mono fun _ h a ha => ?_)
      obtain ⟨lp, rfl, hLp⟩ := h a ha
      exact hLp
  | zsetListpack =>
      refine yields_asContents ((yields_listpack hServer hDeep 2 _).mono fun _ h a ha => ?_)
      obtain ⟨lp, rfl, hLp⟩ := h a ha
      exact hLp
  | hashListpack =>
      refine yields_asContents ((yields_listpack hServer hDeep 2 _).mono fun _ h a ha => ?_)
      obtain ⟨lp, rfl, hLp⟩ := h a ha
      exact hLp
  | hashListpackEx =>
      refine yields_after fun _ => yields_after fun _ => ?_
      refine yields_asContents ((yields_listpack hServer hDeep 3 _).mono fun _ h a ha => ?_)
      obtain ⟨lp, rfl, hLp⟩ := h a ha
      exact ⟨hLp, rfl⟩
  | streamListpacks3 =>
      refine (yields_stream hServer hDeep (by decide)).bind fun s hs => yields_pure fun v hv => ?_
      obtain rfl := Option.mem_some_iff.mp hv
      exact hs
  | module2 =>
      refine yields_after fun mv => yields_pure fun v hv => ?_
      obtain rfl := Option.mem_some_iff.mp hv
      trivial

end Objects

end Redis
