import DoubleSwap.Redis.DumpRoundTrip

/-! What every file that the loader accepts has in common, whoever wrote it. -/
namespace Redis

open Reading Reader

variable {server : FileServer} {flags : LoadFlags}

/-- What the loader keeps up while it reads, whatever the file says, if it starts
with an empty keyspace. -/
structure Loading.Sane (server : FileServer) (flags : LoadFlags) (ld : Loading) : Prop where
  dbid_lt : ld.dbid < server.dbnum
  keys_nodup : (ld.keys.map fun loaded => (loaded.dbid, loaded.key)).Nodup
  dbids_lt : ∀ loaded ∈ ld.keys, loaded.dbid < server.dbnum
  live : ∀ loaded ∈ ld.keys, ¬ (server.iAmMaster = true ∧ flags.aofPreamble = false ∧
    loaded.expiretime ≠ -1 ∧ loaded.expiretime < server.now)
  counted : ld.keys.length ≤ ld.keysLoaded
  counted_eq : flags.allowDup = false → ld.keys.length = ld.keysLoaded
  propagated : ld.propagated.length = if flags.feedRepl then ld.keysExpired else 0

/-- Before the first opcode nothing was loaded. -/
theorem sane_start (hDbs : 0 < server.dbnum) (functions : List Bytes) (rsi : Option SaveInfo) :
    (Loading.start [] functions rsi).Sane server flags := by
  refine ⟨hDbs, List.nodup_nil, ?_, ?_, Nat.le_refl 0, fun _ => rfl, ?_⟩
  · exact fun loaded h => absurd h List.not_mem_nil
  · exact fun loaded h => absurd h List.not_mem_nil
  · show 0 = if flags.feedRepl then 0 else 0
    rw [ite_self]

/-- A round that leaves the keys and the counters alone. -/
theorem Loading.Sane.frame {ld ld' : Loading} (h : ld.Sane server flags)
    (hDbid : ld'.dbid < server.dbnum) (hKeys : ld'.keys = ld.keys)
    (hLoaded : ld'.keysLoaded = ld.keysLoaded) (hExpired : ld'.keysExpired = ld.keysExpired)
    (hPropagated : ld'.propagated = ld.propagated) : ld'.Sane server flags := by
  obtain ⟨_, hNodup, hLt, hLive, hCount, hCountEq, hLength⟩ := h
  rw [← hKeys] at hNodup hLt hLive hCount hCountEq
  rw [← hLoaded] at hCount hCountEq
  rw [← hPropagated, ← hExpired] at hLength
  exact ⟨hDbid, hNodup, hLt, hLive, hCount, hCountEq, hLength⟩

/-- A new key, where there is none. -/
theorem Loading.Sane.add {ld : Loading} (h : ld.Sane server flags) {key : Bytes} {val : Value}
    (hNew : ∀ loaded ∈ ld.keys, ¬ (loaded.dbid = ld.dbid ∧ loaded.key = key))
    (hLive : ld.expired server flags = false) : (ld.add key val).reset.Sane server flags where
  dbid_lt := h.dbid_lt
  keys_nodup := by
    show ((ld.keys ++ [_]).map _).Nodup
    rw [List.map_append, List.map_singleton]
    apply h.keys_nodup.append (List.nodup_singleton _)
    apply List.disjoint_singleton.mpr
    intro hMem
    obtain ⟨loaded, hLoaded, hSame⟩ := List.mem_map.mp hMem
    exact hNew loaded hLoaded ⟨congrArg Prod.fst hSame, congrArg Prod.snd hSame⟩
  dbids_lt loaded hMem := by
    rcases List.mem_append.mp hMem with hBefore | hHere
    · exact h.dbids_lt loaded hBefore
    · rw [List.mem_singleton.mp hHere]
      exact h.dbid_lt
  live loaded hMem := by
    rcases List.mem_append.mp hMem with hBefore | hHere
    · exact h.live loaded hBefore
    · rw [List.mem_singleton.mp hHere]
      have hNot := of_decide_eq_false hLive
      simpa using hNot
  counted := by
    have hCount := h.counted
    show (ld.keys ++ [_]).length ≤ ld.keysLoaded + 1
    rw [List.length_append, List.length_singleton]
    omega
  counted_eq hDup := by
    show (ld.keys ++ [_]).length = ld.keysLoaded + 1
    rw [List.length_append, List.length_singleton, h.counted_eq hDup]
  propagated := h.propagated

/-- `DEBUG RELOAD` replaces a key that is there. -/
theorem Loading.Sane.replace {ld : Loading} (h : ld.Sane server flags) {key : Bytes} {val : Value}
    (hDup : flags.allowDup = true) (hLive : ld.expired server flags = false) :
    ((ld.delete key).add key val).reset.Sane server flags := by
  have hSub : (ld.delete key).keys.Sublist ld.keys := List.filter_sublist
  have hDeleted : (ld.delete key).Sane server flags :=
    { dbid_lt := h.dbid_lt
      keys_nodup := (hSub.map _).nodup h.keys_nodup
      dbids_lt := fun loaded hMem => h.dbids_lt loaded (hSub.subset hMem)
      live := fun loaded hMem => h.live loaded (hSub.subset hMem)
      counted := hSub.length_le.trans h.counted
      counted_eq := fun hNot => by rw [hDup] at hNot; cases hNot
      propagated := h.propagated }
  apply hDeleted.add ?_ hLive
  intro loaded hMem hSame
  have hKept := of_decide_eq_true (List.mem_filter.mp hMem).2
  exact hKept hSame

/-- A key is added, deleted first, or only counted. -/
theorem Loading.Sane.addKey {ld ld' : Loading} (h : ld.Sane server flags) {key : Bytes}
    {val : Option Value} (hAdd : ld.addKey server flags key val = some ld') :
    ld'.Sane server flags := by
  cases val with
  | none =>
      obtain rfl := Option.some.inj hAdd
      exact h.frame h.dbid_lt rfl rfl rfl rfl
  | some val =>
      rw [Loading.addKey] at hAdd
      have hLength := h.propagated
      split_ifs at hAdd with hExpired hFeed hBacklog hHas hDup
      · obtain rfl := Option.some.inj hAdd
        refine ⟨h.dbid_lt, h.keys_nodup, h.dbids_lt, h.live, h.counted, h.counted_eq, ?_⟩
        simp only [hFeed, if_true, List.length_append, List.length_singleton] at hLength ⊢
        rw [hLength]
      · obtain rfl := Option.some.inj hAdd
        refine ⟨h.dbid_lt, h.keys_nodup, h.dbids_lt, h.live, h.counted, h.counted_eq, ?_⟩
        show ld.propagated.length = if flags.feedRepl then ld.keysExpired + 1 else 0
        simpa [hFeed] using hLength
      · obtain rfl := Option.some.inj hAdd
        exact h.replace hDup (Bool.eq_false_of_not_eq_true hExpired)
      · obtain rfl := Option.some.inj hAdd
        apply h.add ?_ (Bool.eq_false_of_not_eq_true hExpired)
        intro loaded hMem hSame
        apply hHas
        exact List.any_eq_true.mpr ⟨loaded, hMem, decide_eq_true hSame⟩

/-- The fields about the server do not touch the keys. -/
theorem Loading.Sane.addAux {ld : Loading} (h : ld.Sane server flags) (auxkey auxval : Bytes) :
    (ld.addAux auxkey auxval).Sane server flags := by
  rw [Loading.addAux]
  split_ifs <;> exact h.frame h.dbid_lt rfl rfl rfl rfl

/-- Nor do the data of modules, so an invariant has to hold of the keys only. -/
theorem yields_moduleAux {P : Loading → Prop} {ld : Loading}
    (h : ∀ moduleAux, P { ld with moduleAux := moduleAux }) :
    Yields (rdbLoadModuleAux server ld) P := by
  refine yields_after fun moduleid => yields_after fun whenOpcode => yields_after fun whence =>
    yields_after fun _ => yields_ite (fun _ => yields_fail) fun _ =>
      yields_ite (fun _ => yields_fail) fun _ => ?_
  cases server.auxLoad moduleid with
  | none => exact yields_fail
  | some auxLoad =>
      apply yields_after
      rintro (_ | aux)
      · exact yields_fail
      · exact yields_after fun eof => yields_ite (fun _ => yields_fail) fun _ => yields_pure (h _)

/-- Nor does a library. -/
theorem yields_function {P : Loading → Prop} {ld : Loading}
    (h : ∀ functions, P { ld with functions := functions }) :
    Yields (rdbFunctionLoad server flags ld) P := by
  refine yields_after fun payload => ?_
  cases server.createLibrary flags.allowDup ld.functions payload with
  | none => exact yields_fail
  | some functions => exact yields_pure (h functions)

/-- Every opcode keeps the state sane. -/
theorem yields_typed {ld : Loading} (h : ld.Sane server flags) (type : UInt8) :
    Yields (rdbLoadTyped server flags type ld) (Sum.elim (Loading.Sane server flags)
      (Loading.Sane server flags)) := by
  have hSame : ∀ ld' : Loading, ld'.dbid = ld.dbid → ld'.keys = ld.keys →
      ld'.keysLoaded = ld.keysLoaded → ld'.keysExpired = ld.keysExpired →
      ld'.propagated = ld.propagated → ld'.Sane server flags := fun ld' hDbid =>
    h.frame (hDbid ▸ h.dbid_lt)
  refine yields_ite (fun _ => ?_) fun _ => yields_ite (fun _ => ?_) fun _ =>
    yields_ite (fun _ => ?_) fun _ => yields_ite (fun _ => ?_) fun _ => yields_ite (fun _ => ?_)
      fun _ => yields_ite (fun _ => ?_) fun _ => yields_ite (fun _ => ?_) fun _ =>
        yields_ite (fun _ => ?_) fun _ => yields_ite (fun _ => ?_) fun _ =>
          yields_ite (fun _ => ?_) fun _ => yields_ite (fun _ => yields_fail) fun _ =>
            yields_ite (fun _ => ?_) fun _ => ?_
  · exact yields_after fun _ => yields_after fun _ => yields_pure (hSame _ rfl rfl rfl rfl rfl)
  · exact yields_after fun _ => yields_after fun _ => yields_pure (hSame _ rfl rfl rfl rfl rfl)
  · apply yields_after
    rintro (_ | byte)
    · exact yields_fail
    · exact yields_pure (hSame _ rfl rfl rfl rfl rfl)
  · exact yields_after fun _ => yields_pure (hSame _ rfl rfl rfl rfl rfl)
  · exact yields_pure h
  · refine yields_after fun dbid => yields_ite (fun _ => yields_fail) fun hLt => yields_pure ?_
    exact h.frame (not_le.mp hLt) rfl rfl rfl rfl
  · exact yields_after fun _ => yields_after fun _ => yields_pure h
  · exact yields_after fun _ => yields_after fun _ => yields_after fun _ => yields_pure h
  · refine Yields.bind (P := Loading.Sane server flags) ?_ fun ld' h' => yields_pure h'
    exact yields_after fun auxkey => yields_after fun auxval => yields_pure (h.addAux auxkey auxval)
  · exact (yields_moduleAux (P := Loading.Sane server flags)
      fun _ => hSame _ rfl rfl rfl rfl rfl).bind fun ld' h' => yields_pure h'
  · exact (yields_function (P := Loading.Sane server flags)
      fun _ => hSame _ rfl rfl rfl rfl rfl).bind fun ld' h' => yields_pure h'
  · refine Yields.bind (P := Loading.Sane server flags) ?_ fun ld' h' => yields_pure h'
    refine yields_after fun key => yields_after fun val => ?_
    cases hAdd : ld.addKey server flags key val with
    | none => exact yields_fail
    | some ld' => exact yields_pure (h.addKey hAdd)

/-- A round of the loop, with any opcode. -/
theorem yields_opcode {ld : Loading} (h : ld.Sane server flags) :
    Yields (rdbLoadOpcode server flags ld) (Sum.elim (Loading.Sane server flags)
      (Loading.Sane server flags)) := by
  apply yields_after
  rintro (_ | type)
  · exact yields_fail
  · exact yields_typed h type

/-- A file with a checksum that was accepted did not end before it. -/
theorem failed_of_verifyChecksum {ld ld' : Loading} {source source' : Source UInt8}
    (h : verifyChecksum server ld source = (some ld', source')) :
    ld' = ld ∧ source'.failed = false := by
  obtain ⟨read, first, _, hRest⟩ := bind_eq_some_iff.mp h
  obtain ⟨bytes, second, hDemand, hEnd⟩ := bind_eq_some_iff.mp hRest
  split_ifs at hEnd
  · cases hEnd
  · cases hEnd
    exact ⟨rfl, failed_of_demand hDemand⟩

/-- After any other code the loop goes on. -/
theorem yields_inl {type : UInt8} {ld : Loading} (hType : type ≠ server.fileOpcode .eof) :
    Yields (rdbLoadTyped server flags type ld) fun step => step.isLeft = true := by
  have hThen : ∀ {α : Type} (r : Reader UInt8 α) (g : α → Loading),
      Yields (r >>= fun a => pure (.inl (g a)) : Reader UInt8 (Loading ⊕ Loading)) fun step =>
        step.isLeft = true := fun r g => yields_after fun a => yields_pure rfl
  refine yields_ite (fun _ => yields_after fun _ => hThen _ _) fun _ => ?_
  refine yields_ite (fun _ => yields_after fun _ => hThen _ _) fun _ => ?_
  refine yields_ite (fun _ => ?_) fun _ => ?_
  · apply yields_after
    rintro (_ | byte)
    · exact yields_fail
    · exact yields_pure rfl
  refine yields_ite (fun _ => hThen _ _) fun _ => ?_
  refine yields_ite (fun hEof => absurd hEof hType) fun _ => ?_
  refine yields_ite (fun _ => yields_after fun _ => yields_ite (fun _ => yields_fail)
    fun _ => yields_pure rfl) fun _ => ?_
  refine yields_ite (fun _ => yields_after fun _ => hThen _ fun _ => ld) fun _ => ?_
  refine yields_ite (fun _ => yields_after fun _ => yields_after fun _ => hThen _ fun _ => ld)
    fun _ => ?_
  refine yields_ite (fun _ => hThen _ _) fun _ => ?_
  refine yields_ite (fun _ => hThen _ _) fun _ => ?_
  refine yields_ite (fun _ => yields_fail) fun _ => ?_
  exact yields_ite (fun _ => hThen _ _) fun _ => hThen _ _

/-- The loop ends with the mark, which was read. -/
theorem failed_of_end (hServer : server.Sound) {ld ld' : Loading} {source source' : Source UInt8}
    (h : rdbLoadOpcode server flags ld source = (some (.inr ld'), source')) :
    source'.failed = false := by
  obtain ⟨type, between, hType, hRest⟩ := bind_eq_some_iff.mp h
  cases type with
  | none => cases hRest
  | some type =>
      replace hRest : rdbLoadTyped server flags type ld between = (some (.inr ld'), source') :=
        hRest
      by_cases hEof : type = server.fileOpcode .eof
      · rw [hEof, typed_file hServer] at hRest
        cases hRest
        exact failed_of_next hType
      · have hLeft := yields_inl hEof _ _ _ hRest
        cases hLeft

/-- A file that is accepted was there to its end. -/
theorem failed_of_rdbLoadRio (hServer : server.Sound) {ld ld' : Loading}
    {source source' : Source UInt8}
    (h : rdbLoadRio server flags ld source = (some ld', source')) : source'.failed = false := by
  obtain ⟨buf, first, hBuf, hRest⟩ := bind_eq_some_iff.mp h
  obtain ⟨last, second, hLoop, hEnd⟩ :=
    bind_eq_some_iff.mp (of_unless_fail (of_unless_fail hRest).2).2
  have hClean : second.failed = false :=
    loop_induction (P := fun _ => True) (Q := fun _ source => source.failed = false) trivial
      (fun _ _ _ _ _ _ => trivial) (fun _ _ _ _ _ hMark => failed_of_end hServer hMark) hLoop
  split_ifs at hEnd
  · exact (failed_of_verifyChecksum hEnd).2
  · cases hEnd
    exact hClean

/-- Whatever the file says, the keyspace that is loaded from it is sane. -/
theorem sane_of_rdbLoadRio {ld ld' : Loading} (hSane : ld.Sane server flags)
    {source source' : Source UInt8}
    (h : rdbLoadRio server flags ld source = (some ld', source')) : ld'.Sane server flags := by
  obtain ⟨buf, first, hBuf, hRest⟩ := bind_eq_some_iff.mp h
  obtain ⟨last, second, hLoop, hEnd⟩ :=
    bind_eq_some_iff.mp (of_unless_fail (of_unless_fail hRest).2).2
  have hLast : last.Sane server flags :=
    loop_induction (P := Loading.Sane server flags) (Q := fun ld _ => ld.Sane server flags) hSane
      (fun _ _ _ _ h hStep => yields_opcode h _ _ _ hStep)
      (fun _ _ _ _ h hMark => yields_opcode h _ _ _ hMark) hLoop
  split_ifs at hEnd
  · rwa [(failed_of_verifyChecksum hEnd).1]
  · cases hEnd
    exact hLast

/-- No file that is a part of a dump, cut off at the end, is accepted. -/
theorem rdbLoadRio_of_cut (hServer : server.Sound) {ld ld' : Loading} {kept lost : Bytes}
    (hLost : lost ≠ [])
    (hWhole : rdbLoadRio server flags ld ⟨[], kept ++ lost, false⟩ =
      (some ld', ⟨kept ++ lost, [], false⟩)) :
    (rdbLoadRio server flags ld ⟨[], kept, false⟩).1 = none := by
  have hFailed := (sequential_rdbLoadRio hServer.sequential flags ld).fails_of_cut
    (congrArg Prod.snd hWhole) hLost
  rcases hPart : rdbLoadRio server flags ld ⟨[], kept, false⟩ with ⟨_ | loaded, source'⟩
  · rfl
  · rw [hPart, failed_of_rdbLoadRio hServer hPart] at hFailed
    cases hFailed

end Redis
