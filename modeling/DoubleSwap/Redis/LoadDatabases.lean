import DoubleSwap.Redis.LoadOpcodes

/-! The keys that a saved database loads: all but the expired ones on a master. -/
namespace Redis

open Reading Reader

variable {σ : Type} {server : FileServer} {rio : Rio σ} {flags : LoadFlags} {ld : Loading}

section Databases

variable (hServer : server.Sound)

include hServer

/-- The header selects the database; the sizes are hints. -/
theorem loadsOn_header {db : RedisDb} (hDbid : db.dbid < server.dbnum) (hErr : db.dbid < lenErr)
    (hSize : db.size < lenErr) :
    LoadsOn server flags (saveHeader server.toServer rio db) ld { ld with dbid := db.dbid } := by
  have hFormat := hServer.object.load.format
  have hExpires : db.expiresSize < lenErr := List.countP_le_length.trans_lt hSize
  have hSelect : LoadsBack (rdbSaveLen server.toServer rio db.dbid)
      (rdbLoadTyped server flags (server.format.opcode .selectDb) ld)
      (.inl { ld with dbid := db.dbid }) := by
    rw [typed_opcode hServer]
    refine (loadsBack_demandLen hFormat hErr).then_pure ?_
    rw [if_neg (Nat.not_le.mpr hDbid)]
  refine loadsOn_code_bind hServer (fun _ => hSelect) fun selectDb dbid =>
    loadsOn_code hServer fun resizeDb => ?_
  rw [typed_opcode hServer]
  refine (loadsBack_demandLen hFormat hSize).bind fun dbSize => LoadsBack.counted ?_
    fun expiresSize => selectDb + dbid + resizeDb + dbSize + expiresSize
  exact (loadsBack_demandLen hFormat hExpires).then_pure rfl

/-- The marks of slots are hints, too. -/
theorem loadsOn_slotInfo {db : RedisDb} {slot : Nat} (hSlot : slot < lenErr)
    (hSize : db.size < lenErr) :
    LoadsOn server flags (saveSlotInfo server.toServer rio db slot) ld ld := by
  have hFormat := hServer.object.load.format
  have hDict : db.dictSize slot < lenErr := List.countP_le_length.trans_lt hSize
  have hExpires : db.expiresDictSize slot < lenErr := List.countP_le_length.trans_lt hSize
  refine loadsOn_code hServer fun slotInfo => ?_
  rw [typed_opcode hServer]
  refine (loadsBack_demandLen hFormat hSlot).bind fun index =>
    (loadsBack_demandLen hFormat hDict).bind fun dictSize => LoadsBack.counted ?_
      fun expiresSize => slotInfo + index + dictSize + expiresSize
  exact (loadsBack_demandLen hFormat hExpires).then_pure rfl

/-- The loader stays where it is at the mark of a slot. -/
theorem carries_saveSlot {db : RedisDb} {de : DictEntry} {st st' : DumpState σ}
    (hDe : de.Valid server.toObjectServer) (hSize : db.size < lenErr)
    (h : saveSlot server.toServer rio db de st = .ok st') :
    Carries server flags st.channel st'.channel ld ld := by
  rw [saveSlot] at h
  split_ifs at h
  · split at h
    · cases h
    · next res channel hInfo =>
        obtain rfl := Except.ok.inj h
        exact loadsOn_slotInfo hServer hDe.slot_lt hSize _ _ _ hInfo
  · obtain rfl := Except.ok.inj h
    exact carries_refl st.channel ld

/-- A key that is saved takes the loader on to the state with the key. -/
theorem carries_saveKey {de : DictEntry} {st st' : DumpState σ} {ld' : Loading}
    (hDe : de.Valid server.toObjectServer) (hReset : ld.reset = ld)
    (hAdd : (ld.forKey server.toServer de).addKey server flags de.key.bytes
      (some (de.value.value server.toObjectServer)) = some ld')
    (h : saveKey server.toServer rio de st = .ok st') :
    Carries server flags st.channel st'.channel ld ld' := by
  rw [saveKey] at h
  split at h
  · cases h
  · next res channel hPair =>
      obtain rfl := Except.ok.inj h
      have hChannel : ∀ dumpSize written, (updateChildInfo server.toServer
          (dismiss server.toServer de dumpSize
            { st with channel := channel, written := written })).channel = channel := by
        intro dumpSize written
        simp only [updateChildInfo, dismiss]
        split_ifs <;> rfl
      rw [hChannel]
      exact loadsOn_keyValuePair hServer hDe hReset hAdd _ _ _ hPair

end Databases

/-- The loader drops the key, which has expired. -/
def DictEntry.Expired (server : FileServer) (flags : LoadFlags) (de : DictEntry) : Prop :=
  server.iAmMaster ∧ ¬ flags.aofPreamble ∧ getExpire de ≠ -1 ∧ getExpire de < server.now

instance (server : FileServer) (flags : LoadFlags) :
    DecidablePred (DictEntry.Expired server flags) := fun _ => by
  unfold DictEntry.Expired
  infer_instance

/-- A key of a database, as it is loaded. -/
def loadedKey (server : FileServer) (dbid : Nat) (de : DictEntry) : LoadedKey where
  dbid := dbid
  key := de.key.bytes
  value := de.value.value server.toObjectServer
  expiretime := getExpire de
  lfuFreq := if server.lfuPolicy then (de.lfuCounter.toNat : Int) else -1
  lruIdle := if server.lruPolicy then ((de.idleTime / 1000 : Nat) : Int) else -1

/-- The keys of a database that are loaded. -/
def loadedKeys (server : FileServer) (flags : LoadFlags) (dbid : Nat) (entries : List DictEntry) :
    List LoadedKey :=
  (entries.filter fun de => ¬ de.Expired server flags).map (loadedKey server dbid)

/-- What the entries of a database, after `SELECTDB`, make of a state. -/
def Loading.withEntries (server : FileServer) (flags : LoadFlags) (ld : Loading) (dbid : Nat)
    (entries : List DictEntry) : Loading :=
  { ld with
    dbid := dbid
    keys := ld.keys ++ loadedKeys server flags dbid entries
    keysLoaded := ld.keysLoaded + entries.countP fun de => ¬ de.Expired server flags
    keysExpired := ld.keysExpired + entries.countP fun de => de.Expired server flags
    propagated := ld.propagated ++
      if flags.feedRepl then
        (entries.filter fun de => de.Expired server flags).map fun de => (dbid, de.key.bytes)
      else [] }

section Entries

variable {dbid : Nat} {done : List DictEntry} {de : DictEntry}

/-- An expired key is counted, and its deletion fed to the replicas. -/
theorem withEntries_expired (hReset : ld.reset = ld) (hExpired : de.Expired server flags) :
    ld.withEntries server flags dbid (done ++ [de]) =
      { (ld.withEntries server flags dbid done).reset with
        keysExpired := (ld.withEntries server flags dbid done).keysExpired + 1
        propagated := (ld.withEntries server flags dbid done).propagated ++
          if flags.feedRepl then [(dbid, de.key.bytes)] else [] } := by
  rw [← hReset]
  simp only [Loading.withEntries, Loading.reset, loadedKeys, List.filter_append, List.countP_append,
    List.filter_singleton, List.countP_singleton, hExpired, not_true, decide_true, decide_false,
    Bool.false_eq_true, if_true, if_false, Nat.add_zero, List.map_append]
  split_ifs <;> simp [Nat.add_assoc]

/-- Any other key is added with its attributes. -/
theorem withEntries_live (hReset : ld.reset = ld) (hLive : ¬ de.Expired server flags) :
    ld.withEntries server flags dbid (done ++ [de]) =
      (((ld.withEntries server flags dbid done).forKey server.toServer de).add de.key.bytes
        (de.value.value server.toObjectServer)).reset := by
  rw [← hReset]
  simp only [Loading.withEntries, Loading.reset, Loading.add, Loading.forKey, loadedKeys,
    List.filter_append, List.countP_append, List.filter_singleton, List.countP_singleton, hLive,
    not_false_eq_true, decide_true, decide_false, Bool.false_eq_true, if_true, if_false,
    cond_true, cond_false, List.append_nil, Nat.add_zero, List.map_append,
    List.map_singleton, List.append_assoc]
  rfl

/-- The keys that were loaded before do not stand in the way of a new one. -/
theorem has_withEntries (hOther : ∀ loaded ∈ ld.keys, loaded.dbid ≠ dbid)
    (hNew : de.key.bytes ∉ done.map fun de => de.key.bytes) :
    (ld.withEntries server flags dbid done).has de.key.bytes = false := by
  rw [Loading.has, List.any_eq_false]
  intro loaded hLoaded hSame
  obtain ⟨hDbid, hKey⟩ := of_decide_eq_true hSame
  rcases List.mem_append.mp hLoaded with hBefore | hDone
  · exact hOther loaded hBefore hDbid
  · obtain ⟨de', hMem, rfl⟩ := List.mem_map.mp hDone
    exact hNew (List.mem_map.mpr ⟨de', (List.mem_filter.mp hMem).1, hKey⟩)

/-- The next key of a database is added to those that came before it. -/
theorem addKey_withEntries (hReset : ld.reset = ld)
    (hFeed : flags.feedRepl = true → server.replBacklog = true)
    (hOther : ∀ loaded ∈ ld.keys, loaded.dbid ≠ dbid)
    (hNew : de.key.bytes ∉ done.map fun de => de.key.bytes) :
    ((ld.withEntries server flags dbid done).forKey server.toServer de).addKey server flags
        de.key.bytes (some (de.value.value server.toObjectServer)) =
      some (ld.withEntries server flags dbid (done ++ [de])) := by
  have hHas : ((ld.withEntries server flags dbid done).forKey server.toServer de).has de.key.bytes =
      false := has_withEntries hOther hNew
  have hExpired : ((ld.withEntries server flags dbid done).forKey server.toServer de).expired server
      flags = decide (de.Expired server flags) := rfl
  simp only [Loading.addKey, hExpired, hHas, decide_eq_true_eq, Bool.false_eq_true, if_false]
  split_ifs with hGone hFeedRepl hBacklog
  · rw [withEntries_expired hReset hGone, if_pos hFeedRepl]
    rfl
  · exact absurd (hFeed hFeedRepl) hBacklog
  · rw [withEntries_expired hReset hGone, if_neg hFeedRepl, List.append_nil]
    rfl
  · rw [withEntries_live hReset hGone]

end Entries

/-- Between two keys there are no attributes. -/
theorem reset_withEntries (hReset : ld.reset = ld) (dbid : Nat) (entries : List DictEntry) :
    (ld.withEntries server flags dbid entries).reset =
      ld.withEntries server flags dbid entries := by
  rw [← hReset]
  rfl

/-- The loop over the keys, by induction on those that are left. The keys that are
done are in the state. -/
theorem carries_saveEntries (hServer : server.Sound) {db : RedisDb} {dbid : Nat}
    (hSize : db.size < lenErr) (hReset : ld.reset = ld)
    (hFeed : flags.feedRepl = true → server.replBacklog = true)
    (hOther : ∀ loaded ∈ ld.keys, loaded.dbid ≠ dbid) {done entries : List DictEntry}
    (hValid : ∀ de ∈ entries, de.Valid server.toObjectServer)
    (hNodup : ((done ++ entries).map fun de => de.key.bytes).Nodup) {st st' : DumpState σ}
    (h : saveEntries server.toServer rio db entries st = .ok st') :
    Carries server flags st.channel st'.channel (ld.withEntries server flags dbid done)
      (ld.withEntries server flags dbid (done ++ entries)) := by
  induction entries generalizing done st with
  | nil =>
      obtain rfl := Except.ok.inj h
      rw [List.append_nil]
      exact carries_refl _ _
  | cons de entries ih =>
      have hDe := hValid de List.mem_cons_self
      rw [saveEntries] at h
      split at h
      · cases h
      · next between hSlot =>
          split at h
          · cases h
          · next next hKey =>
              have hAdd := addKey_withEntries hReset hFeed hOther
                (key_not_mem hNodup rfl : de.key.bytes ∉ done.map fun de => de.key.bytes)
              have hFirst := (carries_saveSlot hServer hDe hSize hSlot).trans
                (carries_saveKey hServer hDe (reset_withEntries hReset dbid done) hAdd hKey)
              have hAll : done ++ de :: entries = done ++ [de] ++ entries := by simp
              rw [hAll] at hNodup ⊢
              exact hFirst.trans
                (ih (fun de' hMem => hValid de' (List.mem_cons_of_mem de hMem)) hNodup h)

/-- What holds of a database in memory. -/
structure RedisDb.Valid (server : FileServer) (db : RedisDb) : Prop where
  dbid_lt : db.dbid < server.dbnum
  dbid_ne : db.dbid < lenErr
  size_lt : db.size < lenErr
  entries : ∀ de ∈ db.entries, de.Valid server.toObjectServer
  keys_nodup : (db.entries.map fun de => de.key.bytes).Nodup

/-- A database without keys is not saved. -/
def Loading.withDb (server : FileServer) (flags : LoadFlags) (ld : Loading) (db : RedisDb) :
    Loading :=
  if db.entries = [] then ld else ld.withEntries server flags db.dbid db.entries

/-- A database from its header to its last key. -/
theorem carries_saveDb (hServer : server.Sound) {db : RedisDb} (hDb : db.Valid server)
    (hReset : ld.reset = ld) (hFeed : flags.feedRepl = true → server.replBacklog = true)
    (hOther : ∀ loaded ∈ ld.keys, loaded.dbid ≠ db.dbid) {st st' : DumpState σ} {written : Nat}
    (h : rdbSaveDbUntraced server.toServer rio db st = (some written, st')) :
    Carries server flags st.channel st'.channel ld (ld.withDb server flags db) := by
  rw [rdbSaveDbUntraced] at h
  split_ifs at h with hEmpty
  · obtain rfl : st = st' := congrArg Prod.snd h
    rw [Loading.withDb, if_pos (List.eq_nil_of_length_eq_zero hEmpty)]
    exact carries_refl _ _
  · split at h
    · cases h
    · next res channel hHeader =>
        have hStart : ld.withEntries server flags db.dbid [] = { ld with dbid := db.dbid } := by
          simp [Loading.withEntries, loadedKeys]
        have hFirst : Carries server flags st.channel channel ld { ld with dbid := db.dbid } :=
          loadsOn_header hServer hDb.dbid_lt hDb.dbid_ne hDb.size_lt _ _ _ hHeader
        rw [← hStart] at hFirst
        cases hRun : saveEntries server.toServer rio db db.entries (st.afterHeader res channel) with
        | error failed =>
            rw [hRun] at h
            cases h
        | ok finished =>
            rw [hRun] at h
            obtain rfl : finished = st' := congrArg Prod.snd h
            have hRest : Carries server flags channel finished.channel
                (ld.withEntries server flags db.dbid [])
                (ld.withEntries server flags db.dbid ([] ++ db.entries)) :=
              carries_saveEntries hServer hDb.size_lt hReset hFeed hOther hDb.entries
                (show (([] ++ db.entries).map _).Nodup from hDb.keys_nodup) hRun
            rw [Loading.withDb, if_neg fun hNil => hEmpty (List.length_eq_zero_iff.mpr hNil)]
            exact hFirst.trans hRest

/-- The databases of a server are told apart by their numbers. -/
structure DbsValid (server : FileServer) (dbs : List RedisDb) : Prop where
  valid : ∀ db ∈ dbs, db.Valid server
  dbids_nodup : (dbs.map RedisDb.dbid).Nodup

def Loading.withDbs (server : FileServer) (flags : LoadFlags) (ld : Loading) (dbs : List RedisDb) :
    Loading :=
  dbs.foldl (Loading.withDb server flags) ld

/-- The keys of a database come after those of the databases before it. -/
theorem keys_withDb (db : RedisDb) :
    (ld.withDb server flags db).keys = ld.keys ++ loadedKeys server flags db.dbid db.entries := by
  rw [Loading.withDb]
  split_ifs with hEmpty
  · rw [hEmpty]
    exact (List.append_nil _).symm
  · rfl

/-- The databases of a dump, one after the other. -/
theorem carries_saveDbs (hServer : server.Sound)
    (hFeed : flags.feedRepl = true → server.replBacklog = true) {dbs : List RedisDb}
    (hDbs : DbsValid server dbs) (hReset : ld.reset = ld)
    (hOther : ∀ loaded ∈ ld.keys, loaded.dbid ∉ dbs.map RedisDb.dbid) {st st' : DumpState σ}
    (h : saveDbsUntraced rio server.toServer dbs st = (true, st')) :
    Carries server flags st.channel st'.channel ld (ld.withDbs server flags dbs) := by
  induction dbs generalizing ld st with
  | nil =>
      cases h
      exact carries_refl _ _
  | cons db dbs ih =>
      obtain ⟨hValid, hNodup⟩ := hDbs
      rw [List.forall_mem_cons] at hValid
      simp only [List.map_cons, List.nodup_cons, List.mem_cons, not_or] at hNodup hOther
      rw [saveDbsUntraced] at h
      rcases hDb : rdbSaveDbUntraced server.toServer rio db st with ⟨_ | written, between⟩
      · rw [hDb] at h
        cases h
      · rw [hDb] at h
        have hFirst := carries_saveDb hServer hValid.1 hReset hFeed
          (fun loaded hMem => (hOther loaded hMem).1) hDb
        have hResetNext : (ld.withDb server flags db).reset = ld.withDb server flags db := by
          rw [Loading.withDb]
          split_ifs
          · exact hReset
          · exact reset_withEntries hReset _ _
        refine hFirst.trans (ih ⟨hValid.2, hNodup.2⟩ hResetNext (fun loaded hMem => ?_) h)
        rw [keys_withDb] at hMem
        rcases List.mem_append.mp hMem with hBefore | hHere
        · exact (hOther loaded hBefore).2
        · obtain ⟨de, _, rfl⟩ := List.mem_map.mp hHere
          exact hNodup.1

/-- The keys of all databases, in the order in which they were saved. -/
theorem keys_withDbs (dbs : List RedisDb) :
    (ld.withDbs server flags dbs).keys =
      ld.keys ++ dbs.flatMap fun db => loadedKeys server flags db.dbid db.entries := by
  induction dbs generalizing ld with
  | nil => exact (List.append_nil _).symm
  | cons db dbs ih =>
      have hRest : ld.withDbs server flags (db :: dbs) =
          (ld.withDb server flags db).withDbs server flags dbs := rfl
      rw [hRest, ih, keys_withDb, List.flatMap_cons, List.append_assoc]

end Redis
