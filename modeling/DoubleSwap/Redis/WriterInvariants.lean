import DoubleSwap.Redis.LoadDatabases
import DoubleSwap.Redis.SaveFile

/-! What every write keeps, a whole dump keeps. -/
namespace Redis

variable {σ ν μ : Type} {clean weak : Channel σ → Prop} {server : Server} {rio : Rio σ}

/-- The writer keeps `clean` if it returns, and `weak` even if it fails. -/
structure Keeps (clean weak : Channel σ → Prop) (save : Save σ ν) : Prop where
  clean : ∀ channel n channel', clean channel → save channel = (some n, channel') → clean channel'
  weak : ∀ channel, weak channel → weak (save channel).2

section Rules

variable {save : Save σ ν}

/-- Whether the writer returns or fails. -/
theorem Keeps.weak_of_eq (h : Keeps clean weak save) {channel channel' : Channel σ}
    {result : Option ν} (hRun : save channel = (result, channel')) (hWeak : weak channel) :
    weak channel' := by
  have hAfter := h.weak channel hWeak
  rwa [hRun] at hAfter

/-- A writer that writes nothing keeps everything. -/
theorem keeps_pure (n : ν) : Keeps clean weak (pure n : Save σ ν) where
  clean channel m channel' h hRun := by
    obtain rfl : channel = channel' := congrArg Prod.snd hRun
    exact h
  weak channel h := h

/-- One writer after the other. If the first fails, the second does not run. -/
theorem Keeps.bind {f : ν → Save σ μ} (hFirst : Keeps clean weak save)
    (hRest : ∀ n, Keeps clean weak (f n)) : Keeps clean weak (save >>= f) where
  clean channel m channel' h hRun := by
    obtain ⟨n, between, hSave, hf⟩ := Save.bind_eq_some.mp hRun
    exact (hRest n).clean _ _ _ (hFirst.clean _ _ _ h hSave) hf
  weak channel h := by
    rcases hSave : save channel with ⟨_ | n, between⟩
    · rw [Save.bind_of_none hSave]
      exact hFirst.weak_of_eq hSave h
    · rw [Save.bind_of_some hSave]
      exact (hRest n).weak between (hFirst.weak_of_eq hSave h)

/-- A choice between two writers. -/
theorem keeps_ite {p : Prop} [Decidable p] {save' : Save σ ν} (h : Keeps clean weak save)
    (h' : Keeps clean weak save') : Keeps clean weak (if p then save else save') := by
  split_ifs
  · exact h
  · exact h'

/-- A writer for every element of a list. -/
theorem keeps_each {α : Type} {f : α → Save σ Nat} (h : ∀ a, Keeps clean weak (f a))
    (elements : List α) : Keeps clean weak (Save.each f elements) := by
  induction elements with
  | nil => exact keeps_pure 0
  | cons a elements ih => exact (h a).bind fun _ => ih.bind fun _ => keeps_pure _

/-- A callback and the mark that is written even if it fails. -/
theorem keeps_marked {callback mark : Save σ Nat} (f : Nat → Nat → Nat)
    (hCallback : Keeps clean weak callback) (hMark : Keeps clean weak mark) :
    Keeps clean weak (fun channel =>
      match callback channel with
      | (none, channel') => (none, (mark channel').2)
      | (some written, channel') =>
          (do
            let eof ← mark
            return f written eof : Save σ Nat) channel') where
  clean channel n channel' h hRun := by
    rcases hSave : callback channel with ⟨_ | written, between⟩
    · rw [hSave] at hRun
      cases hRun
    · rw [hSave] at hRun
      exact (hMark.bind fun eof => keeps_pure (f written eof)).clean _ _ _
        (hCallback.clean _ _ _ h hSave) hRun
  weak channel h := by
    rcases hSave : callback channel with ⟨_ | written, between⟩
    · exact hMark.weak between (hCallback.weak_of_eq hSave h)
    · exact (hMark.bind fun eof => keeps_pure (f written eof)).weak between
        (hCallback.weak_of_eq hSave h)

end Rules

variable (hWrite : ∀ p, Keeps clean weak (rdbWriteRaw rio p))

include hWrite

section Objects

/-- A type or an opcode is one write. -/
theorem keeps_type (type : UInt8) : Keeps clean weak (rdbSaveType rio type) := hWrite _

theorem keeps_time (t : Int) : Keeps clean weak (rdbSaveMillisecondTime rio t) := hWrite _

/-- A length is one write or two. -/
theorem keeps_len (len : Nat) : Keeps clean weak (rdbSaveLen server rio len) := by
  rw [rdbSaveLen]
  refine keeps_ite (hWrite _) (keeps_ite (hWrite _) (keeps_ite ?_ ?_))
  · exact (hWrite _).bind fun _ => (hWrite _).bind fun _ => keeps_pure _
  · exact (hWrite _).bind fun _ => (hWrite _).bind fun _ => keeps_pure _

theorem keeps_lzfBlob (data : Bytes) (len : Nat) :
    Keeps clean weak (rdbSaveLzfBlob server rio data len) :=
  (hWrite _).bind fun _ => (keeps_len hWrite _).bind fun _ => (keeps_len hWrite _).bind fun _ =>
    (hWrite _).bind fun _ => keeps_pure _

/-- A string that cannot be compressed is not written here. -/
theorem keeps_lzfString (s : Bytes) : Keeps clean weak (rdbSaveLzfStringObject server rio s) := by
  rw [rdbSaveLzfStringObject]
  refine keeps_ite (keeps_pure 0) ?_
  cases server.lzfCompress s (s.length - 4) with
  | none => exact keeps_pure 0
  | some out => exact keeps_lzfBlob hWrite _ _

theorem keeps_verbatim (s : Bytes) : Keeps clean weak (rdbSaveVerbatim server rio s) :=
  (keeps_len hWrite _).bind fun _ =>
    keeps_ite ((hWrite _).bind fun _ => keeps_pure _) (keeps_pure _)

/-- A string as a number, compressed or as it is. -/
theorem keeps_rawString (s : Bytes) : Keeps clean weak (rdbSaveRawString server rio s) := by
  rw [rdbSaveRawString]
  cases (if s.length ≤ 11 then rdbTryIntegerEncoding server s else none) with
  | some buf => exact hWrite buf
  | none =>
      have hRest : ∀ n, Keeps clean weak
          (if 0 < n then pure n else rdbSaveVerbatim server rio s : Save σ Nat) := fun n =>
        keeps_ite (keeps_pure n) (keeps_verbatim hWrite s)
      dsimp only
      split_ifs
      · exact (keeps_lzfString hWrite s).bind hRest
      · exact (keeps_pure 0).bind hRest

theorem keeps_longLong (value : Int) :
    Keeps clean weak (rdbSaveLongLongAsStringObject server rio value) := by
  rw [rdbSaveLongLongAsStringObject]
  cases rdbEncodeInteger server value with
  | some buf => exact hWrite buf
  | none => exact (keeps_len hWrite _).bind fun _ => (hWrite _).bind fun _ => keeps_pure _

/-- Strings that are held as numbers, and the others. -/
theorem keeps_stringObject (s : StringObject) :
    Keeps clean weak (rdbSaveStringObject server rio s) := by
  cases s with
  | int value => exact keeps_longLong hWrite value
  | sds s => exact keeps_rawString hWrite _

/-- A collection with its length in front of it. -/
theorem keeps_counted {α : Type} {f : α → Save σ Nat} (h : ∀ a, Keeps clean weak (f a))
    (elements : List α) : Keeps clean weak (rdbSaveCounted server rio f elements) :=
  (keeps_len hWrite _).bind fun _ => (keeps_each h elements).bind fun _ => keeps_pure _

/-- A node of a list, compressed or not. -/
theorem keeps_quicklistNode (node : QuicklistNode) :
    Keeps clean weak (rdbSaveQuicklistNode server rio node) := by
  cases node with
  | raw container entry =>
      exact (keeps_len hWrite _).bind fun _ => (keeps_rawString hWrite _).bind fun _ =>
        keeps_pure _
  | lzf container data size =>
      exact (keeps_len hWrite _).bind fun _ => (keeps_lzfBlob hWrite _ _).bind fun _ =>
        keeps_pure _

theorem keeps_zsetElement (element : Bytes × UInt64) :
    Keeps clean weak (rdbSaveZsetElement server rio element) :=
  (keeps_rawString hWrite _).bind fun _ => (hWrite _).bind fun _ => keeps_pure _

/-- A field with its time, as far as the hash has times. -/
theorem keeps_hashField (minExpire : Option UInt64) (f : HashField) :
    Keeps clean weak (rdbSaveHashField server rio minExpire f) := by
  have hTtl : Keeps clean weak (rdbSaveTtl server rio minExpire f) := by
    rw [rdbSaveTtl.eq_def]
    rcases minExpire with _ | least
    · exact keeps_pure 0
    · cases f.expireTime with
      | none => exact keeps_len hWrite _
      | some expiryTime => exact keeps_len hWrite _
  exact hTtl.bind fun _ => (keeps_rawString hWrite _).bind fun _ =>
    (keeps_rawString hWrite _).bind fun _ => keeps_pure _

theorem keeps_streamID (id : StreamID) : Keeps clean weak (rdbSaveStreamID server rio id) :=
  (keeps_len hWrite _).bind fun _ => (keeps_len hWrite _).bind fun _ => keeps_pure _

/-- Pending entries, of a group or of a consumer. -/
theorem keeps_streamPEL (pel : List StreamNack) (nacks : Bool) :
    Keeps clean weak (rdbSaveStreamPEL server rio pel nacks) := by
  refine keeps_counted hWrite (fun nack => (hWrite _).bind fun _ => keeps_ite ?_ (keeps_pure _)) pel
  exact (keeps_time hWrite _).bind fun _ => (keeps_len hWrite _).bind fun _ => keeps_pure _

/-- A group with its consumers. -/
theorem keeps_streamCG (cg : StreamCG) : Keeps clean weak (rdbSaveStreamCG server rio cg) := by
  have hConsumers : Keeps clean weak (rdbSaveStreamConsumers server rio cg) := by
    refine keeps_counted hWrite (fun consumer => ?_) cg.consumers
    exact (keeps_rawString hWrite _).bind fun _ => (keeps_time hWrite _).bind fun _ =>
      (keeps_time hWrite _).bind fun _ => (keeps_streamPEL hWrite _ _).bind fun _ => keeps_pure _
  exact (keeps_rawString hWrite _).bind fun _ => (keeps_streamID hWrite _).bind fun _ =>
    (keeps_len hWrite _).bind fun _ => (keeps_streamPEL hWrite _ _).bind fun _ =>
      hConsumers.bind fun _ => keeps_pure _

/-- A stream with its nodes and its groups. -/
theorem keeps_stream (s : StreamObject) : Keeps clean weak (rdbSaveStream server rio s) := by
  refine (keeps_counted hWrite (fun node => ?_) s.listpacks).bind fun _ => ?_
  · exact (keeps_rawString hWrite _).bind fun _ => (keeps_rawString hWrite _).bind fun _ =>
      keeps_pure _
  exact (keeps_len hWrite _).bind fun _ => (keeps_streamID hWrite _).bind fun _ =>
    (keeps_streamID hWrite _).bind fun _ => (keeps_streamID hWrite _).bind fun _ =>
      (keeps_len hWrite _).bind fun _ =>
        (keeps_counted hWrite (keeps_streamCG hWrite) _).bind fun _ => keeps_pure _

/-- A module's value with the mark at its end. -/
theorem keeps_module (mv : ModuleValue) : Keeps clean weak (rdbSaveModule server rio mv) := by
  refine (keeps_len hWrite _).bind fun id => ?_
  exact keeps_marked (fun written eof => id + written + eof) (keeps_each hWrite mv.saves)
    (keeps_len hWrite _)

/-- A value of any type and encoding. -/
theorem keeps_object (o : Robj) : Keeps clean weak (rdbSaveObject server rio o) := by
  cases o with
  | string s => exact keeps_stringObject hWrite s
  | other ptr contents =>
      cases contents with
      | quicklist nodes => exact keeps_counted hWrite (keeps_quicklistNode hWrite) nodes
      | listListpack lp =>
          exact (keeps_len hWrite _).bind fun _ => (keeps_len hWrite _).bind fun _ =>
            (keeps_rawString hWrite _).bind fun _ => keeps_pure _
      | set elements => exact keeps_counted hWrite (keeps_rawString hWrite) elements
      | setIntset blob => exact keeps_rawString hWrite _
      | setListpack lp => exact keeps_rawString hWrite _
      | zsetListpack lp => exact keeps_rawString hWrite _
      | zsetSkiplist elements => exact keeps_counted hWrite (keeps_zsetElement hWrite) elements
      | hashListpack lp => exact keeps_rawString hWrite _
      | hashListpackEx minExpire lp =>
          exact (keeps_time hWrite _).bind fun _ => keeps_rawString hWrite _
      | hash minExpire fields =>
          cases minExpire with
          | none => exact keeps_counted hWrite (keeps_hashField hWrite none) fields
          | some least =>
              exact (keeps_time hWrite _).bind fun _ =>
                keeps_counted hWrite (keeps_hashField hWrite (some least)) fields
      | stream s => exact keeps_stream hWrite s
      | module mv => exact keeps_module hWrite mv

end Objects

section Databases

/-- A key with its attributes and its value. -/
theorem keeps_keyValuePair (de : DictEntry) (expiretime : Int) :
    Keeps clean weak (rdbSaveKeyValuePair server rio de expiretime) := by
  rw [rdbSaveKeyValuePair_eq, saveAttributes]
  refine Keeps.bind (Keeps.bind (keeps_ite ?_ (keeps_pure 0)) fun _ =>
    Keeps.bind (keeps_ite ?_ (keeps_pure 0)) fun _ => keeps_ite ?_ (keeps_pure 0)) fun _ => ?_
  · exact (keeps_type hWrite _).bind fun _ => keeps_time hWrite _
  · exact (keeps_type hWrite _).bind fun _ => keeps_len hWrite _
  · exact (keeps_type hWrite _).bind fun _ => hWrite _
  · exact (keeps_type hWrite _).bind fun _ => (keeps_stringObject hWrite _).bind fun _ =>
      (keeps_object hWrite _).bind fun _ => keeps_pure 1

/-- What comes before the keys of a database. -/
theorem keeps_header (db : RedisDb) : Keeps clean weak (saveHeader server rio db) :=
  (keeps_type hWrite _).bind fun _ => (keeps_len hWrite _).bind fun _ =>
    (keeps_type hWrite _).bind fun _ => (keeps_len hWrite _).bind fun _ =>
      (keeps_len hWrite _).bind fun _ => keeps_pure _

theorem keeps_slotInfo (db : RedisDb) (slot : Nat) :
    Keeps clean weak (saveSlotInfo server rio db slot) :=
  (keeps_type hWrite _).bind fun _ => (keeps_len hWrite _).bind fun _ =>
    (keeps_len hWrite _).bind fun _ => (keeps_len hWrite _).bind fun _ => keeps_pure _

omit hWrite

/-- The same of the state of a dump, which an error leaves too. -/
def StateKept (clean weak : Channel σ → Prop) (st : DumpState σ) :
    Except (DumpState σ) (DumpState σ) → Prop
  | .ok st' => (clean st.channel → clean st'.channel) ∧ (weak st.channel → weak st'.channel)
  | .error st' => weak st.channel → weak st'.channel

/-- To tell the parent of the progress writes nothing. -/
theorem channel_updateChildInfo (st : DumpState σ) :
    (updateChildInfo server st).channel = st.channel := by
  simp only [updateChildInfo]
  split_ifs <;> rfl

/-- Nor does it to give back the memory of a value. -/
theorem channel_dismiss (de : DictEntry) (dumpSize : UInt64) (st : DumpState σ) :
    (dismiss server de dumpSize st).channel = st.channel := by
  rw [dismiss]
  split_ifs <;> rfl

include hWrite

/-- The mark of a slot, when one begins. -/
theorem stateKept_slot (db : RedisDb) (de : DictEntry) (st : DumpState σ) :
    StateKept clean weak st (saveSlot server rio db de st) := by
  have hInfo : Keeps clean weak (saveSlotInfo server rio db de.slot) :=
    keeps_slotInfo hWrite db de.slot
  rw [saveSlot]
  split_ifs
  · rcases hSave : saveSlotInfo server rio db de.slot st.channel with ⟨_ | res, channel⟩
    · exact hInfo.weak_of_eq hSave
    · exact ⟨fun hClean => hInfo.clean _ _ _ hClean hSave, hInfo.weak_of_eq hSave⟩
  · exact ⟨id, id⟩

/-- A key, with what is done after it. -/
theorem stateKept_key (de : DictEntry) (st : DumpState σ) :
    StateKept clean weak st (saveKey server rio de st) := by
  have hPair : Keeps clean weak (rdbSaveKeyValuePair server rio de (getExpire de)) :=
    keeps_keyValuePair hWrite de (getExpire de)
  rw [saveKey]
  rcases hSave : rdbSaveKeyValuePair server rio de (getExpire de) st.channel with
    ⟨_ | res, channel⟩
  · exact hPair.weak_of_eq hSave
  · have hChannel : ∀ dumpSize, (updateChildInfo server (dismiss server de dumpSize
        { st with channel := channel, written := st.written + res })).channel = channel := by
      intro dumpSize
      rw [channel_updateChildInfo, channel_dismiss]
    constructor
    · intro hClean
      rw [hChannel]
      exact hPair.clean _ _ _ hClean hSave
    · intro hWeak
      rw [hChannel]
      exact hPair.weak_of_eq hSave hWeak

/-- The loop over the keys, which ends at the first that fails. -/
theorem stateKept_entries (db : RedisDb) (entries : List DictEntry) (st : DumpState σ) :
    StateKept clean weak st (saveEntries server rio db entries st) := by
  induction entries generalizing st with
  | nil => exact ⟨id, id⟩
  | cons de entries ih =>
      have hSlot : StateKept clean weak st (saveSlot server rio db de st) :=
        stateKept_slot hWrite db de st
      rw [saveEntries]
      cases hFirst : saveSlot server rio db de st with
      | error failed => rwa [hFirst] at hSlot
      | ok st₁ =>
          rw [hFirst] at hSlot
          have hKey : StateKept clean weak st₁ (saveKey server rio de st₁) :=
            stateKept_key hWrite de st₁
          dsimp only
          cases hSecond : saveKey server rio de st₁ with
          | error failed =>
              rw [hSecond] at hKey
              exact fun hWeak => hKey (hSlot.2 hWeak)
          | ok st₂ =>
              rw [hSecond] at hKey
              have hRest := ih st₂
              dsimp only
              cases hLast : saveEntries server rio db entries st₂ with
              | error failed =>
                  rw [hLast] at hRest
                  exact fun hWeak => hRest (hKey.2 (hSlot.2 hWeak))
              | ok st₃ =>
                  rw [hLast] at hRest
                  exact ⟨fun hClean => hRest.1 (hKey.1 (hSlot.1 hClean)),
                    fun hWeak => hRest.2 (hKey.2 (hSlot.2 hWeak))⟩

/-- A database, whether it is empty, fails or is written to its end. -/
theorem kept_rdbSaveDb {db : RedisDb} {st : DumpState σ} {res : Option Nat} {st' : DumpState σ}
    (h : rdbSaveDbUntraced server rio db st = (res, st')) :
    (clean st.channel → res.isSome → clean st'.channel) ∧ (weak st.channel → weak st'.channel) := by
  rw [rdbSaveDbUntraced] at h
  split_ifs at h with hEmpty
  · cases h
    exact ⟨fun hClean _ => hClean, id⟩
  · have hHeader : Keeps clean weak (saveHeader server rio db) := keeps_header hWrite db
    rcases hSave : saveHeader server rio db st.channel with ⟨_ | headerRes, channel⟩
    · rw [hSave] at h
      cases h
      exact ⟨fun _ hSome => absurd hSome (by decide), hHeader.weak_of_eq hSave⟩
    · rw [hSave] at h
      have hWeakHeader : weak st.channel → weak channel := hHeader.weak_of_eq hSave
      have hEntries : StateKept clean weak (st.afterHeader headerRes channel)
          (saveEntries server rio db db.entries (st.afterHeader headerRes channel)) :=
        stateKept_entries hWrite db db.entries _
      dsimp only at h
      cases hRun : saveEntries server rio db db.entries (st.afterHeader headerRes channel) with
      | error failed =>
          rw [hRun] at h hEntries
          cases h
          exact ⟨fun _ hSome => absurd hSome (by decide),
            fun hWeak => hEntries (hWeakHeader hWeak)⟩
      | ok finished =>
          rw [hRun] at h hEntries
          cases h
          exact ⟨fun hClean _ => hEntries.1 (hHeader.clean _ _ _ hClean hSave),
            fun hWeak => hEntries.2 (hWeakHeader hWeak)⟩

/-- The loop over the databases, by induction on them. -/
theorem kept_saveDbs {dbs : List RedisDb} {st st' : DumpState σ} {ok : Bool}
    (h : saveDbsUntraced rio server dbs st = (ok, st')) :
    (clean st.channel → ok = true → clean st'.channel) ∧ (weak st.channel → weak st'.channel) := by
  induction dbs generalizing st with
  | nil =>
      cases h
      exact ⟨fun hClean _ => hClean, id⟩
  | cons db dbs ih =>
      rw [saveDbsUntraced] at h
      rcases hDb : rdbSaveDbUntraced server rio db st with ⟨_ | n, st₁⟩
      · obtain ⟨_, hWeak⟩ := kept_rdbSaveDb hWrite hDb
        rw [hDb] at h
        cases h
        exact ⟨fun _ hOk => absurd hOk (by decide), hWeak⟩
      · obtain ⟨hClean, hWeak⟩ := kept_rdbSaveDb hWrite hDb
        rw [hDb] at h
        obtain ⟨hCleanRest, hWeakRest⟩ := ih h
        exact ⟨fun hStart hOk => hCleanRest (hClean hStart rfl) hOk,
          fun hStart => hWeakRest (hWeak hStart)⟩

end Databases

section Files

variable {server : FileServer}

theorem keeps_auxField (field : Bytes × Bytes) :
    Keeps clean weak (rdbSaveAuxField server rio field) :=
  (keeps_type hWrite _).bind fun _ => (keeps_rawString hWrite _).bind fun _ =>
    (keeps_rawString hWrite _).bind fun _ => keeps_pure _

/-- The data of a module, which may be none. -/
theorem keeps_moduleAux (whence : Nat) (mt : ModuleAux) :
    Keeps clean weak (rdbSaveSingleModuleAux server rio whence mt) := by
  have hMarked : ∀ writes : List Bytes, Keeps clean weak
      (withEndMark server rio (Save.each (rdbWriteRaw rio) writes)) := fun writes =>
    keeps_marked (fun written eof => written + eof) (keeps_each hWrite writes) (keeps_len hWrite _)
  rw [rdbSaveSingleModuleAux]
  refine keeps_ite (keeps_ite (keeps_pure 0) (hMarked _)) ?_
  exact (hWrite _).bind fun _ => (hMarked _).bind fun _ => keeps_pure _

theorem keeps_modulesAux (ctx : DumpContext) (whence : AuxWhen) :
    Keeps clean weak (rdbSaveModulesAux server rio ctx whence) :=
  keeps_each (keeps_moduleAux hWrite _) _

theorem keeps_functions (ctx : DumpContext) : Keeps clean weak (rdbSaveFunctions server rio ctx) :=
  keeps_each (fun _ => (keeps_type hWrite _).bind fun _ => (keeps_rawString hWrite _).bind fun _ =>
    keeps_pure _) _

/-- What comes before the databases. -/
theorem keeps_before (ctx : DumpContext) (req : DumpRequest) :
    Keeps clean weak (saveBefore server rio ctx req) := by
  rw [saveBefore_eq]
  refine (hWrite _).bind fun _ => Keeps.bind (keeps_each (keeps_auxField hWrite) _) fun _ => ?_
  refine Keeps.bind (keeps_ite (keeps_pure 0) (keeps_modulesAux hWrite ctx _)) fun _ => ?_
  exact Keeps.bind (keeps_ite (keeps_pure 0) (keeps_functions hWrite ctx)) fun _ => keeps_pure _

/-- What comes after them. -/
theorem keeps_after (ctx : DumpContext) (req : DumpRequest) (skipped : Nat) :
    Keeps clean weak (saveAfter server rio ctx req skipped) := by
  have hChecksum : Keeps clean weak (saveChecksum server rio skipped) :=
    { clean := fun channel _ _ h hRun => (hWrite _).clean channel _ _ h hRun
      weak := fun channel h => (hWrite _).weak channel h }
  rw [saveAfter_eq]
  refine Keeps.bind (keeps_ite (keeps_pure 0) (keeps_modulesAux hWrite ctx _)) fun _ => ?_
  exact (keeps_type hWrite _).bind fun _ => hChecksum.bind fun _ => keeps_pure _

/-- A whole dump. -/
theorem kept_rdbSaveFile {ctx : DumpContext} {req : DumpRequest} {dbs : List RedisDb}
    {st st' : DumpState σ} {ok : Bool} (h : rdbSaveFile server rio ctx req dbs st = (ok, st')) :
    (clean st.channel → ok = true → clean st'.channel) ∧ (weak st.channel → weak st'.channel) := by
  have hBefore : Keeps clean weak (saveBefore server rio ctx req) := keeps_before hWrite ctx req
  have hAfter : Keeps clean weak (saveAfter server rio ctx req st.channel.writes.length) :=
    keeps_after hWrite ctx req _
  rw [rdbSaveFile] at h
  dsimp only at h
  split at h
  next channel hFirst =>
    cases h
    exact ⟨fun _ hOk => absurd hOk (by decide), hBefore.weak_of_eq hFirst⟩
  next n channel hFirst =>
    have hClean₁ : clean st.channel → clean channel := fun hClean =>
      hBefore.clean _ _ _ hClean hFirst
    have hWeak₁ : weak st.channel → weak channel := hBefore.weak_of_eq hFirst
    have hMiddle : ∀ {ok₂ : Bool} {st₂ : DumpState σ},
        (if req.excludeData then (true, { st with keyCounter := 0, channel := channel })
        else saveDbsUntraced rio server.toServer dbs
          { st with keyCounter := 0, channel := channel }) = (ok₂, st₂) →
        (clean channel → ok₂ = true → clean st₂.channel) ∧ (weak channel → weak st₂.channel) := by
      intro ok₂ st₂ hRun
      split_ifs at hRun
      · cases hRun
        exact ⟨fun hClean _ => hClean, id⟩
      · exact kept_saveDbs hWrite hRun
    split at h
    next st₂ hRun =>
      cases h
      obtain ⟨_, hWeak₂⟩ := hMiddle hRun
      exact ⟨fun _ hOk => absurd hOk (by decide), fun hWeak => hWeak₂ (hWeak₁ hWeak)⟩
    next st₂ hRun =>
      obtain ⟨hClean₂, hWeak₂⟩ := hMiddle hRun
      split at h
      next channel₂ hLast =>
        cases h
        exact ⟨fun _ hOk => absurd hOk (by decide),
          fun hWeak => hAfter.weak_of_eq hLast (hWeak₂ (hWeak₁ hWeak))⟩
      next m channel₂ hLast =>
        cases h
        exact ⟨fun hClean _ => hAfter.clean _ _ _ (hClean₂ (hClean₁ hClean) rfl) hLast,
          fun hWeak => hAfter.weak_of_eq hLast (hWeak₂ (hWeak₁ hWeak))⟩

end Files

end Redis
