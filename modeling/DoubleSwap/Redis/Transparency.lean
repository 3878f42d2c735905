import DoubleSwap.Redis.Dump

/-! When the additions to `rdbSaveDb` leave a dump as it would be without them. -/
namespace Redis

variable {σ : Type} {server : Server} {rio : Rio σ} {db : RedisDb}

section Reached

variable (server : Server) (rio : Rio σ) (db : RedisDb)

/-- The entries that the loop without the additions gets to before a write
fails, the one whose key or value cannot be written included. -/
def reached : List DictEntry → DumpState σ → List DictEntry
  | [], _ => []
  | de :: entries, st =>
      match saveSlot server rio db de st with
      | .error _ => []
      | .ok st' =>
          match saveKey server rio de st' with
          | .error _ => [de]
          | .ok st'' => de :: reached entries st''

/-- The number of keys that are written before a write fails. -/
def savedKeys : List DictEntry → DumpState σ → Nat
  | [], _ => 0
  | de :: entries, st =>
      match saveSlot server rio db de st with
      | .error _ => 0
      | .ok st' =>
          match saveKey server rio de st' with
          | .error _ => 0
          | .ok st'' => savedKeys entries st'' + 1

/-- Every value that is reached is an SDS string, and the keys, `done` of them
already written, can be counted in an `int`. -/
structure Traceable (done : Nat) (entries : List DictEntry) (st : DumpState σ) : Prop where
  values : ∀ de ∈ reached server rio db entries st, de.value.IsSds
  keys : done + savedKeys server rio db entries st < 2 ^ 31

end Reached

section Steps

variable {de : DictEntry} {entries : List DictEntry} {st st' st'' : DumpState σ} {done : Nat}

theorem traceable_of_slot_error (hSlot : saveSlot server rio db de st = .error st')
    (hDone : done < 2 ^ 31) : Traceable server rio db done (de :: entries) st where
  values := by
    rw [reached, hSlot]
    exact fun de hde => absurd hde List.not_mem_nil
  keys := by
    rw [savedKeys, hSlot]
    exact hDone

theorem isSds_of_traceable (hSlot : saveSlot server rio db de st = .ok st')
    (h : Traceable server rio db done (de :: entries) st) : de.value.IsSds := by
  apply h.values
  cases hKey : saveKey server rio de st' with
  | error st'' => simp only [reached, hSlot, hKey, List.mem_singleton]
  | ok st'' => simp only [reached, hSlot, hKey, List.mem_cons, true_or]

theorem traceable_of_key_error (hSlot : saveSlot server rio db de st = .ok st')
    (hKey : saveKey server rio de st' = .error st'') (hSds : de.value.IsSds)
    (hDone : done < 2 ^ 31) : Traceable server rio db done (de :: entries) st where
  values := by
    simp only [reached, hSlot, hKey, List.mem_singleton, forall_eq]
    exact hSds
  keys := by
    simp only [savedKeys, hSlot, hKey]
    exact hDone

theorem traceable_cons_iff (hSlot : saveSlot server rio db de st = .ok st')
    (hKey : saveKey server rio de st' = .ok st'') :
    Traceable server rio db done (de :: entries) st ↔
      de.value.IsSds ∧ Traceable server rio db (done + 1) entries st'' := by
  have hReached : reached server rio db (de :: entries) st =
      de :: reached server rio db entries st'' := by simp only [reached, hSlot, hKey]
  have hSaved : savedKeys server rio db (de :: entries) st =
      savedKeys server rio db entries st'' + 1 := by simp only [savedKeys, hSlot, hKey]
  constructor
  · intro h
    have hValues := h.values
    have hKeys := h.keys
    rw [hReached, List.forall_mem_cons] at hValues
    rw [hSaved] at hKeys
    exact ⟨hValues.1, hValues.2, by omega⟩
  · rintro ⟨hSds, hValues, hKeys⟩
    constructor
    · rw [hReached, List.forall_mem_cons]
      exact ⟨hSds, hValues⟩
    · rw [hSaved]
      omega

end Steps

/-- The progress variables after `done` keys. -/
structure Progress.Sound (dbSize done : Nat) (p : Progress) : Prop where
  keyNumber_eq : p.keyNumber = done
  keysProcessed_eq : p.keysProcessed = done
  keysToProcess_eq : p.keysToProcess = dbSize * p.currentPercentage / 100
  percentage_ge : 10 ≤ p.currentPercentage

theorem Progress.sound_start (dbSize : Nat) : (Progress.start dbSize).Sound dbSize 0 where
  keyNumber_eq := rfl
  keysProcessed_eq := rfl
  keysToProcess_eq := by
    exact (Nat.mul_div_mul_right dbSize 10 (show 0 < 10 by decide)).symm
  percentage_ge := Nat.le_refl 10

/-- A percentage that is reached is small, and so is the product of the next one. -/
theorem percentage_bounds {dbSize done percentage : Nat} (hDone : done < dbSize)
    (hBound : done + 1 < 2 ^ 31) (hTen : 10 ≤ percentage)
    (hReached : dbSize * percentage / 100 ≤ done + 1) :
    percentage < 200 ∧ dbSize * (percentage + 10) < 2 ^ 64 := by
  have hTenfold : dbSize * 10 ≤ dbSize * percentage := Nat.mul_le_mul_left dbSize hTen
  constructor
  · by_contra hLarge
    have hDouble : dbSize * 200 ≤ dbSize * percentage :=
      Nat.mul_le_mul_left dbSize (Nat.le_of_not_lt hLarge)
    omega
  · rw [Nat.mul_add]
    omega

/-- One key more is counted as long as the counter can hold it. -/
theorem report_of_sound (server : Server) (t : Traced σ) {dbSize done : Nat}
    (h : t.progress.Sound dbSize done) (hDone : done < dbSize) :
    if done + 1 < 2 ^ 31 then
      ∃ next, t.report server dbSize = some next ∧ next.dump = t.dump ∧
        next.progress.Sound dbSize (done + 1)
    else t.report server dbSize = none := by
  have hNumber := h.keyNumber_eq
  have hProcessed := h.keysProcessed_eq
  split_ifs with hBound
  · have hCount : t.progress.count =
        some { t.progress with keyNumber := done + 1, keysProcessed := done + 1 } := by
      rw [Progress.count, addInt, hNumber, if_pos hBound, hProcessed,
        Nat.mod_eq_of_lt (by omega), Option.map_some]
    simp only [Traced.report, hCount]
    split_ifs with hReached
    · have hThreshold := h.keysToProcess_eq
      rw [hThreshold] at hReached
      obtain ⟨hSmall, hProduct⟩ := percentage_bounds hDone hBound h.percentage_ge hReached
      have hRaise : t.progress.currentPercentage + 10 < 2 ^ 31 := by omega
      simp only [Progress.raise, addInt, if_pos hRaise]
      refine ⟨_, rfl, rfl, rfl, rfl, ?_, ?_⟩
      · simp only [Nat.mod_eq_of_lt hProduct]
      · exact Nat.le_add_left 10 _
    · exact ⟨_, rfl, rfl, rfl, rfl, h.keysToProcess_eq, h.percentage_ge⟩
  · rw [Traced.report, Progress.count, addInt, hNumber, if_neg hBound]
    rfl

/-- A key that is written leaves the progress to the report. -/
theorem traceEntries_cons (entries : List DictEntry) {de : DictEntry} {t : Traced σ}
    {st st' : DumpState σ} {len : Nat} (hSlot : saveSlot server rio db de t.dump = .ok st)
    (hLen : de.value.sdslen = some len) (hKey : saveKey server rio de st = .ok st') :
    ∃ finished : Traced σ, finished.dump = st' ∧ finished.progress = t.progress ∧
      finished.percentages = t.percentages ∧
      traceEntries server rio db (de :: entries) t =
        (finished.report server db.size).bind (traceEntries server rio db entries) := by
  refine ⟨(((t.setDump st).log server de len "OUT G* NONE".toList).setDump st').log server de len
    "OUT G NONE".toList, rfl, rfl, rfl, ?_⟩
  simp only [traceEntries, hSlot, hLen, hKey]
  cases (((((t.setDump st).log server de len "OUT G* NONE".toList).setDump st').log server de len
    "OUT G NONE".toList).report server db.size) with
  | none => rfl
  | some next => rfl

/-- A traceable loop is defined, and does what it does without the additions. -/
theorem traceEntries_of_traceable (entries : List DictEntry) {done : Nat} (t : Traced σ)
    (hProgress : t.progress.Sound db.size done) (hSize : done + entries.length ≤ db.size)
    (h : Traceable server rio db done entries t.dump) :
    (traceEntries server rio db entries t).map erase =
      some (saveEntries server rio db entries t.dump) := by
  induction entries generalizing done t with
  | nil => rfl
  | cons de entries ih =>
      rw [List.length_cons] at hSize
      cases hSlot : saveSlot server rio db de t.dump with
      | error st =>
          simp only [traceEntries, saveEntries, hSlot]
          rfl
      | ok st =>
          have hSds := isSds_of_traceable hSlot h
          obtain ⟨len, hLen⟩ := Option.ne_none_iff_exists'.mp
            (fun hNone => (Robj.sdslen_eq_none_iff de.value).mp hNone hSds)
          cases hKey : saveKey server rio de st with
          | error st' =>
              simp only [traceEntries, saveEntries, hSlot, hLen, hKey]
              rfl
          | ok st' =>
              have hRest := ((traceable_cons_iff hSlot hKey).mp h).2
              obtain ⟨finished, hDump, hSame, _, hTrace⟩ :=
                traceEntries_cons entries hSlot hLen hKey
              have hReport := report_of_sound server finished (hSame ▸ hProgress)
                (by omega)
              rw [if_pos (by have hKeys := hRest.keys; omega)] at hReport
              obtain ⟨next, hNext, hNextDump, hSound⟩ := hReport
              rw [hDump] at hNextDump
              rw [hTrace, hNext, Option.bind_some, ih next hSound (by omega) (hNextDump ▸ hRest),
                hNextDump]
              simp only [saveEntries, hSlot, hKey]

/-- Any other loop is undefined. -/
theorem traceEntries_of_not_traceable (entries : List DictEntry) {done : Nat} (t : Traced σ)
    (hProgress : t.progress.Sound db.size done) (hSize : done + entries.length ≤ db.size)
    (hDone : done < 2 ^ 31) (h : ¬ Traceable server rio db done entries t.dump) :
    traceEntries server rio db entries t = none := by
  induction entries generalizing done t with
  | nil => exact absurd ⟨fun de hde => absurd hde List.not_mem_nil, hDone⟩ h
  | cons de entries ih =>
      rw [List.length_cons] at hSize
      cases hSlot : saveSlot server rio db de t.dump with
      | error st => exact absurd (traceable_of_slot_error hSlot hDone) h
      | ok st =>
          cases hLen : de.value.sdslen with
          | none => simp only [traceEntries, hSlot, hLen]
          | some len =>
              have hSds : de.value.IsSds := by
                by_contra hNot
                rw [(Robj.sdslen_eq_none_iff de.value).mpr hNot] at hLen
                cases hLen
              cases hKey : saveKey server rio de st with
              | error st' => exact absurd (traceable_of_key_error hSlot hKey hSds hDone) h
              | ok st' =>
                  have hRest : ¬ Traceable server rio db (done + 1) entries st' :=
                    fun hRest => h ((traceable_cons_iff hSlot hKey).mpr ⟨hSds, hRest⟩)
                  obtain ⟨finished, hDump, hSame, _, hTrace⟩ :=
                    traceEntries_cons entries hSlot hLen hKey
                  have hReport := report_of_sound server finished (hSame ▸ hProgress)
                    (by omega)
                  rw [hTrace]
                  split_ifs at hReport with hBound
                  · obtain ⟨next, hNext, hNextDump, hSound⟩ := hReport
                    rw [hDump] at hNextDump
                    rw [hNext, Option.bind_some]
                    exact ih next hSound (by omega) hBound (hNextDump ▸ hRest)
                  · rw [hReport, Option.bind_none]

/-- The traced function is defined, writes the same bytes and returns the same
result exactly when the loop is traceable, if it is entered at all. -/
theorem rdbSaveDb_transparent_iff (server : Server) (rio : Rio σ) (db : RedisDb) (t : Traced σ) :
    (rdbSaveDb server rio db t).map (fun result => (result.1, result.2.dump)) =
        some (rdbSaveDbUntraced server rio db t.dump) ↔
      ∀ res channel, saveHeader server rio db t.dump.channel = (some res, channel) →
        Traceable server rio db 0 db.entries (t.dump.afterHeader res channel) := by
  rw [rdbSaveDb, rdbSaveDbUntraced]
  by_cases hEmpty : db.size = 0
  · have hNil : db.entries = [] := List.length_eq_zero_iff.mp hEmpty
    rw [if_pos hEmpty, if_pos hEmpty, hNil]
    refine iff_of_true rfl (fun res channel _ => ⟨?_, ?_⟩)
    · exact fun de hde => absurd hde List.not_mem_nil
    · exact Nat.two_pow_pos 31
  · rw [if_neg hEmpty, if_neg hEmpty]
    obtain ⟨headerRes, channel⟩ := saveHeader server rio db t.dump.channel
    cases headerRes with
    | none =>
        refine iff_of_true rfl (fun res channel' h => ?_)
        cases h
    | some res =>
        have hStart : (t.afterHeader db res channel).progress.Sound db.size 0 :=
          Progress.sound_start db.size
        have hSize : 0 + db.entries.length ≤ db.size := (Nat.zero_add _).le
        constructor
        · intro hSame res' channel' h
          cases h
          by_contra hNot
          have hNone := traceEntries_of_not_traceable db.entries _ hStart hSize
            (Nat.two_pow_pos 31) hNot
          simp only [hNone] at hSame
          cases hSame
        · intro h
          have hErased := traceEntries_of_traceable db.entries _ hStart hSize (h res channel rfl)
          obtain ⟨result, hResult, hErase⟩ := Option.map_eq_some_iff.mp hErased
          have hRet : ret (erase result) =
              ((retTraced result).1, (retTraced result).2.dump) := by
            cases result with
            | error t' => rfl
            | ok t' => rfl
          simp only [hResult, Option.map_some, ← hRet, hErase]
          rfl

/-- A server with the constants of the format, and no compression. -/
def plainServer : Server where
  format :=
    { opcode := fun
        | .selectDb => 254 | .resizeDb => 251 | .slotInfo => 244
        | .expireTimeMs => 252 | .idle => 248 | .freq => 249
      type := fun
        | .string => 0 | .listQuicklist2 => 18 | .setIntset => 11 | .set => 2
        | .setListpack => 20 | .zsetListpack => 17 | .zset2 => 5 | .hashListpack => 16
        | .hashListpackEx => 25 | .hash => 4 | .hashMetadata => 24
        | .streamListpacks3 => 21 | .module2 => 7
      sixBitLen := 0
      fourteenBitLen := 1
      thirtyTwoBitLen := 128
      sixtyFourBitLen := 129
      encVal := 3
      encInt8 := 0
      encInt16 := 1
      encInt32 := 2
      encLzf := 3
      moduleOpcodeEof := 0
      containerPacked := 2 }
  string2ll := fun _ => none
  ll2string := fun _ => []
  lzfCompress := fun _ _ => none
  rdbCompression := false
  lruPolicy := false
  lfuPolicy := false
  clusterEnabled := false
  inForkChild := false
  pageBits := 12
  pageBits_lt := by decide
  mstime := fun _ => 0
  timeOfDay := fun _ => 0

/-- A stream that takes every write. -/
def openRio : Rio UInt64 where
  write p n := (true, n + UInt64.ofNat p.length)
  processedBytes := id

def freshDump : Traced UInt64 where
  dump := ⟨⟨0, []⟩, 0, none, 0, 0, [], []⟩
  guestLog := []
  percentages := []
  progress := .start 0

/-- The key `n` with the number 42, as `SET n 42` stores it. -/
def counterDb : RedisDb where
  dbid := 0
  entries := [⟨0, ⟨140000000000000, [110], by decide⟩, .string (.int 42), none, 0, 0⟩]

/-- The number is read as an address; without the additions it is saved. -/
theorem counterDb_undefined :
    ¬ (rdbSaveDb plainServer openRio counterDb freshDump).map
          (fun result => (result.1, result.2.dump)) =
        some (rdbSaveDbUntraced plainServer openRio counterDb freshDump.dump) ∧
      rdbSaveDb plainServer openRio counterDb freshDump = none ∧
      (rdbSaveDbUntraced plainServer openRio counterDb freshDump.dump).1 = some 6 ∧
      (rdbSaveDbUntraced plainServer openRio counterDb freshDump.dump).2.channel.writes =
        [[254], [0], [251], [1], [0], [0], [1], [110], [192, 42]] := by
  decide

end Redis
