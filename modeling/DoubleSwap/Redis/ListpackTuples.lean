import DoubleSwap.Redis.LoadCollections

/-! What the deep check of a listpack of tuples accepts: whole tuples with
different keys, and times in order. -/
namespace Redis

variable {server : ObjectServer} {tupleLen : Nat}

/-- The entries at a place of their tuples, when the first one has this number. -/
def lpColumn (tupleLen column start : Nat) (entries : List LpEntry) : List LpEntry :=
  ((entries.zipIdx start).filter fun entry => entry.2 % tupleLen = column).map Prod.fst

/-- Times stand in order, and fields without a time after them. -/
def TimesOrdered (earlier later : Int) : Prop := later ≠ 0 → earlier ≠ 0 ∧ earlier ≤ later

/-- Times that are in order from one to the next are in order throughout. -/
theorem TimesOrdered.trans {a b c : Int} (hFirst : TimesOrdered a b) (hSecond : TimesOrdered b c) :
    TimesOrdered a c := fun hc => by
  obtain ⟨hb, hbc⟩ := hSecond hc
  obtain ⟨ha, hab⟩ := hFirst hb
  exact ⟨ha, hab.trans hbc⟩

/-- The times of a listpack, which are numbers in range and in order. -/
def TimesValid (server : ObjectServer) (last : Int) (entries : List LpEntry) : Prop :=
  ∃ times : List Int, entries.map LpEntry.number = times.map some ∧
    (∀ time ∈ times, 0 ≤ time ∧ time ≤ (server.expireTimeMax : Int)) ∧
    (last :: times).Pairwise TimesOrdered

/-- A listpack of whole tuples, whose keys differ. -/
structure TuplesValid (server : ObjectServer) (tupleLen : Nat) (entries : List LpEntry) : Prop where
  whole : entries.length % tupleLen = 0
  keys_nodup : ((lpColumn tupleLen 0 0 entries).map LpEntry.text).Nodup
  times : TimesValid server (-1) (lpColumn tupleLen 2 0 entries)

/-- The first entry is in the column or not. -/
theorem lpColumn_cons (column start : Nat) (entry : LpEntry) (entries : List LpEntry) :
    lpColumn tupleLen column start (entry :: entries) =
      (if start % tupleLen = column then [entry] else []) ++
        lpColumn tupleLen column (start + 1) entries := by
  rw [lpColumn, List.zipIdx_cons, List.filter_cons, lpColumn]
  by_cases h : start % tupleLen = column
  · simp [h]
  · simp [h]

theorem timesValid_nil (last : Int) : TimesValid server last [] :=
  ⟨[], rfl, fun _ h => absurd h List.not_mem_nil, List.pairwise_singleton _ _⟩

/-- A first time, and the others after it. -/
theorem timesValid_cons {last : Int} {entry : LpEntry} {entries : List LpEntry} :
    TimesValid server last (entry :: entries) ↔ ∃ time : Int, entry.number = some time ∧
      (0 ≤ time ∧ time ≤ server.expireTimeMax) ∧ TimesOrdered last time ∧
      TimesValid server time entries := by
  constructor
  · rintro ⟨_ | ⟨time, times⟩, hNumbers, hRange, hOrder⟩
    · cases hNumbers
    · obtain ⟨hNumber, hRest⟩ := List.cons.inj hNumbers
      rw [List.pairwise_cons] at hOrder
      rw [List.forall_mem_cons] at hRange
      exact ⟨time, hNumber, hRange.1, hOrder.1 time List.mem_cons_self, times, hRest, hRange.2,
        hOrder.2⟩
  · rintro ⟨time, hNumber, hRange, hFirst, times, hRest, hRanges, hOrder⟩
    refine ⟨time :: times, ?_, List.forall_mem_cons.mpr ⟨hRange, hRanges⟩, ?_⟩
    · rw [List.map_cons, List.map_cons, hNumber, hRest]
    · refine List.pairwise_cons.mpr ⟨?_, hOrder⟩
      rw [List.forall_mem_cons]
      exact ⟨hFirst,
        fun later hLater => hFirst.trans ((List.pairwise_cons.mp hOrder).1 later hLater)⟩

/-- Of the entries only the keys are compared. -/
theorem lpKeyCheck_eq_some {data : LpValidation} {entry : LpEntry} {fields : List Bytes} :
    lpKeyCheck tupleLen data entry = some fields ↔
      (data.count % tupleLen = 0 → entry.text ∉ data.fields) ∧
      fields = data.fields ++ if data.count % tupleLen = 0 then [entry.text] else [] := by
  rw [lpKeyCheck]
  split_ifs with hColumn hMem
  · simp [hMem, hColumn]
  · simp [hMem, eq_comm]
  · simp [hColumn, eq_comm]

/-- A key is accepted if it differs from those before it. -/
theorem nodup_iff_lpKeyCheck {data : LpValidation} (entry : LpEntry) (keys : List Bytes) :
    (data.fields ++ ((if data.count % tupleLen = 0 then [entry] else []).map LpEntry.text ++
      keys)).Nodup ↔
      ∃ fields, lpKeyCheck tupleLen data entry = some fields ∧ fields.Nodup ∧
        (fields ++ keys).Nodup := by
  rw [← List.append_assoc]
  constructor
  · intro h
    have hFields := h.of_append_left
    refine ⟨_, lpKeyCheck_eq_some.mpr ⟨fun hColumn hMem => ?_, ?_⟩, hFields, h⟩
    · rw [if_pos hColumn] at hFields
      exact List.disjoint_of_nodup_append hFields hMem (List.mem_singleton_self _)
    · split_ifs <;> rfl
  · rintro ⟨fields, hKey, _, hAll⟩
    obtain ⟨_, rfl⟩ := lpKeyCheck_eq_some.mp hKey
    convert hAll using 3
    split_ifs <;> rfl

/-- A time is accepted if it is in range and in order. -/
theorem lpTimeCheck_eq_some {data : LpValidation} {entry : LpEntry} {last : Int} :
    lpTimeCheck server tupleLen data entry = some last ↔
      if data.count % tupleLen = 2 then
        entry.number = some last ∧ (0 ≤ last ∧ last ≤ (server.expireTimeMax : Int)) ∧
          TimesOrdered data.lastExpireat last
      else last = data.lastExpireat := by
  rw [lpTimeCheck]
  split_ifs with hColumn
  · cases hNumber : entry.number with
    | none => simp
    | some time =>
        dsimp only
        rw [TimesOrdered]
        constructor
        · intro h
          split_ifs at h with hRange hOrder
          obtain rfl := Option.some.inj h
          exact ⟨rfl, by omega, fun hSome => by omega⟩
        · rintro ⟨hSame, hRange, hOrder⟩
          obtain rfl := Option.some.inj hSame
          rw [if_neg (by omega), if_neg (by omega)]
  · exact ⟨fun h => (Option.some.inj h).symm, fun h => congrArg some h.symm⟩

/-- The times are valid if the first is and those after it are. -/
theorem timesValid_iff_lpTimeCheck {data : LpValidation} (entry : LpEntry)
    (entries : List LpEntry) :
    TimesValid server data.lastExpireat
      ((if data.count % tupleLen = 2 then [entry] else []) ++ entries) ↔
      ∃ last, lpTimeCheck server tupleLen data entry = some last ∧
        TimesValid server last entries := by
  simp only [lpTimeCheck_eq_some]
  split_ifs
  · simp only [List.singleton_append, timesValid_cons, and_assoc]
  · simp only [List.nil_append, exists_eq_left]

/-- An entry passes if its key and its time do. -/
theorem lpEntryValidation_eq_some {data data' : LpValidation} {entry : LpEntry} :
    lpEntryValidation server tupleLen data entry = some data' ↔
      data'.count = data.count + 1 ∧ lpKeyCheck tupleLen data entry = some data'.fields ∧
        lpTimeCheck server tupleLen data entry = some data'.lastExpireat := by
  constructor
  · intro h
    obtain ⟨fields, hFields, hRest⟩ := Option.bind_eq_some_iff.mp h
    obtain ⟨last, hLast, hSome⟩ := Option.bind_eq_some_iff.mp hRest
    cases hSome
    exact ⟨rfl, hFields, hLast⟩
  · rintro ⟨hCount, hFields, hLast⟩
    refine Option.bind_eq_some_iff.mpr ⟨_, hFields, Option.bind_eq_some_iff.mpr ⟨_, hLast, ?_⟩⟩
    rw [← hCount]
    rfl

/-- What the check accepts from a state on, in which no key is there twice. -/
theorem foldlM_lpEntryValidation {entries : List LpEntry} {data : LpValidation}
    (hNodup : data.fields.Nodup) :
    (∃ data', entries.foldlM (lpEntryValidation server tupleLen) data = some data') ↔
      (data.fields ++ (lpColumn tupleLen 0 data.count entries).map LpEntry.text).Nodup ∧
        TimesValid server data.lastExpireat (lpColumn tupleLen 2 data.count entries) := by
  induction entries generalizing data with
  | nil =>
      constructor
      · intro _
        exact ⟨by simpa [lpColumn] using hNodup, timesValid_nil _⟩
      · intro _
        exact ⟨data, rfl⟩
  | cons entry entries ih =>
      rw [lpColumn_cons, lpColumn_cons, List.map_append, nodup_iff_lpKeyCheck,
        timesValid_iff_lpTimeCheck]
      constructor
      · rintro ⟨data', hRun⟩
        rw [List.foldlM_cons] at hRun
        obtain ⟨next, hStep, hRest⟩ := Option.bind_eq_some_iff.mp hRun
        obtain ⟨hNext, hKey, hTime⟩ := lpEntryValidation_eq_some.mp hStep
        have hFields : next.fields.Nodup := by
          obtain ⟨hNew, hEq⟩ := lpKeyCheck_eq_some.mp hKey
          rw [hEq]
          split_ifs with hColumn
          · exact hNodup.append (List.nodup_singleton _)
              (List.disjoint_singleton.mpr (hNew hColumn))
          · rwa [List.append_nil]
        obtain ⟨hKeys, hTimes⟩ := (ih hFields).mp ⟨data', hRest⟩
        rw [hNext] at hKeys hTimes
        exact ⟨⟨_, hKey, hFields, hKeys⟩, _, hTime, hTimes⟩
      · rintro ⟨⟨fields, hKey, hFields, hKeys⟩, last, hTime, hTimes⟩
        have hStep : lpEntryValidation server tupleLen data entry =
            some ⟨data.count + 1, fields, last⟩ :=
          lpEntryValidation_eq_some.mpr ⟨rfl, hKey, hTime⟩
        have hNext : (LpValidation.mk (data.count + 1) fields last).fields.Nodup := hFields
        obtain ⟨data', hRest⟩ := (ih hNext).mpr ⟨hKeys, hTimes⟩
        refine ⟨data', ?_⟩
        rw [List.foldlM_cons, hStep]
        exact hRest

/-- The check counts the entries. -/
theorem count_foldlM {entries : List LpEntry} {data data' : LpValidation}
    (h : entries.foldlM (lpEntryValidation server tupleLen) data = some data') :
    data'.count = data.count + entries.length := by
  induction entries generalizing data with
  | nil =>
      cases h
      rfl
  | cons entry entries ih =>
      rw [List.foldlM_cons] at h
      obtain ⟨next, hStep, hRest⟩ := Option.bind_eq_some_iff.mp h
      rw [ih hRest, (lpEntryValidation_eq_some.mp hStep).1, List.length_cons]
      omega

/-- The deep check accepts a listpack of tuples if and only if they are whole, their
keys differ, and their times are in order. -/
theorem validate_deep_iff (lp : Bytes) :
    lpValidateIntegrityAndDups server lp true tupleLen = true ↔
      ∃ entries, server.lpEntries lp = some entries ∧ TuplesValid server tupleLen entries := by
  rw [lpValidateIntegrityAndDups, if_neg (by decide)]
  cases hEntries : server.lpEntries lp with
  | none => simp
  | some entries =>
      have hCheck : (∃ data', entries.foldlM (lpEntryValidation server tupleLen) ⟨0, [], -1⟩ =
          some data') ↔ ((lpColumn tupleLen 0 0 entries).map LpEntry.text).Nodup ∧
            TimesValid server (-1) (lpColumn tupleLen 2 0 entries) :=
        foldlM_lpEntryValidation List.nodup_nil
      constructor
      · intro h
        refine ⟨entries, rfl, ?_⟩
        cases hRun : entries.foldlM (lpEntryValidation server tupleLen) ⟨0, [], -1⟩ with
        | none =>
            simp only [hRun] at h
            cases h
        | some data =>
            simp only [hRun] at h
            have hCount := count_foldlM hRun
            rw [Nat.zero_add] at hCount
            obtain ⟨hKeys, hTimes⟩ := hCheck.mp ⟨data, hRun⟩
            exact ⟨hCount ▸ of_decide_eq_true h, hKeys, hTimes⟩
      · rintro ⟨entries', hSame, hValid⟩
        obtain rfl := Option.some.inj hSame
        obtain ⟨data, hRun⟩ := hCheck.mpr ⟨hValid.keys_nodup, hValid.times⟩
        have hCount := count_foldlM hRun
        rw [Nat.zero_add] at hCount
        simp only [hRun]
        exact decide_eq_true (hCount ▸ hValid.whole)

end Redis
