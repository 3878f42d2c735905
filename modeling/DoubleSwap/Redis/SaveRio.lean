import DoubleSwap.Data.Milestones
import DoubleSwap.Redis.Transparency

/-! `rdbSaveRio` and the number of lines that it adds to the progress file. A
database writes a line when a threshold is passed, at most one for each key;
the thresholds are tenths of its size, rounded down. -/
namespace Redis

variable {σ : Type}

section Model

variable (server : Server) (rio : Rio σ)

/-- The loop over the databases. Each comes with the clock that is read while
it is saved. -/
def saveDbs : List (RedisDb × (Nat → Int)) → Traced σ → Option (Bool × Traced σ)
  | [], t => some (true, t)
  | (db, timeOfDay) :: dbs, t =>
      match rdbSaveDb { server with timeOfDay := timeOfDay } rio db t with
      | none => none
      | some (none, t') => some (false, t')
      | some (some _, t') => saveDbs dbs t'

def Traced.setChannel (t : Traced σ) (channel : Channel σ) : Traced σ :=
  t.setDump { t.dump with channel := channel }

/-- `rdbSaveRio`, with `true` for `C_OK`. The parameters `before` and `after`
are what is written around the databases: the magic string, the auxiliary
fields, the modules and functions, and then the modules, the end mark and the
checksum. `excludeData` is `SLAVE_REQ_RDB_EXCLUDE_DATA`. -/
def rdbSaveRio (excludeData : Bool) (before after : Save σ Nat)
    (dbs : List (RedisDb × (Nat → Int))) (t : Traced σ) : Option (Bool × Traced σ) :=
  let t := t.setDump { t.dump with keyCounter := 0 }
  match before t.dump.channel with
  | (none, channel) => some (false, t.setChannel channel)
  | (some _, channel) =>
      match if excludeData then some (true, t.setChannel channel)
          else saveDbs server rio dbs (t.setChannel channel) with
      | none => none
      | some (false, t') => some (false, t')
      | some (true, t') =>
          match after t'.dump.channel with
          | (none, channel) => some (false, t'.setChannel channel)
          | (some _, channel) => some (true, t'.setChannel channel)

end Model

variable {server : Server} {rio : Rio σ} {db : RedisDb}

/-- What the thresholds leave of `lines` lines after `done` keys: the last one
that was written was due, and the next one is not due yet unless every key has
written one. -/
structure LinesAfter (dbSize done lines : Nat) : Prop where
  le_done : lines ≤ done
  due : dbSize * lines / 10 ≤ done
  next : lines = done ∨ done < dbSize * (lines + 1) / 10

theorem LinesAfter.start (dbSize : Nat) : LinesAfter dbSize 0 0 :=
  ⟨Nat.le_refl 0, by omega, Or.inl rfl⟩

theorem LinesAfter.write {dbSize done lines : Nat} (h : LinesAfter dbSize done lines)
    (hDue : dbSize * (lines + 1) / 10 ≤ done + 1) : LinesAfter dbSize (done + 1) (lines + 1) := by
  refine ⟨Nat.succ_le_succ h.le_done, hDue, ?_⟩
  rcases h.next with hAll | hLater
  · exact Or.inl (congrArg (· + 1) hAll)
  · by_cases hSmall : dbSize < 10
    · -- Small databases pass a threshold with every key.
      have hThreshold : dbSize * (lines + 1) ≤ 9 * (lines + 1) :=
        Nat.mul_le_mul_right (lines + 1) (Nat.le_of_lt_succ hSmall)
      have hLines := h.le_done
      refine Or.inl ?_
      omega
    · have hStep : dbSize * (lines + 1 + 1) = dbSize * (lines + 1) + dbSize := Nat.mul_succ _ _
      refine Or.inr ?_
      omega

theorem LinesAfter.skip {dbSize done lines : Nat} (h : LinesAfter dbSize done lines)
    (hLater : done + 1 < dbSize * (lines + 1) / 10) : LinesAfter dbSize (done + 1) lines :=
  ⟨h.le_done.trans (Nat.le_succ done), h.due.trans (Nat.le_succ done), Or.inr hLater⟩

/-- After all keys there are ten lines, or one for each key if these are fewer. -/
theorem LinesAfter.total {dbSize lines : Nat} (h : LinesAfter dbSize dbSize lines) :
    lines = min dbSize 10 := by
  have hKeys := h.le_done
  have hDue := h.due
  have hTen : lines ≤ 10 := by
    by_contra hMany
    have hElevenfold : dbSize * 11 ≤ dbSize * lines := Nat.mul_le_mul_left dbSize (by omega)
    omega
  rcases h.next with hAll | hLater
  · omega
  · have hTenfold : 10 ≤ lines := by
      by_contra hFew
      have hBound : dbSize * (lines + 1) ≤ dbSize * 10 := Nat.mul_le_mul_left dbSize (by omega)
      omega
    omega

/-- A report counts the key, and it writes the line that is due and moves to the
next threshold, or leaves the file alone. -/
theorem report_step {t next : Traced σ} {dbSize done lines : Nat}
    (h : t.progress.Sound dbSize done) (hDone : done < dbSize)
    (hPercentage : t.progress.currentPercentage = 10 * (lines + 1))
    (hReport : t.report server dbSize = some next) :
    next.progress.Sound dbSize (done + 1) ∧
      if dbSize * (lines + 1) / 10 ≤ done + 1 then
        next.percentages = t.percentages ++
            [(server.timeOfDay (done + 1) - server.timeOfDay 0, 10 * (lines + 1))] ∧
          next.progress.currentPercentage = 10 * (lines + 1 + 1)
      else
        next.percentages = t.percentages ∧
          next.progress.currentPercentage = 10 * (lines + 1) := by
  have hSound := report_of_sound server t h hDone
  rw [hReport] at hSound
  split_ifs at hSound with hBound
  obtain ⟨found, hFound, _, hNext⟩ := hSound
  obtain rfl := Option.some.inj hFound
  refine ⟨hNext, ?_⟩
  rw [Traced.report] at hReport
  cases hCount : t.progress.count with
  | none =>
      rw [hCount] at hReport
      cases hReport
  | some p =>
      obtain ⟨number, _, hp⟩ := Option.map_eq_some_iff.mp hCount
      have hThreshold : p.keysToProcess = dbSize * (lines + 1) / 10 := by
        rw [← hp, ← Milestones.percentage_eq, ← hPercentage]
        exact h.keysToProcess_eq
      have hCurrent : p.currentPercentage = 10 * (lines + 1) := by
        rw [← hp]
        exact hPercentage
      have hProcessed : p.keysProcessed = done + 1 := by
        rw [← hp]
        show (t.progress.keysProcessed + 1) % 2 ^ 64 = done + 1
        rw [h.keysProcessed_eq, Nat.mod_eq_of_lt (by omega)]
      simp only [hCount, hThreshold, hProcessed] at hReport
      split_ifs at hReport ⊢ with hDue
      · obtain ⟨raised, hRaise, rfl⟩ := Option.map_eq_some_iff.mp hReport
        obtain ⟨percentage, hAdd, rfl⟩ := Option.map_eq_some_iff.mp hRaise
        have hTen : percentage = 10 * (lines + 1) + 10 := by
          rw [addInt, hCurrent] at hAdd
          split_ifs at hAdd
          exact (Option.some.inj hAdd).symm
        exact ⟨by rw [← hCurrent], hTen⟩
      · obtain rfl := Option.some.inj hReport
        exact ⟨rfl, hCurrent⟩

/-- The number of lines after a report. -/
theorem report_lines {t next : Traced σ} {dbSize done lines : Nat}
    (h : t.progress.Sound dbSize done) (hDone : done < dbSize)
    (hPercentage : t.progress.currentPercentage = 10 * (lines + 1))
    (hLines : LinesAfter dbSize done lines) (hReport : t.report server dbSize = some next) :
    ∃ more, next.percentages = t.percentages ++ more ∧ next.progress.Sound dbSize (done + 1) ∧
      next.progress.currentPercentage = 10 * (lines + more.length + 1) ∧
      LinesAfter dbSize (done + 1) (lines + more.length) := by
  obtain ⟨hSound, hStep⟩ := report_step h hDone hPercentage hReport
  split_ifs at hStep with hDue
  · exact ⟨_, hStep.1, hSound, hStep.2, hLines.write hDue⟩
  · refine ⟨[], ?_, hSound, hStep.2, hLines.skip (not_le.mp hDue)⟩
    rw [hStep.1, List.append_nil]

/-- What a successful loop has written when it started after `lines` lines. -/
theorem traceEntries_lines {entries : List DictEntry} {t final : Traced σ} {done lines : Nat}
    (h : t.progress.Sound db.size done) (hSize : done + entries.length = db.size)
    (hPercentage : t.progress.currentPercentage = 10 * (lines + 1))
    (hLines : LinesAfter db.size done lines)
    (hRun : traceEntries server rio db entries t = some (.ok final)) :
    ∃ more, final.percentages = t.percentages ++ more ∧
      LinesAfter db.size db.size (lines + more.length) := by
  induction entries generalizing t done lines with
  | nil =>
      obtain rfl : t = final := Except.ok.inj (Option.some.inj hRun)
      rw [List.length_nil, Nat.add_zero] at hSize
      rw [hSize] at hLines
      exact ⟨[], (List.append_nil _).symm, hLines⟩
  | cons de entries ih =>
      rw [List.length_cons] at hSize
      cases hSlot : saveSlot server rio db de t.dump with
      | error st => simp [traceEntries, hSlot] at hRun
      | ok st =>
          cases hLen : de.value.sdslen with
          | none => simp [traceEntries, hSlot, hLen] at hRun
          | some len =>
              cases hKey : saveKey server rio de st with
              | error st' => simp [traceEntries, hSlot, hLen, hKey] at hRun
              | ok st' =>
                  obtain ⟨finished, _, hProgress, hFile, hTrace⟩ :=
                    traceEntries_cons entries hSlot hLen hKey
                  rw [hTrace] at hRun
                  obtain ⟨next, hReport, hRest⟩ := Option.bind_eq_some_iff.mp hRun
                  rw [← hProgress] at h hPercentage
                  obtain ⟨first, hFirst, hSound, hNextPercentage, hNextLines⟩ :=
                    report_lines h (by omega) hPercentage hLines hReport
                  obtain ⟨more, hMore, hTotal⟩ :=
                    ih hSound (by omega) hNextPercentage hNextLines hRest
                  refine ⟨first ++ more, ?_, ?_⟩
                  · rw [hMore, hFirst, hFile, List.append_assoc]
                  · rw [List.length_append, ← Nat.add_assoc]
                    exact hTotal

/-- A database adds a line for every tenth of its keys, or for every key when
it has fewer than ten. -/
theorem rdbSaveDb_lines {t final : Traced σ} {written : Nat}
    (h : rdbSaveDb server rio db t = some (some written, final)) :
    ∃ more, final.percentages = t.percentages ++ more ∧ more.length = min db.size 10 := by
  rw [rdbSaveDb] at h
  split_ifs at h with hEmpty
  · cases h
    exact ⟨[], (List.append_nil _).symm, by rw [hEmpty]; rfl⟩
  · cases hHeader : saveHeader server rio db t.dump.channel with
    | mk res channel =>
        rw [hHeader] at h
        cases res with
        | none => cases h
        | some res =>
            obtain ⟨result, hRun, hRet⟩ := Option.map_eq_some_iff.mp h
            cases result with
            | error failed => cases hRet
            | ok finished =>
                cases hRet
                obtain ⟨more, hMore, hTotal⟩ := traceEntries_lines (Progress.sound_start db.size)
                  (Nat.zero_add _) rfl (LinesAfter.start db.size) hRun
                refine ⟨more, hMore, ?_⟩
                rw [Nat.zero_add] at hTotal
                exact hTotal.total

/-- The number of lines that a dump of these databases adds. -/
def lineCount (dbs : List (RedisDb × (Nat → Int))) : Nat :=
  (dbs.map fun db => min db.1.size 10).sum

theorem saveDbs_lines {dbs : List (RedisDb × (Nat → Int))} {t final : Traced σ}
    (h : saveDbs server rio dbs t = some (true, final)) :
    ∃ more, final.percentages = t.percentages ++ more ∧ more.length = lineCount dbs := by
  induction dbs generalizing t with
  | nil =>
      cases h
      exact ⟨[], (List.append_nil _).symm, rfl⟩
  | cons first dbs ih =>
      obtain ⟨db, timeOfDay⟩ := first
      rw [saveDbs] at h
      split at h
      · cases h
      · cases h
      · next written t' hDb =>
          obtain ⟨lines, hLines, hCount⟩ := rdbSaveDb_lines hDb
          obtain ⟨more, hMore, hRest⟩ := ih h
          refine ⟨lines ++ more, ?_, ?_⟩
          · rw [hMore, hLines, List.append_assoc]
          · rw [List.length_append, hCount, hRest, lineCount, lineCount, List.map_cons,
              List.sum_cons]

/-- A successful dump adds the lines of its databases and no others. -/
theorem rdbSaveRio_lines {before after : Save σ Nat} {dbs : List (RedisDb × (Nat → Int))}
    {t final : Traced σ} (h : rdbSaveRio server rio false before after dbs t = some (true, final)) :
    ∃ more, final.percentages = t.percentages ++ more ∧ more.length = lineCount dbs := by
  simp only [rdbSaveRio, Bool.false_eq_true, if_false] at h
  split at h
  · cases h
  · split at h
    · cases h
    · cases h
    · next t' hDbs =>
        obtain ⟨more, hMore, hCount⟩ := saveDbs_lines hDbs
        split at h
        · cases h
        · cases h
          exact ⟨more, hMore, hCount⟩

end Redis
