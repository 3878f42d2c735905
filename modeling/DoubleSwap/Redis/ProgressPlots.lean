import DoubleSwap.Redis.SaveRio
import DoubleSwap.Text.Decimal

/-! The progress file and the two scripts that plot it. The file is appended to
by every dump and has no marks between dumps; each script cuts it at line
numbers of its own. -/
namespace Redis

open Text

/-- A progress record: the seconds since the start, and the percentage. -/
abbrev ProgressRecord := Int × Nat

/-- `fprintf(fp, "%ld %d\n", elapsed_time, current_percentage)`. -/
def progressLine (r : ProgressRecord) : Text := intText r.1 ++ ' ' :: (decimal r.2 ++ ['\n'])

/-- The two lists of a curve. -/
structure Series where
  times : List Int
  percentages : List Int
  deriving DecidableEq, Repr

namespace Series

/-- `times.append(time)` and `percentages.append(percentage)`. -/
def append (series : Series) (point : Int × Int) : Series :=
  ⟨series.times ++ [point.1], series.percentages ++ [point.2]⟩

/-- The series with the points of these records at its end. -/
def extend (series : Series) (records : List ProgressRecord) : Series :=
  ⟨series.times ++ records.map fun r => r.1, series.percentages ++ records.map fun r => (r.2 : Int)⟩

def empty : Series := ⟨[], []⟩

/-- A series that starts with the point (0, 0). -/
def fromOrigin : Series := ⟨[0], [0]⟩

end Series

/-- `time, percentage = line.strip().split()` with the two calls of `int`.
`none` is the `ValueError` that ends the script. -/
def parseProgress (line : Text) : Option (Int × Int) :=
  match words (strip line) with
  | [time, percentage] =>
      (parseInt time).bind fun time =>
        (parseInt percentage).map fun percentage => (time, percentage)
  | _ => none

/-- The loop of the plotting scripts. `choose` is the number of the series
that line `i` goes to. -/
def separate (choose : Nat → Nat) : Nat → List Series → List Text → Option (List Series)
  | _, all, [] => some all
  | i, all, line :: lines =>
      match parseProgress line with
      | none => none
      | some point => separate choose (i + 1) (all.modify (choose i) (·.append point)) lines

/-- `plot_log.py`. -/
def plotLog (lines : List Text) : Option (List Series) :=
  separate (fun i => if i < 10 then 0 else if i < 20 then 1 else if i < 30 then 2 else 3) 0
    (List.replicate 4 Series.fromOrigin) lines

/-- `simple_plot.py`. -/
def simplePlot (lines : List Text) : Option (List Series) :=
  separate (fun i => if i < 11 then 0 else 1) 0 (List.replicate 2 Series.empty) lines

/-- The readers understand what the writer writes. -/
theorem parseProgress_progressLine (r : ProgressRecord) :
    parseProgress (progressLine r) = some (r.1, (r.2 : Int)) := by
  have hBreak : ∀ c ∈ ['\n'], isSpace c = true := by
    intro c hc
    rw [List.mem_singleton.mp hc]
    rfl
  have hWords : words (strip (progressLine r)) = [intText r.1, decimal r.2] := by
    rw [words_strip, progressLine, words_word_space (isWord_intText r.1) (by decide),
      words_append_spaces _ _ hBreak, words_singleton (isNumeral_decimal r.2).isWord]
  simp [parseProgress, hWords]

theorem Series.extend_nil (series : Series) : series.extend [] = series := by
  simp [Series.extend]

theorem Series.append_extend (series : Series) (r : ProgressRecord)
    (records : List ProgressRecord) :
    (series.append (r.1, (r.2 : Int))).extend records = series.extend (r :: records) := by
  simp [Series.append, Series.extend]

private theorem records_eq {first second : List ProgressRecord}
    (hTimes : (first.map fun r => r.1) = second.map fun r => r.1)
    (hPercentages : (first.map fun r => (r.2 : Int)) = second.map fun r => (r.2 : Int)) :
    first = second := by
  induction first generalizing second with
  | nil => exact (List.map_eq_nil_iff.mp hTimes.symm).symm
  | cons r first ih =>
      cases second with
      | nil => cases hTimes
      | cons s second =>
          rw [List.map_cons, List.map_cons, List.cons.injEq] at hTimes hPercentages
          rw [ih hTimes.2 hPercentages.2]
          exact congrArg (· :: second) (Prod.ext hTimes.1 (Int.ofNat.inj hPercentages.1))

theorem Series.extend_inj {series : Series} {first second : List ProgressRecord} :
    series.extend first = series.extend second ↔ first = second := by
  constructor
  · intro h
    exact records_eq (List.append_cancel_left (congrArg Series.times h))
      (List.append_cancel_left (congrArg Series.percentages h))
  · rintro rfl
    rfl

/-- Lines that go to one series are added to it. -/
theorem separate_block {choose : Nat → Nat} {n i : Nat} (records : List ProgressRecord)
    (h : ∀ j, i ≤ j → j < i + records.length → choose j = n) (all : List Series)
    (lines : List Text) :
    separate choose i all (records.map progressLine ++ lines) =
      separate choose (i + records.length) (all.modify n (·.extend records)) lines := by
  induction records generalizing i all with
  | nil =>
      have hSame : all.modify n (·.extend []) = all := by
        simp only [Series.extend_nil]
        exact List.modify_id n all
      rw [hSame]
      rfl
  | cons r records ih =>
      have hFirst : choose i = n := h i (Nat.le_refl i) (by simp)
      rw [List.map_cons, List.cons_append, separate, parseProgress_progressLine]
      simp only [hFirst]
      rw [ih (fun j hLow hHigh => h j (by omega) (by rw [List.length_cons]; omega)),
        List.modify_modify_eq, List.length_cons]
      have hExtend : ((fun series => Series.extend series records) ∘
          fun series => Series.append series (r.1, (r.2 : Int))) =
            fun series => Series.extend series (r :: records) := by
        funext series
        exact Series.append_extend series r records
      rw [hExtend]
      congr 1
      omega

/-- A cut after `k` lines, whether the file has so many or not. -/
theorem separate_cut {choose : Nat → Nat} {n i k : Nat}
    (h : ∀ j, i ≤ j → j < i + k → choose j = n) (all : List Series) (file : List ProgressRecord) :
    separate choose i all (file.map progressLine) =
      separate choose (i + k) (all.modify n (·.extend (file.take k)))
        ((file.drop k).map progressLine) := by
  have hBlock := separate_block (file.take k)
    (fun j hLow hHigh => h j hLow (by rw [List.length_take] at hHigh; omega)) all
    ((file.drop k).map progressLine)
  rw [← List.map_append, List.take_append_drop] at hBlock
  rw [hBlock]
  rcases Nat.le_total k file.length with hLong | hShort
  · rw [List.length_take_of_le hLong]
  · rw [List.drop_of_length_le hShort]
    rfl

theorem separate_rest {choose : Nat → Nat} {n i : Nat} (h : ∀ j, i ≤ j → choose j = n)
    (all : List Series) (file : List ProgressRecord) :
    separate choose i all (file.map progressLine) = some (all.modify n (·.extend file)) := by
  have hBlock := separate_block file (fun j hLow _ => h j hLow) all []
  rw [List.append_nil] at hBlock
  rw [hBlock]
  rfl

/-- `plot_log.py` cuts the file after every ten records, three times. -/
theorem plotLog_eq (file : List ProgressRecord) :
    plotLog (file.map progressLine) =
      some [Series.fromOrigin.extend (file.take 10),
        Series.fromOrigin.extend ((file.drop 10).take 10),
        Series.fromOrigin.extend ((file.drop 20).take 10),
        Series.fromOrigin.extend (file.drop 30)] := by
  rw [plotLog, separate_cut (k := 10) (n := 0) (by intro j _ hj; rw [if_pos (by omega)]),
    separate_cut (k := 10) (n := 1)
      (by intro j hLow hHigh; rw [if_neg (by omega), if_pos (by omega)]),
    separate_cut (k := 10) (n := 2)
      (by intro j hLow hHigh; rw [if_neg (by omega), if_neg (by omega), if_pos (by omega)]),
    separate_rest (n := 3)
      (by intro j hLow; rw [if_neg (by omega), if_neg (by omega), if_neg (by omega)])]
  simp only [List.drop_drop]
  rfl

/-- `simple_plot.py` cuts it once, after eleven. -/
theorem simplePlot_eq (file : List ProgressRecord) :
    simplePlot (file.map progressLine) =
      some [Series.empty.extend (file.take 11), Series.empty.extend (file.drop 11)] := by
  rw [simplePlot, separate_cut (k := 11) (n := 0) (by intro j _ hj; rw [if_pos (by omega)]),
    separate_rest (n := 1) (by intro j hLow; rw [if_neg (by omega)])]
  rfl

/-- A dump of a data set that is not empty: what is saved, to which stream and
under which clocks, and the state in which the saving process starts. -/
structure RioDump (σ : Type) where
  server : Server
  rio : Rio σ
  before : Save σ Nat
  after : Save σ Nat
  dbs : List (RedisDb × (Nat → Int))
  start : Traced σ
  nonempty : ∃ db ∈ dbs, 0 < db.1.size

variable {σ : Type}

/-- The dump, with what the progress file holds before it. -/
def RioDump.run (d : RioDump σ) (file : List ProgressRecord) : Option (Bool × Traced σ) :=
  rdbSaveRio d.server d.rio false d.before d.after d.dbs { d.start with percentages := file }

/-- Successful dumps one after the other, with the records that each of them
appended to the file and the file that they leave. -/
inductive Dumped : List (RioDump σ) → List (List ProgressRecord) → List ProgressRecord → Prop where
  | none : Dumped [] [] []
  | next {dumps : List (RioDump σ)} {records : List (List ProgressRecord)}
      {file more : List ProgressRecord} {d : RioDump σ} {final : Traced σ}
      (prior : Dumped dumps records file) (last : d.run file = some (true, final))
      (appended : final.percentages = file ++ more) :
      Dumped (dumps ++ [d]) (records ++ [more]) final.percentages

theorem Dumped.file_eq {dumps : List (RioDump σ)} {records : List (List ProgressRecord)}
    {file : List ProgressRecord} (h : Dumped dumps records file) : file = records.flatten := by
  induction h with
  | none => rfl
  | next prior last appended ih =>
      rw [appended, List.flatten_append, ← ih, List.flatten_singleton]

/-- Every dump has appended as many records as its key counts say. -/
theorem Dumped.lengths {dumps : List (RioDump σ)} {records : List (List ProgressRecord)}
    {file : List ProgressRecord} (h : Dumped dumps records file) :
    records.map List.length = dumps.map fun d => lineCount d.dbs := by
  induction h with
  | none => rfl
  | @next dumps records file more d final prior last appended ih =>
      obtain ⟨lines, hLines, hCount⟩ := rdbSaveRio_lines last
      have hSame : lines = more := List.append_cancel_left (hLines.symm.trans appended)
      rw [List.map_append, List.map_append, ih, ← hSame]
      simp only [List.map_cons, List.map_nil, hCount]

theorem lineCount_pos {dbs : List (RedisDb × (Nat → Int))} (h : ∃ db ∈ dbs, 0 < db.1.size) :
    0 < lineCount dbs := by
  obtain ⟨db, hdb, hSize⟩ := h
  have hLines : min db.1.size 10 ≤ lineCount dbs :=
    List.single_le_sum (by simp) _ (List.mem_map_of_mem (f := fun db => min db.1.size 10) hdb)
  omega

/-- The curves that show every dump by itself, the starting points aside. -/
def curves (start : Series) (number : Nat) (records : List (List ProgressRecord)) : List Series :=
  (List.range number).map fun i => start.extend (records[i]?.getD [])

/-- When the second dump has no records there is no second dump. -/
theorem Dumped.length_le_one {dumps : List (RioDump σ)} {records : List (List ProgressRecord)}
    {file : List ProgressRecord} (h : Dumped dumps records file)
    (hSecond : records[1]?.getD [] = []) : dumps.length ≤ 1 := by
  have hLengths := h.lengths
  have hCount : records.length = dumps.length := by
    simpa using congrArg List.length hLengths
  by_contra hMany
  have hNonempty := lineCount_pos (dumps[1].nonempty)
  have hPlace := congrArg (fun l : List Nat => l[1]?) hLengths
  rw [List.getElem?_eq_getElem (show 1 < records.length by omega), Option.getD_some] at hSecond
  simp only [List.getElem?_map, List.getElem?_eq_getElem (show 1 < records.length by omega),
    List.getElem?_eq_getElem (show 1 < dumps.length by omega), Option.map_some,
    Option.some.injEq, hSecond, List.length_nil] at hPlace
  omega

/-- No dump writes more records than the file holds. -/
theorem Dumped.lineCount_le {dumps : List (RioDump σ)} {records : List (List ProgressRecord)}
    {file : List ProgressRecord} (h : Dumped dumps records file) :
    ∀ d ∈ dumps, lineCount d.dbs ≤ file.length := by
  intro d hd
  have hSum : file.length = (dumps.map fun d => lineCount d.dbs).sum := by
    rw [h.file_eq, List.length_flatten, h.lengths]
  rw [hSum]
  exact List.single_le_sum (by simp) _ (List.mem_map_of_mem (f := fun d => lineCount d.dbs) hd)

/-- A file of at most ten records is one curve of both scripts. -/
theorem curves_of_short {file : List ProgressRecord} (h : file.length ≤ 10) :
    plotLog (file.map progressLine) = some (curves Series.fromOrigin 4 [file]) ∧
      simplePlot (file.map progressLine) = some (curves Series.empty 2 [file]) := by
  rw [plotLog_eq, simplePlot_eq, List.take_of_length_le h,
    List.take_of_length_le (show file.length ≤ 11 by omega),
    List.drop_of_length_le h, List.drop_of_length_le (show file.length ≤ 11 by omega),
    List.drop_of_length_le (show file.length ≤ 20 by omega),
    List.drop_of_length_le (show file.length ≤ 30 by omega)]
  exact ⟨rfl, rfl⟩

/-- Both scripts show every dump by itself exactly when there is at most one
dump, and the keys of its databases, up to ten for each, are no more than ten. -/
theorem curves_iff {dumps : List (RioDump σ)} {records : List (List ProgressRecord)}
    {file : List ProgressRecord} (h : Dumped dumps records file) :
    (plotLog (file.map progressLine) = some (curves Series.fromOrigin 4 records) ∧
        simplePlot (file.map progressLine) = some (curves Series.empty 2 records)) ↔
      dumps.length ≤ 1 ∧ ∀ d ∈ dumps, lineCount d.dbs ≤ 10 := by
  constructor
  · rintro ⟨hLog, hSimple⟩
    rw [plotLog_eq] at hLog
    rw [simplePlot_eq] at hSimple
    -- The first curves of the two scripts show the same dump.
    have hTen : file.take 10 = records[0]?.getD [] :=
      Series.extend_inj.mp (List.cons.inj (Option.some.inj hLog)).1
    have hEleven : file.take 11 = records[0]?.getD [] :=
      Series.extend_inj.mp (List.cons.inj (Option.some.inj hSimple)).1
    have hSecond : file.drop 11 = records[1]?.getD [] :=
      Series.extend_inj.mp (List.cons.inj (List.cons.inj (Option.some.inj hSimple)).2).1
    have hShort : file.length ≤ 10 := by
      have hCut := congrArg List.length (hTen.trans hEleven.symm)
      rw [List.length_take, List.length_take] at hCut
      omega
    rw [List.drop_of_length_le (show file.length ≤ 11 by omega)] at hSecond
    exact ⟨h.length_le_one hSecond.symm, fun d hd => (h.lineCount_le d hd).trans hShort⟩
  · rintro ⟨hOne, hLines⟩
    have hFile := h.file_eq
    have hCount : records.length = dumps.length := by
      simpa using congrArg List.length h.lengths
    cases dumps with
    | nil =>
        obtain rfl : records = [] := List.length_eq_zero_iff.mp hCount
        obtain rfl : file = [] := hFile
        exact ⟨rfl, rfl⟩
    | cons d dumps =>
        obtain rfl : dumps = [] := List.length_eq_zero_iff.mp (by simpa using hOne)
        obtain ⟨own, rfl⟩ := List.length_eq_one_iff.mp hCount
        have hLength : own.length = lineCount d.dbs := by simpa using h.lengths
        rw [List.flatten_singleton] at hFile
        subst hFile
        exact curves_of_short (hLength.le.trans (hLines d List.mem_cons_self))

/-- `n` keys, each with a short string. -/
def stringDb (n : Nat) : RedisDb where
  dbid := 0
  entries := List.replicate n
    ⟨0, ⟨140000000000000, [107], by decide⟩, .string (.sds ⟨140000000004096, [118], by decide⟩),
      none, 0, 0⟩

/-- A dump of one database with `n` keys, one key a second. -/
def stringDump (n : Nat) (h : 0 < n) : RioDump UInt64 where
  server := plainServer
  rio := openRio
  before := rdbWriteRaw openRio [82, 69, 68, 73, 83]
  after := rdbWriteRaw openRio [255]
  dbs := [(stringDb n, fun keys => keys)]
  start := freshDump
  nonempty := ⟨_, List.mem_singleton_self _, by simpa [RedisDb.size, stringDb] using h⟩

theorem Dumped.append {dumps : List (RioDump σ)} {records : List (List ProgressRecord)}
    {file more : List ProgressRecord} (prior : Dumped dumps records file) {d : RioDump σ}
    (h : (d.run file).map (fun result => (result.1, result.2.percentages)) =
      some (true, file ++ more)) : Dumped (dumps ++ [d]) (records ++ [more]) (file ++ more) := by
  obtain ⟨⟨ok, final⟩, hRun, hResult⟩ := Option.map_eq_some_iff.mp h
  obtain ⟨rfl, hFile⟩ := Prod.mk.inj hResult
  rw [← hFile]
  exact .next prior hRun hFile

theorem stringDump_curves :
    plotLog ([((1 : Int), 10), (2, 20)].map progressLine) =
        some (curves Series.fromOrigin 4 [[(1, 10), (2, 20)]]) ∧
      simplePlot ([((1 : Int), 10), (2, 20)].map progressLine) =
        some (curves Series.empty 2 [[(1, 10), (2, 20)]]) := by
  have hDumped : Dumped [stringDump 2 (by decide)] [[(1, 10), (2, 20)]] [(1, 10), (2, 20)] :=
    Dumped.none.append (by decide +kernel)
  refine (curves_iff hDumped).mpr ⟨Nat.le_refl 1, ?_⟩
  intro d hd
  rw [List.mem_singleton.mp hd]
  decide

/-- The records of a dump of ten keys. -/
def tenRecords : List ProgressRecord :=
  (List.range' 1 10).map fun i => (Int.ofNat i, 10 * i)

/-- Two dumps of ten keys. The first line of the second dump is plotted with
the first dump. -/
theorem tenKeyDumps_mixed :
    Dumped [stringDump 10 (by decide), stringDump 10 (by decide)] [tenRecords, tenRecords]
        (tenRecords ++ tenRecords) ∧
      ¬ (plotLog ((tenRecords ++ tenRecords).map progressLine) =
          some (curves Series.fromOrigin 4 [tenRecords, tenRecords]) ∧
        simplePlot ((tenRecords ++ tenRecords).map progressLine) =
          some (curves Series.empty 2 [tenRecords, tenRecords])) := by
  have hFirst : Dumped [stringDump 10 (by decide)] [tenRecords] tenRecords :=
    Dumped.none.append (by decide +kernel)
  exact ⟨hFirst.append (by decide +kernel), by decide +kernel⟩

end Redis
