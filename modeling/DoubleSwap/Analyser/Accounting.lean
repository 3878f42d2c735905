import DoubleSwap.Analyser.LogOrder
import DoubleSwap.Analyser.Interleaving

/-! What the two listings and the three counts account for. The writing stage
visits every page once; a page goes to either listing as a whole, and the test
for the second listing is the stricter one. -/
namespace Analyser

open Text

/-- The records that reach the writing stage. A reading stage that ends the
function leaves none. -/
def accepted (dir : DataDir) : List (Int × Entry) := (collected dir).toOption.getD []

/-- The lines that a call wrote to a listing. -/
def written (listing : Option (List Text)) : List Text := listing.getD []

/-- The page of a line of a listing. -/
def pageOf (line : Text) : Option Int := (words line).head?.bind parseInt

@[simp] theorem pageOf_reportLine (pfn : Int) (entry : Entry) :
    pageOf (reportLine pfn entry) = some pfn := by
  have hLine : reportLine pfn entry =
      intText pfn ++ ' ' :: (entry.dataType ++ ' ' :: entry.timestamp ++ ['\n']) := by
    simp [reportLine]
  rw [pageOf, hLine, words_word_space (isWord_intText pfn) (by decide)]
  exact parseInt_intText pfn

/-- The report after a page. -/
def Report.page (report : Report) (pfn : Int) (entries : List Entry) : Report :=
  (report.classified pfn entries).merged pfn entries

/-- The sum of the three counters. -/
def Report.count (report : Report) : Nat :=
  report.sequenceCount + report.sequenceCache + report.sequenceWp

/-- A page is either left out of the second listing and of the counts, or its
lines are written and one counter goes up. -/
theorem classified_cases (report : Report) (pfn : Int) (entries : List Entry) :
    (containsSequence entries = 0 ∧ report.classified pfn entries = report) ∨
    (containsSequence entries ≠ 0 ∧
      (report.classified pfn entries).outfile = report.outfile ∧
      (report.classified pfn entries).outfile1 =
        report.outfile1 ++ entries.map (reportLine pfn) ∧
      (report.classified pfn entries).count = report.count + 1) := by
  rcases containsSequence_cases entries with ⟨kind, hNumber, _⟩ | ⟨hZero, _⟩
  · refine Or.inr ?_
    rw [Report.classified, hNumber]
    cases kind with
    | swapSpace =>
        refine ⟨by decide, rfl, rfl, ?_⟩
        show report.sequenceCount + 1 + report.sequenceCache + report.sequenceWp = report.count + 1
        rw [Report.count]
        omega
    | swapCache =>
        refine ⟨by decide, rfl, rfl, ?_⟩
        show report.sequenceCount + (report.sequenceCache + 1) + report.sequenceWp =
          report.count + 1
        rw [Report.count]
        omega
    | wp => exact ⟨by decide, rfl, rfl, rfl⟩
  · refine Or.inl ⟨hZero, ?_⟩
    rw [Report.classified, hZero]
    rfl

/-- A page of at least four records adds them all to the first file. -/
theorem page_outfile (report : Report) (pfn : Int) (entries : List Entry) :
    (report.page pfn entries).outfile =
      report.outfile ++ if 4 ≤ entries.length then entries.map (reportLine pfn) else [] := by
  have hKept : (report.classified pfn entries).outfile = report.outfile := by
    rcases classified_cases report pfn entries with ⟨_, hSame⟩ | ⟨_, hSame, _⟩
    · rw [hSame]
    · exact hSame
  rw [Report.page, Report.merged]
  split_ifs with hFour
  · rw [hKept]
  · rw [hKept, List.append_nil]

theorem page_outfile1_count (report : Report) (pfn : Int) (entries : List Entry) :
    (report.page pfn entries).outfile1 =
      report.outfile1 ++
        (if containsSequence entries ≠ 0 then entries.map (reportLine pfn) else []) ∧
    (report.page pfn entries).count =
      report.count + if containsSequence entries ≠ 0 then 1 else 0 := by
  have hKept : (report.page pfn entries).outfile1 = (report.classified pfn entries).outfile1 ∧
      (report.page pfn entries).count = (report.classified pfn entries).count := by
    rw [Report.page, Report.merged]
    split_ifs
    · exact ⟨rfl, rfl⟩
    · exact ⟨rfl, rfl⟩
  rw [hKept.1, hKept.2]
  rcases classified_cases report pfn entries with ⟨hZero, hSame⟩ | ⟨hSome, _, hLines, hCount⟩
  · rw [hSame, if_neg (not_not.mpr hZero), if_neg (not_not.mpr hZero), List.append_nil]
    exact ⟨rfl, rfl⟩
  · rw [if_pos hSome, if_pos hSome]
    exact ⟨hLines, hCount⟩

/-- The lines of the pages that a listing admits, page after page. -/
def listing (admits : Int → Bool) (sorted : Int → List Entry) (pages : List Int) : List Text :=
  (pages.filter admits).flatMap fun pfn => (sorted pfn).map (reportLine pfn)

/-- The first page comes before the others. -/
theorem listing_cons (admits : Int → Bool) (sorted : Int → List Entry) (pfn : Int)
    (pages : List Int) :
    listing admits sorted (pfn :: pages) =
      (if admits pfn then (sorted pfn).map (reportLine pfn) else []) ++
        listing admits sorted pages := by
  rw [listing, listing, List.filter_cons]
  split_ifs
  · rw [List.flatMap_cons]
  · rfl

/-- A page is listed when it has at least four records. -/
def manyRecords (sorted : Int → List Entry) (pfn : Int) : Bool := 4 ≤ (sorted pfn).length

/-- A page is listed when its records contain a double swap. -/
def doubleSwapped (sorted : Int → List Entry) (pfn : Int) : Bool :=
  containsSequence (sorted pfn) ≠ 0

/-- When every page can be sorted the loop runs to its end. -/
theorem writePages_eq {pages : DataByPfn} {sorted : Int → List Entry} {pfns : List Int}
    (h : ∀ pfn ∈ pfns, sortedEntries (pages.get pfn) = .ok (sorted pfn)) (report : Report) :
    ∃ final, writePages pages report pfns = (final, none) ∧
      final.outfile = report.outfile ++ listing (manyRecords sorted) sorted pfns ∧
      final.outfile1 = report.outfile1 ++ listing (doubleSwapped sorted) sorted pfns ∧
      final.count = report.count + (pfns.filter (doubleSwapped sorted)).length := by
  induction pfns generalizing report with
  | nil => exact ⟨report, rfl, (List.append_nil _).symm, (List.append_nil _).symm, rfl⟩
  | cons pfn pfns ih =>
      obtain ⟨final, hRun, hMerged, hDouble, hCount⟩ :=
        ih (fun other hOther => h other (List.mem_cons_of_mem pfn hOther))
          (report.page pfn (sorted pfn))
      have hLines := page_outfile report pfn (sorted pfn)
      obtain ⟨hSwapLines, hSwapCount⟩ := page_outfile1_count report pfn (sorted pfn)
      refine ⟨final, ?_, ?_, ?_, ?_⟩
      · rw [writePages, h pfn List.mem_cons_self]
        exact hRun
      · rw [hMerged, hLines, listing_cons, List.append_assoc]
        simp only [manyRecords, decide_eq_true_eq]
      · rw [hDouble, hSwapLines, listing_cons, List.append_assoc]
        simp only [doubleSwapped, decide_eq_true_eq]
      · rw [hCount, hSwapCount, List.filter_cons]
        simp only [doubleSwapped, decide_eq_true_eq]
        split_ifs
        · rw [List.length_cons]
          omega
        · rfl

/-- A listing names the pages that it admits and that have records. -/
theorem mem_pages_listing {admits : Int → Bool} {sorted : Int → List Entry} {pages : List Int}
    {pfn : Int} :
    pfn ∈ (listing admits sorted pages).filterMap pageOf ↔
      pfn ∈ pages.filter admits ∧ sorted pfn ≠ [] := by
  simp only [List.mem_filterMap, listing, List.mem_flatMap, List.mem_map]
  constructor
  · rintro ⟨_, ⟨other, hOther, entry, hEntry, rfl⟩, hPage⟩
    rw [pageOf_reportLine] at hPage
    obtain rfl := Option.some.inj hPage
    exact ⟨hOther, List.ne_nil_of_mem hEntry⟩
  · rintro ⟨hPage, hSome⟩
    obtain ⟨entry, hEntry⟩ := List.exists_mem_of_ne_nil _ hSome
    exact ⟨_, ⟨pfn, hPage, entry, hEntry, rfl⟩, pageOf_reportLine pfn entry⟩

private theorem filter_pageOf_lines (sorted : Int → List Entry) (other pfn : Int) :
    ((sorted other).map (reportLine other)).filter (fun line => pageOf line = some pfn) =
      if other = pfn then (sorted pfn).map (reportLine pfn) else [] := by
  split_ifs with hPage
  · subst hPage
    apply List.filter_eq_self.mpr
    intro line hLine
    obtain ⟨entry, _, rfl⟩ := List.mem_map.mp hLine
    exact decide_eq_true (pageOf_reportLine other entry)
  · apply List.filter_eq_nil_iff.mpr
    intro line hLine
    obtain ⟨entry, _, rfl⟩ := List.mem_map.mp hLine
    rw [pageOf_reportLine]
    simpa using hPage

/-- The lines of one page stand together in a listing, in their own order. -/
theorem filter_pageOf_listing {admits : Int → Bool} {sorted : Int → List Entry} {pages : List Int}
    (hPages : pages.Nodup) {pfn : Int} (hPage : pfn ∈ pages.filter admits) :
    (listing admits sorted pages).filter (fun line => pageOf line = some pfn) =
      (sorted pfn).map (reportLine pfn) := by
  have hNodup : (pages.filter admits).Nodup := hPages.filter admits
  rw [listing]
  generalize pages.filter admits = listed at hNodup hPage
  induction listed with
  | nil => cases hPage
  | cons other listed ih =>
      obtain ⟨hFresh, hRest⟩ := List.nodup_cons.mp hNodup
      rw [List.flatMap_cons, List.filter_append, filter_pageOf_lines]
      rcases List.mem_cons.mp hPage with rfl | hLater
      · have hOthers : (listed.flatMap fun p => (sorted p).map (reportLine p)).filter
            (fun line => pageOf line = some pfn) = [] := by
          apply List.filter_eq_nil_iff.mpr
          intro line hLine
          obtain ⟨p, hp, hEntry⟩ := List.mem_flatMap.mp hLine
          obtain ⟨entry, _, rfl⟩ := List.mem_map.mp hEntry
          rw [pageOf_reportLine]
          have hne : p ≠ pfn := by
            rintro rfl
            exact hFresh hp
          simpa using hne
        rw [if_pos rfl, hOthers, List.append_nil]
      · have hne : other ≠ pfn := by
          rintro rfl
          exact hFresh hLater
        rw [if_neg hne, List.nil_append]
        exact ih hRest hLater

/-- How the records of a run are accounted for, page by page. -/
structure Accounting (records : List (Int × Entry)) (pages : List Int)
    (sorted : Int → List Entry) (merged double : List Text) : Prop where
  increasing : pages.Pairwise (· < ·)
  mem_pages : ∀ pfn, pfn ∈ pages ↔ pfn ∈ records.map Prod.fst
  sorted_page : ∀ pfn, StableSort.IsStableSort stampKey (pageEntries records pfn) (sorted pfn)
  merged_eq : merged = (pages.filter fun pfn => 4 ≤ (pageEntries records pfn).length).flatMap
    fun pfn => (sorted pfn).map (reportLine pfn)
  once : merged.Perm ((records.filter fun record => 4 ≤ (pageEntries records record.1).length).map
    fun record => reportLine record.1 record.2)
  double_eq : double = (pages.filter fun pfn => containsSequence (sorted pfn) ≠ 0).flatMap
    fun pfn => (sorted pfn).map (reportLine pfn)
  mem_double : ∀ pfn, pfn ∈ double.filterMap pageOf ↔
    pfn ∈ pages ∧ containsSequence (sorted pfn) ≠ 0
  same_lines : ∀ pfn ∈ double.filterMap pageOf, pfn ∈ merged.filterMap pageOf ∧
    double.filter (fun line => pageOf line = some pfn) =
      merged.filter (fun line => pageOf line = some pfn)

/-- Every record of a page with enough records is listed once. -/
theorem listing_perm {records : List (Int × Entry)} {pages : List Int}
    {sorted : Int → List Entry} (hNodup : pages.Nodup)
    (hPages : ∀ pfn, pfn ∈ pages ↔ pfn ∈ records.map Prod.fst)
    (hSorted : ∀ pfn, (sorted pfn).Perm (pageEntries records pfn)) (admits : Int → Bool) :
    (listing admits sorted pages).Perm
      ((records.filter fun record => admits record.1).map
        fun record => reportLine record.1 record.2) := by
  have hPage : ∀ pfn ∈ pages.filter admits, ((sorted pfn).map (reportLine pfn)).Perm
      ((records.filter fun record => record.1 = pfn).map
        fun record => reportLine record.1 record.2) := by
    intro pfn _
    have hLines : (records.filter fun record => record.1 = pfn).map
        (fun record => reportLine record.1 record.2) =
          (pageEntries records pfn).map (reportLine pfn) := by
      rw [pageEntries, List.map_map]
      apply List.map_congr_left
      intro record hRecord
      rw [← of_decide_eq_true (List.mem_filter.mp hRecord).2]
      rfl
    rw [hLines]
    exact (hSorted pfn).map (reportLine pfn)
  have hGroups := (GroupDict.flatMap_groups_perm (hNodup.filter admits) records).map
    fun record => reportLine record.1 record.2
  have hAdmitted : records.filter (fun record => record.1 ∈ pages.filter admits) =
      records.filter (fun record => admits record.1) := by
    apply List.filter_congr
    intro record hRecord
    have hListed : record.1 ∈ pages := (hPages record.1).mpr (List.mem_map_of_mem hRecord)
    simp [List.mem_filter, hListed]
  rw [hAdmitted, List.map_flatMap] at hGroups
  exact (List.Perm.flatMap_left _ hPage).trans hGroups

/-- The pages of the records, in increasing order. -/
def sortedPages (records : List (Int × Entry)) : List Int :=
  StableSort.sortBy id (GroupDict.empty.appendAll records).keys

/-- The records of a page, as they are handed to the classifier. -/
def sortedPage (records : List (Int × Entry)) (pfn : Int) : List Entry :=
  StableSort.sortBy stampKey (pageEntries records pfn)

theorem sortedPages_nodup (records : List (Int × Entry)) : (sortedPages records).Nodup :=
  (StableSort.perm_sortBy id _).nodup_iff.mpr (GroupDict.empty.appendAll records).nodupKeys

theorem mem_sortedPages {records : List (Int × Entry)} {pfn : Int} :
    pfn ∈ sortedPages records ↔ pfn ∈ records.map Prod.fst := by
  rw [sortedPages, StableSort.mem_sortBy, mem_keys_collected]

/-- The pages in their order, each once, with their sorted records. -/
theorem accounting_sortedPages (records : List (Int × Entry)) :
    Accounting records (sortedPages records) (sortedPage records)
      (listing (manyRecords (sortedPage records)) (sortedPage records) (sortedPages records))
      (listing (doubleSwapped (sortedPage records)) (sortedPage records)
        (sortedPages records)) := by
  have hSort (pfn : Int) :
      StableSort.IsStableSort stampKey (pageEntries records pfn) (sortedPage records pfn) :=
    StableSort.isStableSort_sortBy _ _
  have hMany : manyRecords (sortedPage records) =
      fun pfn => decide (4 ≤ (pageEntries records pfn).length) := by
    funext pfn
    rw [manyRecords, (hSort pfn).perm.length_eq]
  have hDouble (pfn : Int) :
      pfn ∈ (listing (doubleSwapped (sortedPage records)) (sortedPage records)
        (sortedPages records)).filterMap pageOf ↔
          pfn ∈ sortedPages records ∧ containsSequence (sortedPage records pfn) ≠ 0 := by
    rw [mem_pages_listing, List.mem_filter, doubleSwapped, decide_eq_true_eq, and_assoc]
    apply and_congr_right
    intro _
    apply and_iff_left_of_imp
    intro hSome hEmpty
    have hFour := four_le_length_of_containsSequence hSome
    rw [hEmpty] at hFour
    exact absurd hFour (by decide)
  refine ⟨?_, fun _ => mem_sortedPages, hSort, ?_, ?_, rfl, hDouble, ?_⟩
  · refine ((StableSort.pairwise_sortBy id _).and (sortedPages_nodup records)).imp ?_
    rintro first second ⟨hLe, hne⟩
    exact lt_of_le_of_ne hLe hne
  · rw [hMany]
    rfl
  · rw [hMany]
    exact listing_perm (sortedPages_nodup records) (fun _ => mem_sortedPages)
      (fun pfn => (hSort pfn).perm) _
  · intro pfn hPfn
    obtain ⟨hPage, hSome⟩ := (hDouble pfn).mp hPfn
    -- A classified page is admitted to both listings.
    have hFour := four_le_length_of_containsSequence hSome
    have hMerged : pfn ∈ (sortedPages records).filter (manyRecords (sortedPage records)) :=
      List.mem_filter.mpr ⟨hPage, decide_eq_true hFour⟩
    have hClassified : pfn ∈ (sortedPages records).filter (doubleSwapped (sortedPage records)) :=
      List.mem_filter.mpr ⟨hPage, decide_eq_true hSome⟩
    refine ⟨mem_pages_listing.mpr ⟨hMerged, ?_⟩, ?_⟩
    · exact List.ne_nil_of_length_pos (Nat.lt_of_lt_of_le (by decide) hFour)
    · rw [filter_pageOf_listing (sortedPages_nodup records) hMerged,
        filter_pageOf_listing (sortedPages_nodup records) hClassified]

theorem length_dedup_pageOf {records : List (Int × Entry)} {pages : List Int}
    {sorted : Int → List Entry} {merged double : List Text}
    (h : Accounting records pages sorted merged double) :
    (double.filterMap pageOf).dedup.length = (pages.filter (doubleSwapped sorted)).length := by
  have hNodup : pages.Nodup := h.increasing.imp fun hLess => hLess.ne
  apply List.Perm.length_eq
  rw [List.perm_ext_iff_of_nodup (List.nodup_dedup _) (hNodup.filter _)]
  intro pfn
  rw [List.mem_dedup, h.mem_double, List.mem_filter, doubleSwapped, decide_eq_true_eq]

/-- The two files that are written account for all records, by induction on the
pages. -/
theorem writeReport_accounts {records : List (Int × Entry)}
    (hStamps : ∀ record ∈ records, validStamp record.2 = true) :
    ∃ merged double count cache wp,
      writeReport (GroupDict.empty.appendAll records) = ⟨some merged, some double,
        [.total .swapSpace count, .total .swapCache cache, .total .wp wp]⟩ ∧
      Accounting records (sortedPages records) (sortedPage records) merged double ∧
      count + cache + wp = (double.filterMap pageOf).dedup.length := by
  have hSorts : ∀ pfn ∈ sortedPages records,
      sortedEntries ((GroupDict.empty.appendAll records).get pfn) =
        .ok (sortedPage records pfn) := by
    intro pfn _
    rw [get_collected]
    apply sortedEntries_of_valid
    intro entry hEntry
    obtain ⟨record, hRecord, rfl⟩ := List.mem_map.mp hEntry
    exact hStamps record (List.mem_filter.mp hRecord).1
  obtain ⟨final, hRun, hMerged, hDouble, hCount⟩ := writePages_eq hSorts .start
  have hAccounts := accounting_sortedPages records
  refine ⟨final.outfile, final.outfile1, final.sequenceCount, final.sequenceCache,
    final.sequenceWp, ?_, ?_, ?_⟩
  · rw [sortedPages] at hRun
    rw [writeReport, hRun]
    rfl
  · rw [hMerged, hDouble]
    exact hAccounts
  · have hTotal : final.count =
        ((sortedPages records).filter (doubleSwapped (sortedPage records))).length := by
      rw [hCount]
      exact Nat.zero_add _
    rw [hDouble]
    exact hTotal.trans (length_dedup_pageOf hAccounts).symm

/-- Whatever the logs contain, as long as the accepted records have readable
time stamps, the two listings and the three counts account for all of them. A
call that a reading stage ends has accepted nothing and opens no listing. -/
theorem mergeAndSortFiles_accounts (dir : DataDir)
    (hStamps : ∀ record ∈ accepted dir, validStamp record.2 = true) :
    ∃ pages sorted, Accounting (accepted dir) pages sorted
        (written (mergeAndSortFiles dir).mergedData) (written (mergeAndSortFiles dir).doubleSwap) ∧
      ((∃ message, collect dir = .error message ∧
          mergeAndSortFiles dir = ⟨none, none, [message]⟩) ∨
        ∃ count cache wp, (mergeAndSortFiles dir).mergedData.isSome ∧
          (mergeAndSortFiles dir).doubleSwap.isSome ∧
          (mergeAndSortFiles dir).printed =
            [.total .swapSpace count, .total .swapCache cache, .total .wp wp] ∧
          count + cache + wp =
            ((written (mergeAndSortFiles dir).doubleSwap).filterMap pageOf).dedup.length) := by
  have hCollect := collect_eq dir
  refine ⟨sortedPages (accepted dir), sortedPage (accepted dir), ?_⟩
  cases hRecords : collected dir with
  | error message =>
      rw [hRecords] at hCollect
      have hNone : accepted dir = [] := by
        rw [accepted, hRecords]
        rfl
      have hOutcome : mergeAndSortFiles dir = ⟨none, none, [message]⟩ := by
        rw [mergeAndSortFiles, hCollect]
        rfl
      rw [hOutcome, hNone]
      exact ⟨accounting_sortedPages [], Or.inl ⟨message, hCollect, rfl⟩⟩
  | ok records =>
      rw [hRecords] at hCollect
      have hAccepted : accepted dir = records := by
        rw [accepted, hRecords]
        rfl
      rw [hAccepted] at hStamps ⊢
      obtain ⟨merged, double, count, cache, wp, hReport, hAccounts, hTotal⟩ :=
        writeReport_accounts hStamps
      have hOutcome : mergeAndSortFiles dir = ⟨some merged, some double,
          [.total .swapSpace count, .total .swapCache cache, .total .wp wp]⟩ := by
        rw [mergeAndSortFiles, hCollect]
        exact hReport
      rw [hOutcome]
      exact ⟨hAccounts, Or.inr ⟨count, cache, wp, rfl, rfl, rfl, hTotal⟩⟩

/-- The logs of one double swap account for one page and its four records. -/
theorem oneDoubleSwap_accounts :
    ((written (mergeAndSortFiles oneDoubleSwap).doubleSwap).filterMap pageOf).dedup.length = 1 ∧
      ∃ pages sorted, Accounting (accepted oneDoubleSwap) pages sorted
        (written (mergeAndSortFiles oneDoubleSwap).mergedData)
        (written (mergeAndSortFiles oneDoubleSwap).doubleSwap) := by
  have hStamps : (accepted oneDoubleSwap).all (fun record => validStamp record.2) = true := by
    decide +kernel
  obtain ⟨pages, sorted, hAccounts, _⟩ :=
    mergeAndSortFiles_accounts oneDoubleSwap (List.all_eq_true.mp hStamps)
  exact ⟨by decide +kernel, pages, sorted, hAccounts⟩

end Analyser
