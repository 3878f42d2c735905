import DoubleSwap.Data.Bracketed
import DoubleSwap.Mosquitto.MessageStore
import DoubleSwap.Redis.Dump

/-! The traces of the two dumps as brackets: an item opens its pages, is
written, and closes them. -/
namespace Traces

open Redis (GuestRecord logVirtualAddress)

/-- `"OUT G* NONE"`. -/
def opening (page : Nat) : GuestRecord := logVirtualAddress "OUT G* NONE".toList page

/-- `"OUT G NONE"`. -/
def closing (page : Nat) : GuestRecord := logVirtualAddress "OUT G NONE".toList page

theorem opening_injective : Function.Injective opening :=
  fun _ _ h => congrArg GuestRecord.address h

theorem closing_injective : Function.Injective closing :=
  fun _ _ h => congrArg GuestRecord.address h

theorem opening_ne_closing (p q : Nat) : opening p ≠ closing q := by
  intro h
  have hTags : "OUT G* NONE".toList = "OUT G NONE".toList := congrArg GuestRecord.tag h
  exact absurd hTags (by decide)

/-- The records of the items that are closed and of one that is not. -/
def records (closed : List (List Nat)) (opened : List Nat) : List GuestRecord :=
  Bracketed.events opening closing closed opened

/-- In every prefix a page is opened at least as often as it is closed, and what
is open in the end is as often in `opened`. -/
structure WellBracketed (log : List GuestRecord) (opened : List Nat) : Prop where
  prefixes : ∀ q n, (log.take n).count (closing q) ≤ (log.take n).count (opening q)
  surplus : ∀ q, log.count (opening q) = log.count (closing q) + opened.count q

/-- Items that are closed one after the other, and one that may still be open. -/
theorem wellBracketed_records (closed : List (List Nat)) (opened : List Nat) :
    WellBracketed (records closed opened) opened where
  prefixes := Bracketed.neverAhead_events opening_injective closing_injective opening_ne_closing
    closed opened
  surplus := Bracketed.count_events opening_injective closing_injective opening_ne_closing
    closed opened

end Traces

namespace Redis

open Traces

variable {σ : Type} (server : Server) (rio : Rio σ) (db : RedisDb)

/-- The pages of a key and of its value. -/
def itemPages (de : DictEntry) (valueLen : Nat) : List Nat :=
  tracedPages server de.key.address de.key.bytes.length ++ tracedPages server de.value.ptr valueLen

/-- The records of the loop, up to its end or to where it becomes undefined. -/
def emitted : List DictEntry → Traced σ → List GuestRecord
  | [], _ => []
  | de :: entries, t =>
      match saveSlot server rio db de t.dump with
      | .error _ => []
      | .ok st =>
          match de.value.sdslen with
          | none => []
          | some len =>
              let started := (t.setDump st).log server de len "OUT G* NONE".toList
              (itemPages server de len).map opening ++
                match saveKey server rio de st with
                | .error _ => []
                | .ok st' =>
                    let finished := (started.setDump st').log server de len "OUT G NONE".toList
                    (itemPages server de len).map closing ++
                      match finished.report server db.size with
                      | none => []
                      | some next => emitted entries next

/-- The pages of the key and the value whose write fails. -/
def failedPages : List DictEntry → DumpState σ → List Nat
  | [], _ => []
  | de :: entries, st =>
      match saveSlot server rio db de st with
      | .error _ => []
      | .ok st' =>
          match saveKey server rio de st' with
          | .error _ => itemPages server de (de.value.sdslen.getD 0)
          | .ok st'' => failedPages entries st''

variable {server rio db}

theorem report_keeps {t next : Traced σ} {dbSize : Nat} (h : t.report server dbSize = some next) :
    next.guestLog = t.guestLog ∧ next.dump = t.dump := by
  rw [Traced.report] at h
  split at h
  · cases h
  · split_ifs at h
    · obtain ⟨raised, _, rfl⟩ := Option.map_eq_some_iff.mp h
      exact ⟨rfl, rfl⟩
    · obtain rfl := Option.some.inj h
      exact ⟨rfl, rfl⟩

/-- A key that is written opens and closes its pages, and leaves the rest to the
rest of the loop. -/
theorem emitted_cons (entries : List DictEntry) {de : DictEntry} {t next : Traced σ}
    {st st' : DumpState σ} {len : Nat} (hSlot : saveSlot server rio db de t.dump = .ok st)
    (hLen : de.value.sdslen = some len) (hKey : saveKey server rio de st = .ok st')
    (hReport : ((((t.setDump st).log server de len "OUT G* NONE".toList).setDump st').log server de
      len "OUT G NONE".toList).report server db.size = some next) :
    let item := Bracketed.bracket opening closing (itemPages server de len)
    emitted server rio db (de :: entries) t = item ++ emitted server rio db entries next ∧
      next.guestLog = t.guestLog ++ item ∧
      traceEntries server rio db (de :: entries) t = traceEntries server rio db entries next ∧
      failedPages server rio db (de :: entries) t.dump =
        failedPages server rio db entries next.dump := by
  obtain ⟨hLog, hDump⟩ := report_keeps hReport
  refine ⟨?_, ?_, ?_, ?_⟩
  · simp only [emitted, hSlot, hLen, hKey, hReport, Bracketed.bracket, List.append_assoc]
  · rw [hLog, Bracketed.bracket, ← List.append_assoc]
    rfl
  · simp only [traceEntries, hSlot, hLen, hKey, hReport]
  · rw [hDump]
    simp only [failedPages, hSlot, hKey]
    rfl

variable (server rio db) in
/-- The records of the loop are brackets, and a write that fails leaves the item
open that it was writing. -/
def EmittedSpec (entries : List DictEntry) (t : Traced σ) : Prop :=
  ∃ closed opened, emitted server rio db entries t = records closed opened ∧
    (∀ final, traceEntries server rio db entries t = some (.ok final) →
      final.guestLog = t.guestLog ++ records closed opened ∧ opened = []) ∧
    (∀ final, traceEntries server rio db entries t = some (.error final) →
      final.guestLog = t.guestLog ++ records closed opened ∧
        opened = failedPages server rio db entries t.dump)

theorem emittedSpec_of_undefined {entries : List DictEntry} {t : Traced σ}
    (closed : List (List Nat)) (hRun : traceEntries server rio db entries t = none)
    (hEmitted : emitted server rio db entries t = records closed []) :
    EmittedSpec server rio db entries t := by
  refine ⟨closed, [], hEmitted, ?_, ?_⟩
  · intro final hFinal
    rw [hRun] at hFinal
    cases hFinal
  · intro final hFinal
    rw [hRun] at hFinal
    cases hFinal

/-- Where a key fails, its item stays open. -/
theorem emittedSpec_of_error {entries : List DictEntry} {t failed : Traced σ}
    (opened : List Nat) (hRun : traceEntries server rio db entries t = some (.error failed))
    (hEmitted : emitted server rio db entries t = records [] opened)
    (hLog : failed.guestLog = t.guestLog ++ records [] opened)
    (hItem : opened = failedPages server rio db entries t.dump) :
    EmittedSpec server rio db entries t := by
  refine ⟨[], opened, hEmitted, ?_, ?_⟩
  · intro final hFinal
    rw [hRun] at hFinal
    cases hFinal
  · intro final hFinal
    rw [hRun] at hFinal
    obtain rfl := Except.error.inj (Option.some.inj hFinal)
    exact ⟨hLog, hItem⟩

/-- A key that is saved adds a closed item. -/
theorem emittedSpec_cons {entries : List DictEntry} {de : DictEntry} {t next : Traced σ}
    {st st' : DumpState σ} {len : Nat} (hSlot : saveSlot server rio db de t.dump = .ok st)
    (hLen : de.value.sdslen = some len) (hKey : saveKey server rio de st = .ok st')
    (hReport : ((((t.setDump st).log server de len "OUT G* NONE".toList).setDump st').log server de
      len "OUT G NONE".toList).report server db.size = some next)
    (hNext : EmittedSpec server rio db entries next) :
    EmittedSpec server rio db (de :: entries) t := by
  obtain ⟨hEmitted, hLog, hTrace, hFailed⟩ := emitted_cons entries hSlot hLen hKey hReport
  obtain ⟨closed, opened, hRest, hOk, hError⟩ := hNext
  have hRecords : Bracketed.bracket opening closing (itemPages server de len) ++
      records closed opened = records (itemPages server de len :: closed) opened :=
    (Bracketed.events_cons _ closed opened).symm
  refine ⟨itemPages server de len :: closed, opened, ?_, ?_, ?_⟩
  · rw [hEmitted, hRest, hRecords]
  · intro final hRun
    obtain ⟨hFinal, hNone⟩ := hOk final (hTrace ▸ hRun)
    rw [hFinal, hLog, List.append_assoc, hRecords]
    exact ⟨rfl, hNone⟩
  · intro final hRun
    obtain ⟨hFinal, hItem⟩ := hError final (hTrace ▸ hRun)
    rw [hFinal, hLog, List.append_assoc, hRecords, hFailed]
    exact ⟨rfl, hItem⟩

variable (server rio db) in
/-- The loop over the keys, by induction on them. -/
theorem emittedSpec (entries : List DictEntry) (t : Traced σ) :
    EmittedSpec server rio db entries t := by
  induction entries generalizing t with
  | nil =>
      refine ⟨[], [], rfl, ?_, ?_⟩
      · intro final hRun
        obtain rfl := Except.ok.inj (Option.some.inj hRun)
        exact ⟨(List.append_nil _).symm, rfl⟩
      · intro final hRun
        cases hRun
  | cons de entries ih =>
      cases hSlot : saveSlot server rio db de t.dump with
      | error st =>
          apply emittedSpec_of_error [] (by simp only [traceEntries, hSlot]; rfl)
          · rw [emitted, hSlot]
            rfl
          · exact (List.append_nil _).symm
          · rw [failedPages, hSlot]
      | ok st =>
          cases hLen : de.value.sdslen with
          | none =>
              apply emittedSpec_of_undefined [] (by simp only [traceEntries, hSlot, hLen])
              rw [emitted, hSlot, hLen]
              rfl
          | some len =>
              cases hKey : saveKey server rio de st with
              | error st' =>
                  apply emittedSpec_of_error (itemPages server de len)
                    (by simp only [traceEntries, hSlot, hLen, hKey]; rfl)
                  · simp only [emitted, hSlot, hLen, hKey, List.append_nil]
                    rfl
                  · rfl
                  · simp only [failedPages, hSlot, hKey, hLen, Option.getD_some]
              | ok st' =>
                  cases hReport : ((((t.setDump st).log server de len
                    "OUT G* NONE".toList).setDump st').log server de len
                    "OUT G NONE".toList).report server db.size with
                  | none =>
                      apply emittedSpec_of_undefined [itemPages server de len]
                        (by simp only [traceEntries, hSlot, hLen, hKey, hReport])
                      simp only [emitted, hSlot, hLen, hKey, hReport]
                      rw [records, Bracketed.events_cons, Bracketed.bracket, List.append_assoc]
                      rfl
                  | some next => exact emittedSpec_cons hSlot hLen hKey hReport (ih next)

variable (server rio db) in
/-- The records of the whole function. -/
def emittedDb (t : Traced σ) : List GuestRecord :=
  if db.size = 0 then []
  else
    match saveHeader server rio db t.dump.channel with
    | (none, _) => []
    | (some res, channel) => emitted server rio db db.entries (t.afterHeader db res channel)

variable (server rio db) in
/-- The pages of the item at which the whole function fails. -/
def failedPagesDb (t : Traced σ) : List Nat :=
  match saveHeader server rio db t.dump.channel with
  | (none, _) => []
  | (some res, channel) => failedPages server rio db db.entries (t.dump.afterHeader res channel)

/-- Whatever the outcome, the records are well bracketed, and they are those of
the log file unless the behaviour is undefined. -/
theorem rdbSaveDb_records (server : Server) (rio : Rio σ) (db : RedisDb) (t : Traced σ) :
    ∃ opened, WellBracketed (emittedDb server rio db t) opened ∧
      ∀ result final, rdbSaveDb server rio db t = some (result, final) →
        final.guestLog = t.guestLog ++ emittedDb server rio db t ∧
          opened = if result.isSome then [] else failedPagesDb server rio db t := by
  rw [rdbSaveDb, emittedDb, failedPagesDb]
  split_ifs with hEmpty
  · refine ⟨[], wellBracketed_records [] [], ?_⟩
    intro result final hRun
    obtain ⟨rfl, rfl⟩ := Prod.mk.inj (Option.some.inj hRun)
    exact ⟨(List.append_nil _).symm, rfl⟩
  · cases hHeader : saveHeader server rio db t.dump.channel with
    | mk res channel =>
        cases res with
        | none =>
            refine ⟨[], wellBracketed_records [] [], ?_⟩
            intro result final hRun
            obtain ⟨rfl, rfl⟩ := Prod.mk.inj (Option.some.inj hRun)
            exact ⟨(List.append_nil _).symm, rfl⟩
        | some res =>
            obtain ⟨closed, opened, hEmitted, hOk, hError⟩ :=
              emittedSpec server rio db db.entries (t.afterHeader db res channel)
            simp only [hEmitted]
            refine ⟨opened, wellBracketed_records closed opened, ?_⟩
            intro result final hRun
            obtain ⟨ended, hEnded, hRet⟩ := Option.map_eq_some_iff.mp hRun
            cases ended with
            | error failed =>
                obtain ⟨rfl, rfl⟩ := Prod.mk.inj hRet
                exact hError failed hEnded
            | ok finished =>
                obtain ⟨rfl, rfl⟩ := Prod.mk.inj hRet
                exact hOk finished hEnded

end Redis

namespace Mosquitto

open Traces

variable {σ : Type} (broker : Broker) (write : WriteChunk σ)

/-- The pages of the message whose write fails. -/
def failedPages : List MsgStore → SaveState σ → List Nat
  | [], _ => []
  | stored :: rest, st =>
      match stored.persistedTopic with
      | none => failedPages rest st
      | some topic =>
          match persistMessage broker write stored topic st with
          | .error (.returned _, _) => stored.tracedPages broker
          | .error (.undefined, _) => []
          | .ok next => failedPages rest next

/-- The pages of the message at which the whole function fails. -/
def failedPagesStore (st : SaveState σ) : List Nat :=
  failedPages broker write broker.msgStore (st.start (broker.msgStoreCount - 53))

variable {broker write}

theorem raise_guestLog {st next : SaveState σ} (h : st.raise broker = some next) :
    next.guestLog = st.guestLog := by
  simp only [SaveState.raise, bind, Option.bind_eq_some_iff] at h
  obtain ⟨percentage, _, messages, _, product, _, hNext⟩ := h
  obtain rfl := Option.some.inj hNext
  rfl

theorem report_guestLog {st next : SaveState σ} (h : st.report broker = some next) :
    next.guestLog = st.guestLog := by
  simp only [SaveState.report, bind, Option.bind_eq_some_iff] at h
  obtain ⟨keyNumber, _, hNext⟩ := h
  split_ifs at hNext
  · have hRaise := raise_guestLog hNext
    exact hRaise
  · obtain rfl := Option.some.inj hNext
    rfl

variable (broker write) in
/-- A message opens its pages, and closes them unless its write fails. -/
theorem persistMessage_guestLog (stored : MsgStore) (topic : CString) (st : SaveState σ) :
    match persistMessage broker write stored topic st with
    | .error (.returned rc, failed) =>
        rc ≠ 0 ∧ failed.guestLog = st.guestLog ++ records [] (stored.tracedPages broker)
    | .error (.undefined, stopped) =>
        stopped.guestLog = st.guestLog ++ records [stored.tracedPages broker] []
    | .ok next => next.guestLog = st.guestLog ++ records [stored.tracedPages broker] [] := by
  have hBoth (file : σ) :
      (({ st.log broker stored "OUT G* NONE".toList with file := file }).log broker stored
        "OUT G NONE".toList).guestLog =
        st.guestLog ++ records [stored.tracedPages broker] [] := by
    have hNothing : Bracketed.events opening closing [] [] = [] := rfl
    rw [records, Bracketed.events_cons, Bracketed.bracket, hNothing, List.append_nil,
      ← List.append_assoc]
    rfl
  simp only [persistMessage]
  split_ifs with hFails
  · exact ⟨hFails, rfl⟩
  · cases hReport : (({ st.log broker stored "OUT G* NONE".toList with
        file := (write (stored.chunk topic) (st.log broker stored "OUT G* NONE".toList).file).2
        }).log broker stored "OUT G NONE".toList).report broker with
    | none => exact hBoth _
    | some next =>
        show next.guestLog = _
        rw [report_guestLog hReport]
        exact hBoth _

theorem records_append_singleton (log : List Redis.GuestRecord) (item : List Nat)
    (closed : List (List Nat)) (opened : List Nat) :
    (log ++ records [item] []) ++ records closed opened =
      log ++ records (item :: closed) opened := by
  have hNothing : Bracketed.events opening closing [] [] = [] := rfl
  rw [records, records, records, Bracketed.events_cons, Bracketed.events_cons, hNothing,
    List.append_nil, List.append_assoc]

/-- What the loop adds to the log, and what it leaves open. -/
theorem saveMessages_records (broker : Broker) (write : WriteChunk σ) (store : List MsgStore)
    (st : SaveState σ) :
    ∃ closed opened,
      (ret (saveMessages broker write store st)).2.guestLog =
        st.guestLog ++ records closed opened ∧
      match (ret (saveMessages broker write store st)).1 with
      | .undefined => opened = []
      | .returned rc => opened = if rc = 0 then [] else failedPages broker write store st := by
  induction store generalizing st with
  | nil => exact ⟨[], [], (List.append_nil _).symm, rfl⟩
  | cons stored rest ih =>
      cases hTopic : stored.persistedTopic with
      | none =>
          simp only [saveMessages, failedPages, hTopic]
          exact ih st
      | some topic =>
          have hStep := persistMessage_guestLog broker write stored topic st
          cases hResult : persistMessage broker write stored topic st with
          | error ended =>
              obtain ⟨exit, stopped⟩ := ended
              rw [hResult] at hStep
              simp only [saveMessages, failedPages, hTopic, hResult, ret]
              cases exit with
              | undefined => exact ⟨[stored.tracedPages broker], [], hStep, rfl⟩
              | returned rc =>
                  refine ⟨[], stored.tracedPages broker, hStep.2, ?_⟩
                  exact (if_neg hStep.1).symm
          | ok next =>
              rw [hResult] at hStep
              obtain ⟨closed, opened, hLog, hOpened⟩ := ih next
              simp only [saveMessages, failedPages, hTopic, hResult]
              refine ⟨stored.tracedPages broker :: closed, opened, ?_, hOpened⟩
              rw [hLog, hStep, records_append_singleton]

end Mosquitto

namespace Traces

/-- The traces of both dumps are well bracketed: those of a database up to the
return of `rdbSaveDb` or to where its behaviour is undefined, and those of a
message store likewise. Nothing stays open after a success, and after a failing
write what stays open is the item that was being written. -/
theorem dumps_bracketed {σ τ : Type} (server : Redis.Server) (rio : Redis.Rio σ)
    (db : Redis.RedisDb) (t : Redis.Traced σ) (broker : Mosquitto.Broker)
    (write : Mosquitto.WriteChunk τ) (st : Mosquitto.SaveState τ) :
    (∃ opened, WellBracketed (Redis.emittedDb server rio db t) opened ∧
      (∀ result final, Redis.rdbSaveDb server rio db t = some (result, final) →
        final.guestLog = t.guestLog ++ Redis.emittedDb server rio db t ∧
          opened = if result.isSome then [] else Redis.failedPagesDb server rio db t)) ∧
    (∃ log opened, WellBracketed log opened ∧
      (Mosquitto.messageStoreSave broker write st).2.guestLog = st.guestLog ++ log ∧
      ∀ rc, (Mosquitto.messageStoreSave broker write st).1 = .returned rc →
        opened = if rc = 0 then [] else Mosquitto.failedPagesStore broker write st) := by
  refine ⟨Redis.rdbSaveDb_records server rio db t, ?_⟩
  rw [Mosquitto.messageStoreSave]
  cases hCount : CInt.toInt (broker.msgStoreCount - 53) with
  | none =>
      refine ⟨[], [], wellBracketed_records [] [], (List.append_nil _).symm, ?_⟩
      intro rc hReturned
      cases hReturned
  | some messages =>
      have hMessages : messages = broker.msgStoreCount - 53 := by
        rw [CInt.toInt] at hCount
        split_ifs at hCount
        exact (Option.some.inj hCount).symm
      obtain ⟨closed, opened, hLog, hOpened⟩ := Mosquitto.saveMessages_records broker write
        broker.msgStore (st.start messages)
      refine ⟨records closed opened, opened, wellBracketed_records closed opened, hLog, ?_⟩
      intro rc hReturned
      simp only [hReturned] at hOpened
      rw [hOpened, Mosquitto.failedPagesStore, hMessages]

end Traces
