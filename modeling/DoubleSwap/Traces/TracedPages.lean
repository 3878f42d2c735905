import DoubleSwap.Mosquitto.MessageStore
import DoubleSwap.Redis.Transparency

/-! The pages that the traces name for an object, and the pages that the object
occupies. The loops start at the page of the address and end at the page of that
page's start plus the length, not at the page of the last byte. -/
namespace Traces

open Redis (pages)

/-- The pages of an object, each once. -/
def ExactlyTouched (pageSize address len : Nat) (traced : List Nat) : Prop :=
  traced.Nodup ∧
    ∀ q, q ∈ traced ↔ pageSize ∣ q ∧ q < address + len ∧ address < q + pageSize

section Pages

variable {pageSize : Nat} (hSize : 0 < pageSize)

include hSize in
theorem mem_pages (startPage endPage q : Nat) :
    q ∈ pages startPage endPage pageSize ↔
      ∃ i, q = startPage + pageSize * i ∧ startPage + pageSize * i ≤ endPage := by
  simp only [pages, List.mem_map, List.mem_range]
  refine exists_congr fun i => ?_
  have hIndex : i < (endPage + pageSize - startPage) / pageSize ↔
      startPage + pageSize * i ≤ endPage := by
    rw [Nat.lt_iff_add_one_le, Nat.le_div_iff_mul_le hSize, Nat.add_mul, Nat.one_mul,
      Nat.mul_comm i]
    omega
  rw [hIndex, eq_comm, and_comm]

include hSize in
theorem nodup_pages (startPage endPage : Nat) : (pages startPage endPage pageSize).Nodup := by
  refine List.Nodup.map ?_ List.nodup_range
  intro i j h
  exact Nat.eq_of_mul_eq_mul_left hSize (Nat.add_left_cancel h)

include hSize in
/-- The pages of an object are the page of its address and those after it up to
the page of its last byte. -/
theorem touched_iff (address : Nat) {len : Nat} (hLen : 1 ≤ len) (q : Nat) :
    (pageSize ∣ q ∧ q < address + len ∧ address < q + pageSize) ↔
      ∃ i, q = address / pageSize * pageSize + pageSize * i ∧
        i ≤ (address % pageSize + len - 1) / pageSize := by
  have hSplit := Nat.div_add_mod' address pageSize
  have hOffset := Nat.mod_lt address hSize
  constructor
  · rintro ⟨⟨k, rfl⟩, hBelow, hAbove⟩
    have hFirst : address / pageSize ≤ k := by
      rw [← Nat.lt_succ_iff, Nat.div_lt_iff_lt_mul hSize, Nat.succ_mul, Nat.mul_comm k]
      exact hAbove
    obtain ⟨i, rfl⟩ := Nat.exists_eq_add_of_le hFirst
    refine ⟨i, by rw [Nat.mul_add, Nat.mul_comm pageSize (address / pageSize)], ?_⟩
    rw [Nat.mul_add, Nat.mul_comm pageSize (address / pageSize)] at hBelow
    rw [Nat.le_div_iff_mul_le hSize, Nat.mul_comm]
    omega
  · rintro ⟨i, rfl, hIndex⟩
    rw [Nat.le_div_iff_mul_le hSize, Nat.mul_comm] at hIndex
    refine ⟨⟨address / pageSize + i, ?_⟩, ?_, ?_⟩
    · rw [Nat.mul_add, Nat.mul_comm pageSize (address / pageSize)]
    · omega
    · have hIndexed := Nat.le_add_right (address / pageSize * pageSize) (pageSize * i)
      omega

include hSize in
/-- A loop from the page of the address that is given the length `n` is right
exactly when `n` reaches as many pages further as the object does. -/
theorem exactlyTouched_iff (address : Nat) {len : Nat} (hLen : 1 ≤ len) (n : Nat) :
    ExactlyTouched pageSize address len
        (pages (address / pageSize * pageSize)
          ((address / pageSize * pageSize + n) / pageSize * pageSize) pageSize) ↔
      n / pageSize = (address % pageSize + len - 1) / pageSize := by
  have hEnd : (address / pageSize * pageSize + n) / pageSize * pageSize =
      address / pageSize * pageSize + pageSize * (n / pageSize) := by
    rw [Nat.mul_comm (address / pageSize), Nat.mul_add_div hSize, Nat.add_mul,
      Nat.mul_comm (address / pageSize), Nat.mul_comm (n / pageSize)]
  have hTraced (q : Nat) : q ∈ pages (address / pageSize * pageSize)
      ((address / pageSize * pageSize + n) / pageSize * pageSize) pageSize ↔
      ∃ i, q = address / pageSize * pageSize + pageSize * i ∧ i ≤ n / pageSize := by
    rw [mem_pages hSize, hEnd]
    refine exists_congr fun i => and_congr_right fun _ => ?_
    rw [Nat.add_le_add_iff_left, Nat.mul_le_mul_left_iff hSize]
  have hIndex {i j : Nat} (h : address / pageSize * pageSize + pageSize * i =
      address / pageSize * pageSize + pageSize * j) : i = j :=
    Nat.eq_of_mul_eq_mul_left hSize (Nat.add_left_cancel h)
  rw [ExactlyTouched, and_iff_right (nodup_pages hSize _ _)]
  simp only [hTraced, touched_iff hSize address hLen]
  constructor
  · intro hSame
    apply Nat.le_antisymm
    · obtain ⟨i, hPage, hLast⟩ := (hSame _).mp ⟨n / pageSize, rfl, Nat.le_refl _⟩
      exact hIndex hPage ▸ hLast
    · obtain ⟨i, hPage, hLast⟩ := (hSame _).mpr ⟨_, rfl, Nat.le_refl _⟩
      exact hIndex hPage ▸ hLast
  · intro hSame q
    rw [hSame]

/-- Given the length itself, the loop is right when the offset in the first page
and the length beyond whole pages together come to at least one byte and to at
most one page. -/
theorem div_eq_div_iff (hSize : 0 < pageSize) {address len : Nat} (hLen : 1 ≤ len) :
    len / pageSize = (address % pageSize + len - 1) / pageSize ↔
      1 ≤ address % pageSize + len % pageSize ∧
        address % pageSize + len % pageSize ≤ pageSize := by
  have hSplit := Nat.div_add_mod' len pageSize
  have hOffset := Nat.mod_lt address hSize
  have hRest := Nat.mod_lt len hSize
  rw [eq_comm, Nat.div_eq_iff hSize]
  omega

end Pages

/-- The constant of `align_to_page_start` in Redis divides every larger page size. -/
theorem alignToPageStart_eq (server : Redis.Server) (hServer : 4096 ≤ server.pageSize)
    (address : Nat) :
    Redis.alignToPageStart address =
      address / server.pageSize * server.pageSize + address % server.pageSize / 4096 * 4096 := by
  have hBits : 12 ≤ server.pageBits :=
    (Nat.pow_le_pow_iff_right (show 1 < 2 by decide)).mp hServer
  obtain ⟨m, hMultiple⟩ : 4096 ∣ server.pageSize := Nat.pow_dvd_pow 2 hBits
  have hSplit : address = address / server.pageSize * server.pageSize +
      address % server.pageSize := (Nat.div_add_mod' address server.pageSize).symm
  have hQuotient : address / 4096 =
      m * (address / server.pageSize) + address % server.pageSize / 4096 := by
    conv_lhs => rw [hSplit, hMultiple, ← hMultiple, Nat.mul_comm, hMultiple, Nat.mul_assoc,
      Nat.mul_add_div (show 0 < 4096 by decide)]
    rw [hMultiple]
  rw [Redis.alignToPageStart, hQuotient, Nat.add_mul, hMultiple]
  ring

theorem redis_exactlyTouched_iff (server : Redis.Server) (hServer : 4096 ≤ server.pageSize)
    {address len : Nat} (hLen : 1 ≤ len) :
    ExactlyTouched server.pageSize address len (Redis.tracedPages server address len) ↔
      address % server.pageSize < 4096 ∧
        1 ≤ address % server.pageSize + len % server.pageSize ∧
        address % server.pageSize + len % server.pageSize ≤ server.pageSize := by
  have hSize : 0 < server.pageSize := by omega
  have hStart := alignToPageStart_eq server hServer address
  by_cases hAligned : address % server.pageSize < 4096
  · rw [and_iff_right hAligned, ← div_eq_div_iff hSize hLen, Redis.tracedPages, Redis.endPage]
    rw [Nat.div_eq_of_lt hAligned, Nat.zero_mul, Nat.add_zero] at hStart
    rw [hStart]
    exact exactlyTouched_iff hSize address hLen len
  · refine iff_of_false ?_ fun h => hAligned h.1
    intro hExact
    have hFirst := (touched_iff hSize address hLen _).mpr ⟨0, rfl, Nat.zero_le _⟩
    obtain ⟨i, hPage, _⟩ := (mem_pages hSize _ _ _).mp ((hExact.2 _).mpr hFirst)
    have hPast : 4096 ≤ address % server.pageSize / 4096 * 4096 := by omega
    rw [hStart, Nat.mul_zero, Nat.add_zero] at hPage
    have hSteps := Nat.zero_le (server.pageSize * i)
    omega

/-- The traces name the pages of an object and no others, each once, exactly when
the length takes the loop as far as the last byte is. For a message store the
length is that of a pointer, so it has to lie in one page. -/
theorem traced_exactly_iff (server : Redis.Server) (hServer : 4096 ≤ server.pageSize)
    (broker : Mosquitto.Broker) (hBroker : 4096 ≤ broker.pageSize) {address len : Nat}
    (hLen : 1 ≤ len) :
    (ExactlyTouched server.pageSize address len (Redis.tracedPages server address len) ↔
      address % server.pageSize < 4096 ∧
        1 ≤ address % server.pageSize + len % server.pageSize ∧
        address % server.pageSize + len % server.pageSize ≤ server.pageSize) ∧
    (ExactlyTouched broker.pageSize address len (Mosquitto.tracedPages broker address len) ↔
      1 ≤ address % broker.pageSize + len % broker.pageSize ∧
        address % broker.pageSize + len % broker.pageSize ≤ broker.pageSize) ∧
    (ExactlyTouched broker.pageSize address len
        (Mosquitto.tracedPages broker address Mosquitto.sizeofStored) ↔
      address % broker.pageSize + len ≤ broker.pageSize) := by
  have hBrokerPos : 0 < broker.pageSize := by omega
  refine ⟨redis_exactlyTouched_iff server hServer hLen, ?_, ?_⟩
  · rw [← div_eq_div_iff hBrokerPos hLen]
    exact exactlyTouched_iff hBrokerPos address hLen len
  · have hPointer : Mosquitto.sizeofStored / broker.pageSize = 0 :=
      Nat.div_eq_of_lt (show 8 < broker.pageSize by omega)
    have hTraced := exactlyTouched_iff hBrokerPos address hLen Mosquitto.sizeofStored
    rw [hPointer, eq_comm, Nat.div_eq_zero_iff_lt hBrokerPos] at hTraced
    refine Iff.trans hTraced ?_
    omega

/-- A broker without messages, and with pages of 4096 bytes. -/
def emptyBroker : Mosquitto.Broker := ⟨[], 0, 12, Mosquitto.plainPageBits_lt, fun _ => 0⟩

/-- A string and a payload that go on to the next page, and a message store that
ends with its page. -/
theorem middle_traced_exactly :
    ExactlyTouched 4096 140000000000101 5000
        (Redis.tracedPages Redis.plainServer 140000000000101 5000) ∧
      ExactlyTouched 4096 140000000000112 5000
        (Mosquitto.tracedPages emptyBroker 140000000000112 5000) ∧
      ExactlyTouched 4096 140000000003968 128
        (Mosquitto.tracedPages emptyBroker 140000000003968 Mosquitto.sizeofStored) := by
  obtain ⟨hString, _, _⟩ := traced_exactly_iff Redis.plainServer (by decide) emptyBroker
    (by decide) (show 1 ≤ 5000 by decide)
  obtain ⟨_, hPayload, _⟩ := traced_exactly_iff Redis.plainServer (by decide) emptyBroker
    (by decide) (show 1 ≤ 5000 by decide)
  obtain ⟨_, _, hStore⟩ := traced_exactly_iff Redis.plainServer (by decide) emptyBroker
    (by decide) (show 1 ≤ 128 by decide)
  exact ⟨hString.mpr (by decide), hPayload.mpr (by decide), hStore.mpr (by decide)⟩

/-- The second page of a string of twenty bytes across a boundary is not traced,
nor is that of a message store, and the page after a payload of exactly one page
is. -/
theorem boundary_not_traced :
    ¬ ExactlyTouched 4096 140000000004083 20
        (Redis.tracedPages Redis.plainServer 140000000004083 20) ∧
      ¬ ExactlyTouched 4096 140000000000000 4096
        (Mosquitto.tracedPages emptyBroker 140000000000000 4096) ∧
      ¬ ExactlyTouched 4096 140000000004000 128
        (Mosquitto.tracedPages emptyBroker 140000000004000 Mosquitto.sizeofStored) ∧
      Redis.tracedPages Redis.plainServer 140000000004083 20 = [140000000000000] ∧
      Mosquitto.tracedPages emptyBroker 140000000000000 4096 =
        [140000000000000, 140000000004096] ∧
      Mosquitto.tracedPages emptyBroker 140000000004000 Mosquitto.sizeofStored =
        [140000000000000] := by
  refine ⟨?_, ?_, ?_, by decide +kernel, by decide +kernel, by decide +kernel⟩
  · intro hExact
    have hPage := (hExact.2 140000000004096).mpr (by decide)
    exact absurd hPage (by decide +kernel)
  · intro hExact
    have hPage := (hExact.2 140000000004096).mp (by decide +kernel)
    exact absurd hPage (by decide)
  · intro hExact
    have hPage := (hExact.2 140000000004096).mpr (by decide)
    exact absurd hPage (by decide +kernel)

end Traces
