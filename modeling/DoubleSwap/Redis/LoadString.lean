import DoubleSwap.Data.Reading
import DoubleSwap.Redis.Rio
import Mathlib.Data.Nat.Bitwise

/-! The readers at the bottom of a dump, and that they give back what the
writers of lengths, times, integers and strings have written. -/
namespace Redis

open Reading Reader

/-- What a loader with too little memory, or without a module, runs into, and
the functions of other files that it uses. -/
structure LoadServer extends Server where
  /-- Whether so many bytes can be allocated. -/
  canAllocate : Nat → Bool
  /-- `none` unless the result has the given length. -/
  lzfDecompress : Bytes → Nat → Option Bytes

/-- `RDB_LENERR`. -/
def lenErr : Nat := 2 ^ 64 - 1

def ofLittleEndian (bytes : Bytes) : Nat := bytes.foldr (fun b n => b.toNat + 256 * n) 0

def ofBigEndian (bytes : Bytes) : Nat := ofLittleEndian bytes.reverse

/-- A number of so many bytes, taken as a signed one. -/
def signed (width n : Nat) : Int :=
  if n < 2 ^ (8 * width - 1) then (n : Int) else (n : Int) - 2 ^ (8 * width)

section Model

variable (server : LoadServer)

/-- `none` for -1. -/
def rdbLoadType : Reader UInt8 (Option UInt8) := next

/-- A failed read gives `LLONG_MAX`. -/
def rdbLoadMillisecondTime : Reader UInt8 Int := do
  match ← take 8 with
  | none => return 2 ^ 63 - 1
  | some bytes => return signed 8 (ofLittleEndian bytes)

/-- The flag `isencoded` and the length. `none` for -1. -/
def rdbLoadLenByRef : Reader UInt8 (Option (Bool × Nat)) := do
  match ← next with
  | none => return none
  | some b =>
      let type := (b.toNat &&& 0xC0) >>> 6
      if type = server.format.encVal then return some (true, b.toNat &&& 0x3F)
      else if type = server.format.sixBitLen then return some (false, b.toNat &&& 0x3F)
      else if type = server.format.fourteenBitLen then
        match ← next with
        | none => return none
        | some b' => return some (false, ((b.toNat &&& 0x3F) <<< 8) ||| b'.toNat)
      else if b = server.format.thirtyTwoBitLen then
        match ← take 4 with
        | none => return none
        | some bytes => return some (false, ofBigEndian bytes)
      else if b = server.format.sixtyFourBitLen then
        match ← take 8 with
        | none => return none
        | some bytes => return some (false, ofBigEndian bytes)
      else return none

def rdbLoadLen : Reader UInt8 (Bool × Nat) := do
  match ← rdbLoadLenByRef server with
  | none => return (false, lenErr)
  | some result => return result

/-- `rdbLoadLen(rdb,NULL)`. -/
def rdbLoadPlainLen : Reader UInt8 Nat := do
  let result ← rdbLoadLen server
  return result.2

/-- A length that must not be `RDB_LENERR`. -/
def rdbDemandLen : Reader UInt8 Nat := do
  let len ← rdbLoadPlainLen server
  if len = lenErr then fail else return len

/-- The digits of the number, whatever the kind of string that is asked for. -/
def rdbLoadIntegerObject (enctype : Nat) : Reader UInt8 Bytes := do
  if enctype = server.format.encInt8 then
    let enc ← demand 1
    return server.ll2string (signed 1 (ofLittleEndian enc))
  else if enctype = server.format.encInt16 then
    let enc ← demand 2
    return server.ll2string (signed 2 (ofLittleEndian enc))
  else if enctype = server.format.encInt32 then
    let enc ← demand 4
    return server.ll2string (signed 4 (ofLittleEndian enc))
  else fail

def rdbLoadLzfStringObject : Reader UInt8 Bytes := do
  let clen ← rdbDemandLen server
  let len ← rdbDemandLen server
  if server.canAllocate clen ∧ server.canAllocate len then
    let c ← demand clen
    match server.lzfDecompress c len with
    | none => fail
    | some val => return val
  else fail

/-- The bytes of the string. The reader gives up where the function returns
NULL; the flags are about the kind of object that holds the bytes. -/
def rdbGenericLoadStringObject : Reader UInt8 Bytes := do
  let (isencoded, len) ← rdbLoadLen server
  if len = lenErr then fail
  else if isencoded then
    if len = server.format.encInt8 ∨ len = server.format.encInt16 ∨
        len = server.format.encInt32 then
      rdbLoadIntegerObject server len
    else if len = server.format.encLzf then rdbLoadLzfStringObject server
    else fail
  else if server.canAllocate len then
    if 0 < len then demand len else return []
  else fail

end Model

theorem length_littleEndian (width n : Nat) : (littleEndian width n).length = width := by
  induction width generalizing n with
  | zero => rfl
  | succ width ih => rw [littleEndian, List.length_cons, ih]

/-- A number comes back if it has enough bytes. -/
theorem ofLittleEndian_littleEndian {width n : Nat} (h : n < 256 ^ width) :
    ofLittleEndian (littleEndian width n) = n := by
  induction width generalizing n with
  | zero =>
      obtain rfl := Nat.lt_one_iff.mp h
      rfl
  | succ width ih =>
      have hRest : n / 256 < 256 ^ width := by
        rw [Nat.pow_succ] at h
        exact Nat.div_lt_of_lt_mul (by rwa [Nat.mul_comm])
      have hByte : (UInt8.ofNat n).toNat = n % 256 := UInt8.toNat_ofNat'
      have hDigits : ofLittleEndian (littleEndian (width + 1) n) =
          (UInt8.ofNat n).toNat + 256 * ofLittleEndian (littleEndian width (n / 256)) := rfl
      rw [hDigits, ih hRest, hByte]
      omega

theorem length_bigEndian (width n : Nat) : (bigEndian width n).length = width := by
  rw [bigEndian, List.length_reverse, length_littleEndian]

/-- So it does from the other end. -/
theorem ofBigEndian_bigEndian {width n : Nat} (h : n < 256 ^ width) :
    ofBigEndian (bigEndian width n) = n := by
  rw [ofBigEndian, bigEndian, List.reverse_reverse, ofLittleEndian_littleEndian h]

/-- Two's complement and back. -/
theorem signed_toNat {width : Nat} {value : Int} (hWidth : 0 < width)
    (hLow : -2 ^ (8 * width - 1) ≤ value) (hHigh : value < 2 ^ (8 * width - 1)) :
    signed width (value % 2 ^ (8 * width)).toNat = value := by
  have hHalf : (2 : Int) ^ (8 * width) = 2 * 2 ^ (8 * width - 1) := by
    rw [← pow_succ', Nat.sub_add_cancel (by omega)]
  have hNat : ((2 ^ (8 * width - 1) : Nat) : Int) = 2 ^ (8 * width - 1) := by push_cast; rfl
  rw [signed, hHalf]
  rcases Int.lt_or_le value 0 with hNegative | hPositive
  · have hMod : value % (2 * 2 ^ (8 * width - 1)) = value + 2 * 2 ^ (8 * width - 1) := by
      rw [← Int.add_emod_right, Int.emod_eq_of_lt (by omega) (by omega)]
    rw [hMod, if_neg (by omega)]
    omega
  · rw [Int.emod_eq_of_lt hPositive (by omega), if_pos (by omega)]
    omega

/-- Every dump that `save` writes is read by `load`, up to its end, as `a`. -/
def LoadsBack {σ ν α : Type} (save : Save σ ν) (load : Reader UInt8 α) (a : α) : Prop :=
  ∀ channel n channel', save channel = (some n, channel') →
    ∃ bytes, channel'.writes.flatten = channel.writes.flatten ++ bytes ∧ Reads load bytes a

section Rules

variable {σ ν μ α β : Type} {save : Save σ ν} {load : Reader UInt8 α} {a : α}

/-- After a failure nothing more is written. -/
theorem Save.bind_of_none {f : ν → Save σ μ} {channel channel' : Channel σ}
    (h : save channel = (none, channel')) : (save >>= f) channel = (none, channel') := by
  simp only [bind, h]

theorem Save.bind_of_some {f : ν → Save σ μ} {channel channel' : Channel σ} {n : ν}
    (h : save channel = (some n, channel')) : (save >>= f) channel = f n channel' := by
  simp only [bind, h]

/-- Two writers succeed if both do, one after the other. -/
theorem Save.bind_eq_some {f : ν → Save σ μ} {channel channel' : Channel σ} {m : μ} :
    (save >>= f) channel = (some m, channel') ↔
      ∃ n between, save channel = (some n, between) ∧ f n between = (some m, channel') := by
  rcases h : save channel with ⟨_ | n, between⟩
  · rw [Save.bind_of_none h]
    simp
  · rw [Save.bind_of_some h]
    simp

theorem loadsBack_pure (n : ν) (a : α) :
    LoadsBack (pure n : Save σ ν) (pure a : Reader UInt8 α) a := by
  intro channel m channel' h
  obtain rfl : channel = channel' := congrArg Prod.snd h
  exact ⟨[], (List.append_nil _).symm, reads_pure a⟩

/-- What two writers write is read by two readers. -/
theorem LoadsBack.bind {f : ν → Save σ μ} {g : α → Reader UInt8 β} {b : β}
    (hFirst : LoadsBack save load a) (hRest : ∀ n, LoadsBack (f n) (g a) b) :
    LoadsBack (save >>= f) (load >>= g) b := by
  intro channel m channel' h
  obtain ⟨n, between, hSave, hNext⟩ := Save.bind_eq_some.mp h
  obtain ⟨bytes, hBytes, hReads⟩ := hFirst _ _ _ hSave
  obtain ⟨more, hMore, hReadsMore⟩ := hRest n _ _ _ hNext
  refine ⟨bytes ++ more, ?_, hReads.bind hReadsMore⟩
  rw [hMore, hBytes, List.append_assoc]

/-- What a writer makes of the number of bytes does not matter. -/
theorem LoadsBack.counted (h : LoadsBack save load a) (g : ν → μ) :
    LoadsBack (save >>= fun n => pure (g n)) load a := by
  intro channel m channel' hSave
  obtain ⟨n, between, hFirst, hPure⟩ := Save.bind_eq_some.mp hSave
  obtain rfl : between = channel' := congrArg Prod.snd hPure
  exact h _ _ _ hFirst

/-- What is made of the value, without reading on. -/
theorem LoadsBack.then_pure {g : α → Reader UInt8 β} {b : β} (h : LoadsBack save load a)
    (hg : g a = pure b) : LoadsBack save (load >>= g) b := by
  intro channel n channel' hSave
  obtain ⟨bytes, hBytes, hReads⟩ := h _ _ _ hSave
  exact ⟨bytes, hBytes, hReads.then_pure hg⟩

/-- A single write, read in one go. -/
theorem loadsBack_of_reads {rio : Rio σ} {p : Bytes} (h : Reads load p a) :
    LoadsBack (rdbWriteRaw rio p) load a := by
  intro channel n channel' hSave
  refine ⟨p, ?_, h⟩
  have hWrites : (rdbWriteRaw rio p channel).2.writes = channel.writes ++ [p] := rfl
  rw [hSave] at hWrites
  rw [hWrites, List.flatten_append, List.flatten_singleton]

end Rules

/-- The bit patterns of `rdb.h` that keep lengths, numbers and compressed
strings apart. -/
structure Format.Sound (format : Format) : Prop where
  sixBitLen_lt : format.sixBitLen < 4
  fourteenBitLen_lt : format.fourteenBitLen < 4
  encVal_lt : format.encVal < 4
  six_ne_fourteen : format.sixBitLen ≠ format.fourteenBitLen
  encVal_ne_six : format.encVal ≠ format.sixBitLen
  encVal_ne_fourteen : format.encVal ≠ format.fourteenBitLen
  wide : ∀ b, b = format.thirtyTwoBitLen ∨ b = format.sixtyFourBitLen →
    (b.toNat &&& 0xC0) >>> 6 ≠ format.sixBitLen ∧
      (b.toNat &&& 0xC0) >>> 6 ≠ format.fourteenBitLen ∧ (b.toNat &&& 0xC0) >>> 6 ≠ format.encVal
  thirtyTwo_ne_sixtyFour : format.thirtyTwoBitLen ≠ format.sixtyFourBitLen
  encs_lt : ∀ enc ∈ [format.encInt8, format.encInt16, format.encInt32, format.encLzf], enc < 64
  encs_nodup : [format.encInt8, format.encInt16, format.encInt32, format.encLzf].Nodup

/-- A byte of two bits and six bits. -/
theorem packed_bits {kind n : Nat} (hKind : kind < 4) (hn : n < 64) :
    ((UInt8.ofNat (n ||| (kind <<< 6))).toNat &&& 0xC0) >>> 6 = kind ∧
      (UInt8.ofNat (n ||| (kind <<< 6))).toNat &&& 0x3F = n := by
  have hAll : ∀ k : Fin 4, ∀ m : Fin 64,
      ((UInt8.ofNat (m.val ||| (k.val <<< 6))).toNat &&& 0xC0) >>> 6 = k.val ∧
        (UInt8.ofNat (m.val ||| (k.val <<< 6))).toNat &&& 0x3F = m.val := by decide +kernel
  exact hAll ⟨kind, hKind⟩ ⟨n, hn⟩

/-- What is known of the functions of other files: numbers are written in the
only way that is read as a number, what was compressed is decompressed to what
it was, and there is memory enough. -/
structure LoadServer.Sound (server : LoadServer) : Prop where
  format : server.format.Sound
  ll2string_string2ll : ∀ s value, server.string2ll s = some value → server.ll2string value = s
  length_ll2string : ∀ value, (server.ll2string value).length < 32
  length_lzfCompress : ∀ s limit data, server.lzfCompress s limit = some data → data.length ≤ limit
  lzfDecompress_lzfCompress : ∀ s limit data, server.lzfCompress s limit = some data →
    server.lzfDecompress data s.length = some s
  length_lzfDecompress : ∀ data size s, server.lzfDecompress data size = some s → s.length = size
  canAllocate : ∀ n, server.canAllocate n = true

section Strings

variable {σ : Type} {server : LoadServer} {rio : Rio σ}

/-- A short length shares its byte with its kind. -/
theorem reads_sixBits {kind n : Nat} (hKind : kind < 4) (hn : n < 64) (isencoded : Bool)
    (hFlag : if isencoded then kind = server.format.encVal
      else kind = server.format.sixBitLen ∧ kind ≠ server.format.encVal) :
    Reads (rdbLoadLenByRef server) [UInt8.ofNat (n ||| (kind <<< 6))] (some (isencoded, n)) := by
  obtain ⟨hHigh, hLow⟩ := packed_bits hKind hn
  refine (reads_next (UInt8.ofNat (n ||| (kind <<< 6)))).then_pure ?_
  simp only [hHigh, hLow]
  cases isencoded with
  | true => rw [if_pos (by exact hFlag)]
  | false =>
      have hSix : kind = server.format.sixBitLen ∧ kind ≠ server.format.encVal := hFlag
      rw [if_neg hSix.2, if_pos hSix.1]

/-- A length in the six bits of the first byte and in the second. -/
theorem reads_fourteenBits (hFormat : server.format.Sound) {len : Nat} (hLen : len < 2 ^ 14) :
    Reads (rdbLoadLenByRef server)
      [UInt8.ofNat (((len >>> 8) &&& 0xFF) ||| (server.format.fourteenBitLen <<< 6)),
        UInt8.ofNat (len &&& 0xFF)] (some (false, len)) := by
  have hMask : (0xFF : Nat) = 2 ^ 8 - 1 := rfl
  have hHighByte : (len >>> 8) &&& 0xFF = len / 256 := by
    rw [hMask, Nat.and_two_pow_sub_one_eq_mod, Nat.shiftRight_eq_div_pow]
    omega
  have hLowByte : (UInt8.ofNat (len &&& 0xFF)).toNat = len % 256 := by
    rw [hMask, Nat.and_two_pow_sub_one_eq_mod]
    exact UInt8.toNat_ofNat_of_lt' (Nat.mod_lt len (by decide))
  obtain ⟨hKind, hSix⟩ := packed_bits hFormat.fourteenBitLen_lt (show len / 256 < 64 by omega)
  rw [hHighByte]
  refine (reads_next (UInt8.ofNat (len / 256 ||| (server.format.fourteenBitLen <<< 6)))).bind ?_
  simp only [hKind, hSix]
  rw [if_neg hFormat.encVal_ne_fourteen.symm, if_neg hFormat.six_ne_fourteen.symm,
    if_pos trivial]
  refine (reads_next (UInt8.ofNat (len &&& 0xFF))).then_pure ?_
  have hJoined : (len / 256) <<< 8 ||| (UInt8.ofNat (len &&& 0xFF)).toNat = len := by
    rw [hLowByte, ← Nat.shiftLeft_add_eq_or_of_lt (Nat.mod_lt len (by decide)),
      Nat.shiftLeft_eq]
    omega
  simp only [hJoined]

/-- The lengths of four and of eight bytes, after the byte that announces them. -/
theorem reads_bigEndian {width len : Nat} (hLen : len < 256 ^ width) :
    Reads (take width >>= fun
      | none => pure none
      | some bytes => pure (some (false, ofBigEndian bytes))) (bigEndian width len)
        (some (false, len)) := by
  have hTake := reads_take (bigEndian width len)
  rw [length_bigEndian] at hTake
  refine hTake.then_pure ?_
  simp only [ofBigEndian_bigEndian hLen]

/-- Every length that can be written is read, with the flag for an encoding
unset. -/
theorem loadsBack_rdbSaveLen (hFormat : server.format.Sound) {len : Nat} (hLen : len < 2 ^ 64) :
    LoadsBack (rdbSaveLen server.toServer rio len) (rdbLoadLenByRef server)
      (some (false, len)) := by
  rw [rdbSaveLen]
  split_ifs with hSix hFourteen hThirtyTwo
  · have hByte : len &&& 0xFF = len := by
      rw [show (0xFF : Nat) = 2 ^ 8 - 1 from rfl, Nat.and_two_pow_sub_one_eq_mod]
      omega
    rw [hByte]
    exact loadsBack_of_reads
      (reads_sixBits hFormat.sixBitLen_lt hSix false ⟨rfl, hFormat.encVal_ne_six.symm⟩)
  · exact loadsBack_of_reads (reads_fourteenBits hFormat hFourteen)
  · obtain ⟨hNotSix, hNotFourteen, hNotEnc⟩ := hFormat.wide _ (Or.inl rfl)
    refine (loadsBack_of_reads (reads_next server.format.thirtyTwoBitLen)).bind fun _ => ?_
    simp only [if_neg hNotSix, if_neg hNotFourteen, if_neg hNotEnc, if_true]
    exact (loadsBack_of_reads (reads_bigEndian (by omega))).counted fun _ => 1 + 4
  · obtain ⟨hNotSix, hNotFourteen, hNotEnc⟩ := hFormat.wide _ (Or.inr rfl)
    refine (loadsBack_of_reads (reads_next server.format.sixtyFourBitLen)).bind fun _ => ?_
    simp only [if_neg hNotSix, if_neg hNotFourteen, if_neg hNotEnc,
      if_neg hFormat.thirtyTwo_ne_sixtyFour.symm, if_true]
    exact (loadsBack_of_reads (reads_bigEndian hLen)).counted fun _ => 1 + 8

theorem loadsBack_rdbLoadLen (hFormat : server.format.Sound) {len : Nat} (hLen : len < 2 ^ 64) :
    LoadsBack (rdbSaveLen server.toServer rio len) (rdbLoadLen server) (false, len) :=
  (loadsBack_rdbSaveLen hFormat hLen).then_pure rfl

theorem loadsBack_plainLen (hFormat : server.format.Sound) {len : Nat} (hLen : len < 2 ^ 64) :
    LoadsBack (rdbSaveLen server.toServer rio len) (rdbLoadPlainLen server) len :=
  (loadsBack_rdbLoadLen hFormat hLen).then_pure rfl

/-- A length other than the one that stands for an error. -/
theorem loadsBack_demandLen (hFormat : server.format.Sound) {len : Nat} (hLen : len < lenErr) :
    LoadsBack (rdbSaveLen server.toServer rio len) (rdbDemandLen server) len :=
  (loadsBack_plainLen hFormat (hLen.trans (by decide))).then_pure (if_neg hLen.ne)

/-- The byte that announces a number or a compressed string. -/
theorem reads_encoded (hFormat : server.format.Sound) {enc : Nat} (hEnc : enc < 64) :
    Reads (rdbLoadLen server) [UInt8.ofNat ((server.format.encVal <<< 6) ||| enc)] (true, enc) := by
  rw [Nat.lor_comm]
  exact (reads_sixBits hFormat.encVal_lt hEnc true rfl).then_pure rfl

/-- A time of any size comes back as its low bytes. -/
theorem loadsBack_lowTime (t : Int) :
    LoadsBack (rdbSaveMillisecondTime rio t) rdbLoadMillisecondTime
      (signed 8 (t % 2 ^ 64).toNat) := by
  have hTake := reads_take (littleEndian 8 (t % 2 ^ 64).toNat)
  rw [length_littleEndian] at hTake
  refine loadsBack_of_reads (hTake.then_pure ?_)
  simp only [ofLittleEndian_littleEndian (show (t % 2 ^ 64).toNat < 256 ^ 8 by omega)]

/-- Times in both directions from the epoch come back. -/
theorem loadsBack_millisecondTime {t : Int} (hLow : -2 ^ 63 ≤ t) (hHigh : t < 2 ^ 63) :
    LoadsBack (rdbSaveMillisecondTime rio t) rdbLoadMillisecondTime t := by
  have hTime : signed 8 (t % 2 ^ 64).toNat = t :=
    signed_toNat (show 0 < 8 by decide) hLow hHigh
  have hBack : LoadsBack (rdbSaveMillisecondTime rio t) rdbLoadMillisecondTime
      (signed 8 (t % 2 ^ 64).toNat) := loadsBack_lowTime t
  rwa [hTime] at hBack

/-- The bytes of a negative number are those of its complement. -/
theorem reads_signed {width : Nat} (hWidth : 0 < width) {value : Int}
    (hLow : -2 ^ (8 * width - 1) ≤ value) (hHigh : value ≤ 2 ^ (8 * width - 1) - 1) :
    Reads (demand width >>= fun enc => pure (server.ll2string (signed width (ofLittleEndian enc))))
      (littleEndian width (value % 2 ^ (8 * width)).toNat) (server.ll2string value) := by
  have hDemand := reads_demand (littleEndian width (value % 2 ^ (8 * width)).toNat)
  rw [length_littleEndian] at hDemand
  have hNat : (2 : Int) ^ (8 * width) = ((256 ^ width : Nat) : Int) := by
    rw [show 256 = 2 ^ 8 from rfl, ← pow_mul]
    push_cast
    rfl
  have hPositive : 0 < 256 ^ width := Nat.pow_pos (by decide)
  have hFits : (value % 2 ^ (8 * width)).toNat < 256 ^ width := by
    rw [hNat]
    omega
  refine hDemand.then_pure ?_
  rw [ofLittleEndian_littleEndian hFits, signed_toNat hWidth hLow (by omega)]

/-- A number after the byte with its encoding. -/
theorem reads_number (hFormat : server.format.Sound) {enc width : Nat}
    (hEnc : enc = server.format.encInt8 ∨ enc = server.format.encInt16 ∨
      enc = server.format.encInt32)
    (hLoad : rdbLoadIntegerObject server enc =
      (demand width >>= fun bytes => pure (server.ll2string (signed width (ofLittleEndian bytes)))))
    (hWidth : 0 < width) {value : Int} (hLow : -2 ^ (8 * width - 1) ≤ value)
    (hHigh : value ≤ 2 ^ (8 * width - 1) - 1) :
    Reads (rdbGenericLoadStringObject server)
      (UInt8.ofNat ((server.format.encVal <<< 6) ||| enc) ::
        littleEndian width (value % 2 ^ (8 * width)).toNat) (server.ll2string value) := by
  have hSmall : enc < 64 := by
    have hAll := hFormat.encs_lt
    simp only [List.forall_mem_cons] at hAll
    rcases hEnc with rfl | rfl | rfl
    · exact hAll.1
    · exact hAll.2.1
    · exact hAll.2.2.1
  have hErr : enc ≠ lenErr := by
    rw [lenErr]
    omega
  rw [← List.singleton_append]
  refine (reads_encoded hFormat hSmall).bind ?_
  simp only [if_neg hErr, if_true, if_pos hEnc]
  rw [hLoad]
  exact reads_signed hWidth hLow hHigh

/-- A string that is written as a number is read as its digits. -/
theorem reads_encodeInteger (hFormat : server.format.Sound) {value : Int} {buf : Bytes}
    (h : rdbEncodeInteger server.toServer value = some buf) :
    Reads (rdbGenericLoadStringObject server) buf (server.ll2string value) := by
  have hCodes := hFormat.encs_nodup
  simp only [List.nodup_cons, List.mem_cons, List.not_mem_nil, or_false, not_or] at hCodes
  obtain ⟨⟨hEightSixteen, hEightThirtyTwo, _⟩, ⟨hSixteenThirtyTwo, _⟩, _⟩ := hCodes
  rw [rdbEncodeInteger] at h
  split_ifs at h with hOne hTwo hFour
  · obtain rfl := Option.some.inj h
    refine reads_number hFormat (Or.inl rfl) ?_ (show 0 < 1 by decide) hOne.1 hOne.2
    rw [rdbLoadIntegerObject, if_pos rfl]
  · obtain rfl := Option.some.inj h
    refine reads_number hFormat (Or.inr (Or.inl rfl)) ?_ (show 0 < 2 by decide) hTwo.1
      hTwo.2
    rw [rdbLoadIntegerObject, if_neg (Ne.symm hEightSixteen), if_pos rfl]
  · obtain rfl := Option.some.inj h
    refine reads_number hFormat (Or.inr (Or.inr rfl)) ?_ (show 0 < 4 by decide) hFour.1
      hFour.2
    rw [rdbLoadIntegerObject, if_neg (Ne.symm hEightThirtyTwo), if_neg (Ne.symm hSixteenThirtyTwo),
      if_pos rfl]

/-- A string as it is, with its length. -/
theorem loadsBack_verbatim (hServer : server.Sound) {s : Bytes} (hLen : s.length < lenErr) :
    LoadsBack (rdbSaveVerbatim server.toServer rio s) (rdbGenericLoadStringObject server) s := by
  refine (loadsBack_rdbLoadLen hServer.format (hLen.trans (by decide))).bind fun n => ?_
  simp only [if_neg hLen.ne, Bool.false_eq_true, if_false, if_pos (hServer.canAllocate s.length)]
  split_ifs with hPositive
  · exact (loadsBack_of_reads (reads_demand s)).counted fun _ => n + s.length
  · rw [List.eq_nil_of_length_eq_zero (Nat.eq_zero_of_not_pos hPositive)]
    exact loadsBack_pure n []

/-- A compressed string, if it can be decompressed to what it was. -/
theorem loadsBack_lzfBlob (hServer : server.Sound) {data s : Bytes} {size : Nat}
    (hData : data.length < lenErr) (hSize : size < lenErr)
    (hBack : server.lzfDecompress data size = some s) :
    LoadsBack (rdbSaveLzfBlob server.toServer rio data size)
      (rdbGenericLoadStringObject server) s := by
  have hCodes := hServer.format.encs_nodup
  have hSmall := hServer.format.encs_lt
  simp only [List.nodup_cons, List.mem_cons, List.not_mem_nil, or_false, not_or] at hCodes
  simp only [List.forall_mem_cons] at hSmall
  obtain ⟨⟨_, _, hEight⟩, ⟨_, hSixteen⟩, hThirtyTwo, _⟩ := hCodes
  have hErr : server.format.encLzf ≠ lenErr := by
    rw [lenErr]
    omega
  have hNumber : ¬ (server.format.encLzf = server.format.encInt8 ∨
      server.format.encLzf = server.format.encInt16 ∨
      server.format.encLzf = server.format.encInt32) := by
    rintro (h | h | h)
    · exact hEight h.symm
    · exact hSixteen h.symm
    · exact hThirtyTwo h.symm
  refine (loadsBack_of_reads (reads_encoded hServer.format hSmall.2.2.2.1)).bind fun byte => ?_
  simp only [if_neg hErr, if_true, if_neg hNumber, rdbLoadLzfStringObject]
  refine (loadsBack_demandLen hServer.format hData).bind fun compressed => ?_
  refine (loadsBack_demandLen hServer.format hSize).bind fun original => ?_
  rw [if_pos ⟨hServer.canAllocate data.length, hServer.canAllocate size⟩]
  refine LoadsBack.counted ((loadsBack_of_reads (reads_demand data)).then_pure ?_)
    fun blob => byte + compressed + original + blob
  rw [hBack]

/-- To write a compressed string takes bytes, so it is not tried again as
it is. -/
theorem rdbSaveLzfBlob_pos {data : Bytes} {size n : Nat} {channel channel' : Channel σ}
    (h : rdbSaveLzfBlob server.toServer rio data size channel = (some n, channel')) : 0 < n := by
  obtain ⟨byte, between, hByte, hRest⟩ := Save.bind_eq_some.mp h
  obtain ⟨compressed, _, _, hRest⟩ := Save.bind_eq_some.mp hRest
  obtain ⟨original, _, _, hRest⟩ := Save.bind_eq_some.mp hRest
  obtain ⟨blob, _, _, hPure⟩ := Save.bind_eq_some.mp hRest
  have hOne : byte = 1 := by
    rw [rdbWriteRaw] at hByte
    split at hByte
    split_ifs at hByte
    · exact (Option.some.inj (congrArg Prod.fst hByte)).symm
    · cases hByte
  have hSum : byte + compressed + original + blob = n :=
    Option.some.inj (congrArg Prod.fst hPure)
  omega

/-- Compression, if it helps, and the plain string otherwise. -/
theorem loadsBack_compressed (hServer : server.Sound) {s : Bytes} (hLen : s.length < lenErr) :
    LoadsBack (rdbSaveLzfStringObject server.toServer rio s >>= fun n =>
        if 0 < n then pure n else rdbSaveVerbatim server.toServer rio s)
      (rdbGenericLoadStringObject server) s := by
  intro channel n channel' h
  obtain ⟨written, between, hLzf, hRest⟩ := Save.bind_eq_some.mp h
  have hPlain : (pure 0 : Save σ Nat) channel = (some written, between) →
      ∃ bytes, channel'.writes.flatten = channel.writes.flatten ++ bytes ∧
        Reads (rdbGenericLoadStringObject server) bytes s := by
    intro hPure
    cases hPure
    exact loadsBack_verbatim hServer hLen _ _ _ hRest
  rw [rdbSaveLzfStringObject] at hLzf
  split_ifs at hLzf with hShort
  · exact hPlain hLzf
  · cases hCompressed : server.lzfCompress s (s.length - 4) with
    | none =>
        rw [hCompressed] at hLzf
        exact hPlain hLzf
    | some data =>
        rw [hCompressed] at hLzf
        rw [if_pos (rdbSaveLzfBlob_pos hLzf)] at hRest
        cases hRest
        have hData := hServer.length_lzfCompress _ _ _ hCompressed
        exact loadsBack_lzfBlob hServer (by omega) hLen
          (hServer.lzfDecompress_lzfCompress _ _ _ hCompressed) _ _ _ hLzf

/-- A string is read as what it was, whichever form was chosen for it. -/
theorem loadsBack_rawString (hServer : server.Sound) {s : Bytes} (hLen : s.length < lenErr) :
    LoadsBack (rdbSaveRawString server.toServer rio s) (rdbGenericLoadStringObject server) s := by
  rw [rdbSaveRawString]
  cases hEncoded : if s.length ≤ 11 then rdbTryIntegerEncoding server.toServer s else none with
  | none =>
      dsimp only
      split_ifs
      · exact loadsBack_compressed hServer hLen
      · exact loadsBack_verbatim hServer hLen
  | some buf =>
      split_ifs at hEncoded
      obtain ⟨value, hValue, hBuf⟩ := Option.bind_eq_some_iff.mp hEncoded
      have hReads := reads_encodeInteger hServer.format hBuf
      rw [hServer.ll2string_string2ll s value hValue] at hReads
      exact loadsBack_of_reads hReads

/-- A number that is held as such is read as its digits. -/
theorem loadsBack_longLong (hServer : server.Sound) (value : Int) :
    LoadsBack (rdbSaveLongLongAsStringObject server.toServer rio value)
      (rdbGenericLoadStringObject server) (server.ll2string value) := by
  rw [rdbSaveLongLongAsStringObject]
  cases hEncoded : rdbEncodeInteger server.toServer value with
  | some buf => exact loadsBack_of_reads (reads_encodeInteger hServer.format hEncoded)
  | none =>
      have hShort := hServer.length_ll2string value
      have hLen : (server.ll2string value).length < lenErr := by
        rw [lenErr]
        omega
      refine (loadsBack_rdbLoadLen hServer.format (hLen.trans (by decide))).bind fun n => ?_
      simp only [if_neg hLen.ne, Bool.false_eq_true, if_false,
        if_pos (hServer.canAllocate (server.ll2string value).length)]
      split_ifs with hPositive
      · exact (loadsBack_of_reads (reads_demand _)).counted fun text => n + text
      · rw [List.eq_nil_of_length_eq_zero (Nat.eq_zero_of_not_pos hPositive)]
        exact (loadsBack_of_reads (reads_pure [])).counted fun text => n + text

end Strings

end Redis
