import DoubleSwap.Redis.RoundTrip
import DoubleSwap.Redis.SaveFile
import DoubleSwap.Redis.Sequential

/-! What the loop of `rdbLoadRio` makes of one key and of the opcodes before it. -/
namespace Redis

open Reading Reader

/-- A byte that begins a part of a file. -/
inductive Code where
  | opcode (o : Opcode)
  | file (o : FileOpcode)
  | type (t : RdbType)
  deriving DecidableEq, Repr

def FileServer.code (server : FileServer) : Code → UInt8
  | .opcode o => server.format.opcode o
  | .file o => server.fileOpcode o
  | .type t => server.format.type t

/-- All codes are told apart, and the version has a checksum and at most four
digits. -/
structure FileServer.Sound (server : FileServer) : Prop where
  object : server.toObjectServer.Sound
  sequential : server.Sequential
  code_injective : Function.Injective server.code
  version_ge : 5 ≤ server.rdbVersion
  version_lt : server.rdbVersion < 10000
  moduleOpcodeUint_lt : server.moduleOpcodeUint < 2 ^ 31

variable {σ : Type} {server : FileServer} {rio : Rio σ} {flags : LoadFlags} {ld : Loading}

/-- A number without a sign, by its digits. -/
def ofDigits (digits : List Nat) : Nat := digits.foldl (fun n digit => 10 * n + digit) 0

def digitByte (digit : Nat) : UInt8 := UInt8.ofNat (48 + digit)

/-- The digits up to the end are read as they were written. -/
theorem number_digits {digits : List Nat} (hDigits : ∀ digit ∈ digits, digit < 10) :
    ((digits.map digitByte).takeWhile isDigit).foldl (fun n b => 10 * n + (b.toNat - 48)) 0 =
      ofDigits digits := by
  have hByte : ∀ digit < 10, isDigit (digitByte digit) = true ∧
      (digitByte digit).toNat - 48 = digit := by decide
  have hAll : (digits.map digitByte).takeWhile isDigit = digits.map digitByte := by
    rw [List.takeWhile_eq_self_iff]
    intro b hb
    obtain ⟨digit, hDigit, rfl⟩ := List.mem_map.mp hb
    exact (hByte digit (hDigits digit hDigit)).1
  rw [hAll, List.foldl_map, ofDigits]
  refine List.foldl_ext _ _ 0 fun n digit hDigit => ?_
  rw [(hByte digit (hDigits digit hDigit)).2]

/-- A number without sign and leading blanks, cut off at the largest one. -/
theorem strtoll_digits {digit : Nat} {digits : List Nat}
    (hDigits : ∀ d ∈ digit :: digits, d < 10) :
    strtoll ((digit :: digits).map digitByte) =
      min (2 ^ 63 - 1) (ofDigits (digit :: digits) : Int) := by
  have hNumber := number_digits hDigits
  have hFirst : ∀ d < 10,
      (decide (digitByte d = 32 ∨ (9 ≤ digitByte d ∧ digitByte d ≤ 13))) = false ∧
        digitByte d ≠ 45 ∧ digitByte d ≠ 43 := by decide
  obtain ⟨hSpace, hMinus, hPlus⟩ := hFirst digit (hDigits digit List.mem_cons_self)
  rw [← hNumber, strtoll, List.map_cons, List.dropWhile_cons_of_neg (by rw [hSpace]; decide)]
  split
  · next h => exact absurd (List.cons.inj h).1 hMinus
  · next h => exact absurd (List.cons.inj h).1 hPlus
  · rfl

/-- The version is read as it was written. -/
theorem atoi_fourDigits {n : Nat} (h : n < 10000) : atoi (fourDigits n) = n := by
  have hDigits : ∀ d ∈ [n / 1000, n / 100 % 10, n / 10 % 10, n % 10], d < 10 := by
    intro d hd
    simp only [List.mem_cons, List.not_mem_nil, or_false] at hd
    omega
  have hNumber : ofDigits [n / 1000, n / 100 % 10, n / 10 % 10, n % 10] = n := by
    simp only [ofDigits, List.foldl_cons, List.foldl_nil]
    omega
  have hValue : strtoll (fourDigits n) = _ := strtoll_digits hDigits
  rw [hNumber] at hValue
  have hMod : ((n : Int) % 2 ^ 32).toNat = n := by omega
  rw [atoi, hValue, min_eq_right (by omega), asInt, hMod, signed, if_pos (by omega)]

theorem Save.pure_bind {ν μ : Type} (n : ν) (f : ν → Save σ μ) :
    ((pure n : Save σ ν) >>= f) = f n := rfl

/-- Writers can be regrouped: a failure ends all that follows in any case. -/
theorem Save.bind_assoc {ν μ τ : Type} (save : Save σ ν) (f : ν → Save σ μ) (g : μ → Save σ τ) :
    ((save >>= f) >>= g) = save >>= fun n => f n >>= g := by
  funext channel
  rcases h : save channel with ⟨_ | n, between⟩
  · rw [Save.bind_of_none h, Save.bind_of_none (Save.bind_of_none h)]
  · rw [Save.bind_of_some h]
    rcases hNext : f n between with ⟨_ | m, last⟩
    · rw [Save.bind_of_none hNext, Save.bind_of_none ((Save.bind_of_some h).trans hNext)]
    · rw [Save.bind_of_some hNext, Save.bind_of_some ((Save.bind_of_some h).trans hNext)]

/-- What was written between the two states of the channel takes the loader from
one state to the other. -/
def Carries (server : FileServer) (flags : LoadFlags) (channel channel' : Channel σ)
    (ld ld' : Loading) : Prop :=
  ∃ bytes, channel'.writes.flatten = channel.writes.flatten ++ bytes ∧
    Advances (rdbLoadOpcode server flags) bytes ld ld'

/-- Where nothing was written the loader stays where it is. -/
theorem carries_refl (channel : Channel σ) (ld : Loading) :
    Carries server flags channel channel ld ld :=
  ⟨[], (List.append_nil _).symm, advances_refl ld⟩

/-- What is written later takes the loader on from where it has come to. -/
theorem Carries.trans {channel channel' channel'' : Channel σ} {ld ld' ld'' : Loading}
    (hFirst : Carries server flags channel channel' ld ld')
    (hRest : Carries server flags channel' channel'' ld' ld'') :
    Carries server flags channel channel'' ld ld'' := by
  obtain ⟨bytes, hBytes, hAdvances⟩ := hFirst
  obtain ⟨more, hMore, hAdvancesMore⟩ := hRest
  refine ⟨bytes ++ more, ?_, hAdvances.trans hAdvancesMore⟩
  rw [hMore, hBytes, List.append_assoc]

/-- Whatever `save` writes takes the loader from one state to the other. -/
def LoadsOn {ν : Type} (server : FileServer) (flags : LoadFlags) (save : Save σ ν)
    (ld ld' : Loading) : Prop :=
  ∀ channel n channel', save channel = (some n, channel') →
    Carries server flags channel channel' ld ld'

section Rules

variable {ν μ : Type} {save : Save σ ν} {ld' ld'' : Loading}

theorem loadsOn_pure (n : ν) : LoadsOn server flags (pure n : Save σ ν) ld ld := by
  intro channel m channel' h
  obtain rfl : channel = channel' := congrArg Prod.snd h
  exact carries_refl channel ld

/-- One writer after the other, with the state of the loader between them. -/
theorem LoadsOn.bind {f : ν → Save σ μ} (hFirst : LoadsOn server flags save ld ld')
    (hRest : ∀ n, LoadsOn server flags (f n) ld' ld'') :
    LoadsOn server flags (save >>= f) ld ld'' := by
  intro channel m channel' h
  obtain ⟨n, between, hSave, hNext⟩ := Save.bind_eq_some.mp h
  exact (hFirst _ _ _ hSave).trans (hRest n _ _ _ hNext)

theorem LoadsOn.counted (h : LoadsOn server flags save ld ld') (g : ν → μ) :
    LoadsOn server flags (save >>= fun n => pure (g n)) ld ld' :=
  h.bind fun n => loadsOn_pure (g n)

/-- What one round of the loop reads takes the loader a step further. -/
theorem LoadsBack.loadsOn (hServer : server.Sound)
    (h : LoadsBack save (rdbLoadOpcode server flags ld) (.inl ld')) :
    LoadsOn server flags save ld ld' := by
  intro channel n channel' hSave
  obtain ⟨bytes, hBytes, hReads⟩ := h _ _ _ hSave
  exact ⟨bytes, hBytes, Advances.of_reads (consumes_opcode hServer.sequential flags) hReads⟩

/-- The elements of a list, each of which the state takes in. -/
theorem loadsOn_each {α : Type} {f : α → Save σ Nat} (state : List α → Loading)
    (before items : List α)
    (h : ∀ done item rest, before ++ items = done ++ item :: rest →
      LoadsOn server flags (f item) (state done) (state (done ++ [item]))) :
    LoadsOn server flags (Save.each f items) (state before) (state (before ++ items)) := by
  induction items generalizing before with
  | nil =>
      rw [List.append_nil]
      exact loadsOn_pure 0
  | cons item items ih =>
      refine (h before item items rfl).bind fun n => LoadsOn.counted ?_ fun rest => n + rest
      have hRest := ih (before ++ [item]) fun done item' rest hSplit =>
        h done item' rest (by rw [← hSplit, List.append_assoc, List.singleton_append])
      rwa [List.append_assoc, List.singleton_append] at hRest

end Rules

section Opcodes

variable (hServer : server.Sound)

include hServer

/-- Codes are compared by their bytes. -/
theorem code_eq_iff (a b : Code) : server.code a = server.code b ↔ a = b :=
  hServer.code_injective.eq_iff

/-- What follows a code is read as the code tells. -/
theorem loadsOn_code {ν : Type} {save : Nat → Save σ ν} {type : UInt8} {ld ld' : Loading}
    (h : ∀ n, LoadsBack (save n) (rdbLoadTyped server flags type ld) (.inl ld')) :
    LoadsOn server flags (rdbSaveType rio type >>= save) ld ld' := by
  refine LoadsBack.loadsOn hServer ?_
  exact (loadsBack_of_reads (reads_next type)).bind h

/-- A code with what it announces, and then the rest of the file. -/
theorem loadsOn_code_bind {ν μ : Type} {save : Nat → Save σ ν} {rest : Nat → ν → Save σ μ}
    {type : UInt8} {ld ld' ld'' : Loading}
    (h : ∀ n, LoadsBack (save n) (rdbLoadTyped server flags type ld) (.inl ld'))
    (hRest : ∀ n m, LoadsOn server flags (rest n m) ld' ld'') :
    LoadsOn server flags (rdbSaveType rio type >>= fun n => save n >>= rest n) ld ld'' := by
  have hFirst : LoadsOn server flags
      (rdbSaveType rio type >>= fun n => save n >>= fun m => pure (n, m)) ld ld' :=
    loadsOn_code hServer fun n => (h n).counted fun m => (n, m)
  have hBoth := hFirst.bind fun nm => hRest nm.1 nm.2
  simpa only [Save.bind_assoc, Save.pure_bind] using hBoth

/-- The branch of an opcode that stands in a database. -/
theorem typed_opcode (o : Opcode) (ld : Loading) :
    rdbLoadTyped server flags (server.format.opcode o) ld =
      match o with
      | .expireTimeMs => do
          let expiretime ← rdbLoadMillisecondTime
          giveUpIfFailed
          return .inl { ld with expiretime := expiretime }
      | .freq => do
          match ← next with
          | none => fail
          | some byte => return .inl { ld with lfuFreq := byte.toNat }
      | .idle => do
          let qword ← rdbDemandLen server.toLoadServer
          return .inl { ld with lruIdle := signed 8 qword }
      | .selectDb => do
          let dbid ← rdbDemandLen server.toLoadServer
          if server.dbnum ≤ dbid then fail else return .inl { ld with dbid := dbid }
      | .resizeDb => do
          let _ ← rdbDemandLen server.toLoadServer
          let _ ← rdbDemandLen server.toLoadServer
          return .inl ld
      | .slotInfo => do
          let _ ← rdbDemandLen server.toLoadServer
          let _ ← rdbDemandLen server.toLoadServer
          let _ ← rdbDemandLen server.toLoadServer
          return .inl ld := by
  have hOpcode : ∀ a b, server.format.opcode a = server.format.opcode b ↔ a = b := fun a b =>
    (code_eq_iff hServer (.opcode a) (.opcode b)).trans (by simp)
  have hFile : ∀ a b, server.format.opcode a ≠ server.fileOpcode b := fun a b h =>
    absurd ((code_eq_iff hServer (.opcode a) (.file b)).mp h) (by simp)
  simp only [rdbLoadTyped, hOpcode, hFile, if_false]
  cases o <;> rfl

/-- The branch of an opcode that stands outside of the databases. -/
theorem typed_file (o : FileOpcode) (ld : Loading) :
    rdbLoadTyped server flags (server.fileOpcode o) ld =
      match o with
      | .expireTime => do
          let expiretime ← rdbLoadTime
          giveUpIfFailed
          return .inl { ld with expiretime := expiretime * 1000 }
      | .eof => pure (.inr ld)
      | .aux => do
          let ld ← rdbLoadAuxField server ld
          return .inl ld
      | .moduleAux => do
          let ld ← rdbLoadModuleAux server ld
          return .inl ld
      | .functionPreGa => fail
      | .function2 => do
          let ld ← rdbFunctionLoad server flags ld
          return .inl ld := by
  have hOpcode : ∀ a b, server.fileOpcode a ≠ server.format.opcode b := fun a b h =>
    absurd ((code_eq_iff hServer (.file a) (.opcode b)).mp h) (by simp)
  have hFile : ∀ a b, server.fileOpcode a = server.fileOpcode b ↔ a = b := fun a b =>
    (code_eq_iff hServer (.file a) (.file b)).trans (by simp)
  simp only [rdbLoadTyped, hOpcode, hFile, if_false]
  cases o <;> rfl

/-- All other codes are types of values, with a key before the value. -/
theorem typed_type (type : RdbType) (ld : Loading) :
    rdbLoadTyped server flags (server.format.type type) ld = do
      let ld ← rdbLoadKey server flags (server.format.type type) ld
      return .inl ld := by
  have hOpcode : ∀ b, server.format.type type ≠ server.format.opcode b := fun b h =>
    absurd ((code_eq_iff hServer (.type type) (.opcode b)).mp h) (by simp)
  have hFile : ∀ b, server.format.type type ≠ server.fileOpcode b := fun b h =>
    absurd ((code_eq_iff hServer (.type type) (.file b)).mp h) (by simp)
  simp only [rdbLoadTyped, hOpcode, hFile, if_false]

/-- The time of a key is kept for the key that follows. -/
theorem loadsOn_expiretime {expiretime : Int} (hLow : -2 ^ 63 ≤ expiretime)
    (hHigh : expiretime < 2 ^ 63) :
    LoadsOn server flags
      (rdbSaveType rio (server.format.opcode .expireTimeMs) >>= fun _ =>
        rdbSaveMillisecondTime rio expiretime)
      ld { ld with expiretime := expiretime } := by
  refine loadsOn_code hServer fun _ => ?_
  rw [typed_opcode hServer]
  refine (loadsBack_millisecondTime hLow hHigh).then_reads (reads_giveUpIfFailed ?_)
  exact reads_pure _

/-- So is the time since it was last used, in seconds. -/
theorem loadsOn_idle {idle : Nat} (hIdle : idle < 2 ^ 63) :
    LoadsOn server flags
      (rdbSaveType rio (server.format.opcode .idle) >>= fun _ =>
        rdbSaveLen server.toServer rio idle)
      ld { ld with lruIdle := idle } := by
  have hErr : idle < lenErr := hIdle.trans (by decide)
  refine loadsOn_code hServer fun _ => ?_
  rw [typed_opcode hServer]
  refine (loadsBack_demandLen hServer.object.load.format hErr).then_pure ?_
  rw [signed, if_pos hIdle]

/-- And so is the counter of its uses. -/
theorem loadsOn_freq (counter : UInt8) :
    LoadsOn server flags
      (rdbSaveType rio (server.format.opcode .freq) >>= fun _ => rdbWriteRaw rio [counter])
      ld { ld with lfuFreq := counter.toNat } := by
  refine loadsOn_code hServer fun _ => ?_
  rw [typed_opcode hServer]
  exact (loadsBack_of_reads (reads_next counter)).then_pure rfl

end Opcodes

/-- What is told of a key before its type. -/
def saveAttributes (server : Server) (rio : Rio σ) (de : DictEntry) (expiretime : Int) :
    Save σ Nat :=
  (if expiretime ≠ -1 then
    rdbSaveType rio (server.format.opcode .expireTimeMs) >>= fun _ =>
      rdbSaveMillisecondTime rio expiretime
    else pure 0) >>= fun _ =>
  (if server.lruPolicy then
    rdbSaveType rio (server.format.opcode .idle) >>= fun _ =>
      rdbSaveLen server rio (de.idleTime / 1000)
    else pure 0) >>= fun _ =>
  if server.lfuPolicy then
    rdbSaveType rio (server.format.opcode .freq) >>= fun _ => rdbWriteRaw rio [de.lfuCounter]
  else pure 0

/-- A key is saved as its attributes, its type, the key and its value. -/
theorem rdbSaveKeyValuePair_eq (server : Server) (rio : Rio σ) (de : DictEntry)
    (expiretime : Int) :
    rdbSaveKeyValuePair server rio de expiretime =
      saveAttributes server rio de expiretime >>= fun _ =>
      rdbSaveObjectType server rio de.value >>= fun _ =>
        rdbSaveStringObject server rio (.sds de.key) >>= fun _ =>
          rdbSaveObject server rio de.value >>= fun _ => pure 1 := by
  rw [rdbSaveKeyValuePair, saveAttributes]
  dsimp only
  split_ifs <;> simp only [Save.bind_assoc, Save.pure_bind]

/-- Attributes that are not written are those that a key has without them. -/
theorem LoadsOn.orNothing {p : Prop} [Decidable p] {save : Save σ Nat} {ld' : Loading}
    (h : p → LoadsOn server flags save ld ld') (hSame : ¬ p → ld' = ld) :
    LoadsOn server flags (if p then save else pure 0) ld ld' := by
  split_ifs with hp
  · exact h hp
  · rw [hSame hp]
    exact loadsOn_pure 0

/-- The state in which a key is loaded. -/
def Loading.forKey (server : Server) (ld : Loading) (de : DictEntry) : Loading :=
  { ld with
    expiretime := getExpire de
    lruIdle := if server.lruPolicy then ((de.idleTime / 1000 : Nat) : Int) else -1
    lfuFreq := if server.lfuPolicy then (de.lfuCounter.toNat : Int) else -1 }

/-- What holds of a key in memory, for which the server that loads it has memory
too. -/
structure DictEntry.Valid (server : ObjectServer) (de : DictEntry) : Prop where
  value : de.value.Valid server
  fits : de.value.Fits server
  expire_ge : -2 ^ 63 ≤ getExpire de
  expire_lt : getExpire de < 2 ^ 63
  idleTime_lt : de.idleTime < 2 ^ 64
  slot_lt : de.slot < lenErr

section Keys

variable (hServer : server.Sound) {de : DictEntry} (hDe : de.Valid server.toObjectServer)

include hServer hDe

/-- Before a key the attributes are reset, so that those that are written are
those of the key. -/
theorem loadsOn_attributes (hReset : ld.reset = ld) :
    LoadsOn server flags (saveAttributes server.toServer rio de (getExpire de)) ld
      (ld.forKey server.toServer de) := by
  have hExpire : ld.expiretime = -1 := (congrArg Loading.expiretime hReset).symm
  have hIdle : ld.lruIdle = -1 := (congrArg Loading.lruIdle hReset).symm
  have hFreq : ld.lfuFreq = -1 := (congrArg Loading.lfuFreq hReset).symm
  have hSeconds : de.idleTime / 1000 < 2 ^ 63 := by
    have hLt := hDe.idleTime_lt
    omega
  have hTimed : LoadsOn server flags
      (if getExpire de ≠ -1 then
        rdbSaveType rio (server.format.opcode .expireTimeMs) >>= fun _ =>
          rdbSaveMillisecondTime rio (getExpire de)
        else pure 0) ld { ld with expiretime := getExpire de } :=
    .orNothing (fun _ => loadsOn_expiretime hServer hDe.expire_ge hDe.expire_lt) fun h => by
      rw [not_not.mp h, ← hExpire]
  have hAged : LoadsOn server flags
      (if server.lruPolicy then
        rdbSaveType rio (server.format.opcode .idle) >>= fun _ =>
          rdbSaveLen server.toServer rio (de.idleTime / 1000)
        else pure 0) { ld with expiretime := getExpire de }
      { ld with
        expiretime := getExpire de
        lruIdle := if server.lruPolicy then ((de.idleTime / 1000 : Nat) : Int) else -1 } :=
    .orNothing (fun h => by rw [if_pos h]; exact loadsOn_idle hServer hSeconds) fun h => by
      rw [if_neg h, ← hIdle]
  refine hTimed.bind fun _ => hAged.bind fun _ => .orNothing (fun h => ?_) fun h => ?_
  · rw [Loading.forKey, if_pos h]
    exact loadsOn_freq hServer de.lfuCounter
  · rw [Loading.forKey, if_neg h, ← hFreq]

/-- A key with its value, which the state takes in. -/
theorem loadsOn_keyValuePair (hReset : ld.reset = ld) {ld' : Loading}
    (hAdd : (ld.forKey server.toServer de).addKey server flags de.key.bytes
      (some (de.value.value server.toObjectServer)) = some ld') :
    LoadsOn server flags (rdbSaveKeyValuePair server.toServer rio de (getExpire de)) ld ld' := by
  have hKey : LoadsBack (rdbSaveStringObject server.toServer rio (.sds de.key))
      (rdbGenericLoadStringObject server.toLoadServer) de.key.bytes := by
    have hSpace := de.key.inUserSpace
    have hLen : de.key.bytes.length < lenErr := by
      rw [lenErr]
      omega
    exact loadsBack_rawString hServer.object.load hLen
  have hPair : LoadsBack
      (rdbSaveStringObject server.toServer rio (.sds de.key) >>= fun _ =>
        rdbSaveObject server.toServer rio de.value >>= fun _ => pure 1)
      (rdbLoadKey server flags (server.format.type de.value.rdbType) (ld.forKey server.toServer de))
      ld' := by
    refine hKey.bind fun _ => LoadsBack.counted
      ((loadsBack_rdbSaveObject hServer.object hDe.value hDe.fits).then_pure ?_) fun _ => 1
    rw [hAdd]
  rw [rdbSaveKeyValuePair_eq]
  refine (loadsOn_attributes hServer hDe hReset).bind fun _ => loadsOn_code hServer fun _ => ?_
  rw [typed_type hServer]
  exact hPair.then_pure rfl

end Keys

end Redis
