import DoubleSwap.Analyser.Merge

/-! The slot table and the translation of guest frames. `get_hgpte` reads at
most three slots; `process_data_file` rewrites the first field of every guest
record into `temp_data.txt`, which keeps what was written before an exception. -/
namespace Analyser

open Text

/-- A `HostGuestPte`. Its fields are of type `c_ulong`. -/
structure HostGuestPte where
  userspaceAddr : Nat
  guestPhysAddr : Nat
  size : Nat
  addr : Nat
  deriving DecidableEq, Repr

/-- Assignment to a `c_ulong` field, which takes the integer modulo `2 ^ 64`. -/
def cUlong (z : Int) : Nat := (z % 2 ^ 64).toNat

/-- The slot of a line, with `none` for a line of fewer than four tokens. -/
def parseSlot (line : Text) : Except PyError (Option HostGuestPte) :=
  match words line with
  | t0 :: t1 :: t2 :: t3 :: _ => do
      let userspaceAddr ← int t0
      let guestPhysAddr ← int t1
      let size ← int t2
      let addr ← int t3
      return some ⟨cUlong userspaceAddr, cUlong guestPhysAddr, cUlong size, cUlong addr⟩
  | _ => return none

/-- The reading loop of `get_hgpte`. The line after the third slot ends it;
without such a line the end of the file has to be reached. -/
def readSlots (decodes : Bool) (entries : List HostGuestPte) :
    List Text → Except PyError (List HostGuestPte)
  | [] => if decodes then .ok entries else .error .unicodeDecode
  | line :: lines =>
      if 3 ≤ entries.length then .ok entries
      else do
        match ← parseSlot line with
        | none => readSlots decodes entries lines
        | some entry => readSlots decodes (entries ++ [entry]) lines

/-- `entries.sort(key=lambda x: x.guest_phys_addr, reverse=True)`, which keeps
the order of entries with equal keys. -/
def sortSlots (entries : List HostGuestPte) : List HostGuestPte :=
  StableSort.sortBy (fun entry => OrderDual.toDual entry.guestPhysAddr) entries

/-- `get_hgpte`: the linked list, empty for `None`, and what is printed. -/
def getHgpte (file : Option TextFile) : List HostGuestPte × List Message :=
  match file with
  | none => ([], [.failedToOpen .hgfile])
  | some file =>
      match readSlots file.decodes [] file.lines with
      | .error error => ([], [.errorOccurred .hgfile error])
      | .ok entries => (sortSlots entries, [])

/-- The local variables of the translating loop. `newPfn` is unbound before
the first frame for which a slot is found, and keeps its value afterwards. -/
structure Translator where
  newPfn : Option Int
  outfile : List Text
  deriving DecidableEq, Repr

def Translator.start : Translator := ⟨none, []⟩

/-- The walk along the linked list: the first slot that starts at or below the
frame. The size of the slot is not looked at. -/
def lookupSlot (hgpte : List HostGuestPte) (pfnValue : Int) : Option Int :=
  (hgpte.find? fun slot => (slot.guestPhysAddr : Int) ≤ pfnValue).map
    fun slot => slot.userspaceAddr + (pfnValue - slot.guestPhysAddr)

/-- `f"{new_pfn} " + " ".join(tokens[1:]) + "\n"`. -/
def translatedLine (newPfn : Int) (rest : List Text) : Text :=
  intText newPfn ++ ' ' :: (joinWords rest ++ ['\n'])

/-- One iteration of the translating loop. -/
def translateLine (hgpte : List HostGuestPte) (state : Translator) (line : Text) :
    Except PyError Translator :=
  match words line with
  | [] => .ok state
  | t0 :: rest => do
      let pfn ← int t0
      match (lookupSlot hgpte (pfn * 4096)).or state.newPfn with
      | none => .error .unboundLocal
      | some newPfn =>
          return ⟨some newPfn, state.outfile ++ [translatedLine newPfn rest]⟩

/-- The translating loop, with the exception that ended it, if any. -/
def translateLines (hgpte : List HostGuestPte) (state : Translator) :
    List Text → Translator × Option PyError
  | [] => (state, none)
  | line :: lines =>
      match translateLine hgpte state line with
      | .error error => (state, some error)
      | .ok next => translateLines hgpte next lines

/-- What a call of `process_data_file` leaves behind. -/
structure Translation where
  tempData : Option TextFile
  printed : List Message
  deriving DecidableEq, Repr

/-- `process_data_file`. -/
def processDataFile (dir : DataDir) : Translation :=
  match getHgpte dir.hgfile with
  | ([], printed) => ⟨dir.tempData, printed ++ [.hgpteNotInitialized]⟩
  | (hgpte, printed) =>
      match dir.guestData with
      | none => ⟨dir.tempData, printed ++ [.failedToOpen .guestData]⟩
      | some file =>
          match translateLines hgpte .start file.lines with
          | (state, some error) =>
              ⟨some ⟨state.outfile, true⟩, printed ++ [.errorOccurred .guestData error]⟩
          | (state, none) =>
              ⟨some ⟨state.outfile, true⟩,
                if file.decodes then printed
                else printed ++ [.errorOccurred .guestData .unicodeDecode]⟩

/-- The whole of the guest log was translated. Every other way through
`process_data_file` prints a message. -/
def Translation.whole (translation : Translation) : Bool := translation.printed.isEmpty

/-- The directory in which the next stage runs. -/
def DataDir.afterTranslation (dir : DataDir) : DataDir :=
  { dir with tempData := (processDataFile dir).tempData }

/-- The two calls at the end of the script. -/
def driver (dir : DataDir) : MergeOutcome := mergeAndSortFiles dir.afterTranslation

end Analyser
