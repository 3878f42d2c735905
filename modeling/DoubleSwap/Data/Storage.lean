import Mathlib.Tactic

/-! Files that survive a power failure, and the rule that a file which is written
under another name, synced and renamed is replaced as a whole. -/
namespace Storage

/-- A file. Once it is synced a power failure leaves its content alone. -/
structure Inode (β : Type) where
  content : List β
  synced : Bool

abbrev Directory (ν : Type) := ν → Option Nat

/-- What the processes see, and what may be on the disk. -/
structure FileSystem (ν β : Type) where
  inodes : Nat → Inode β
  dir : Directory ν
  /-- The directories that a power failure may leave. -/
  versions : List (Directory ν)
  /-- The numbers from here on are free. -/
  free : Nat

namespace FileSystem

variable {ν β : Type} (fs : FileSystem ν β)

def read (name : ν) : Option (List β) := (fs.dir name).map fun i => (fs.inodes i).content

/-- A change of the directory. It is on the disk at some later time. -/
def withDir (dir : Directory ν) : FileSystem ν β :=
  { fs with dir := dir, versions := fs.versions ++ [dir] }

def setInode (i : Nat) (inode : Inode β) : FileSystem ν β :=
  { fs with inodes := Function.update fs.inodes i inode }

def append (i : Nat) (bytes : List β) : FileSystem ν β :=
  if bytes.isEmpty then fs else fs.setInode i ⟨(fs.inodes i).content ++ bytes, false⟩

def sync (i : Nat) : FileSystem ν β := fs.setInode i ⟨(fs.inodes i).content, true⟩

def syncDir : FileSystem ν β := { fs with versions := [fs.dir] }

/-- What is there after a power failure: one of the directories, and of the files
that were not synced whatever was left of them. -/
def powerFailure (version : Directory ν) (left : Nat → List β) : FileSystem ν β where
  inodes i := if (fs.inodes i).synced then fs.inodes i else ⟨left i, true⟩
  dir := version
  versions := [version]
  free := fs.free

variable [DecidableEq ν]

def create (name : ν) : FileSystem ν β :=
  { fs.setInode fs.free ⟨[], false⟩ with free := fs.free + 1 }.withDir
    (Function.update fs.dir name (some fs.free))

/-- Opens a file for writing, which truncates one that is there. -/
def openForWriting (name : ν) : Nat × FileSystem ν β :=
  match fs.dir name with
  | some i => (i, fs.setInode i ⟨[], false⟩)
  | none => (fs.free, fs.create name)

def rename (name target : ν) : FileSystem ν β :=
  fs.withDir (Function.update (Function.update fs.dir target (fs.dir name)) name none)

def unlink (name : ν) : FileSystem ν β := fs.withDir (Function.update fs.dir name none)

end FileSystem

variable {ν β : Type} {fs : FileSystem ν β} {target name : ν}
  {P P' : Option (List β) → Prop}

/-- Whenever the power fails, the content of the target satisfies `P`, and no
process that writes to files with other names can change that. -/
structure Intact (fs : FileSystem ν β) (target : ν) (P : Option (List β) → Prop) : Prop where
  current : fs.dir ∈ fs.versions
  lt_free : ∀ dir ∈ fs.versions, ∀ name i, dir name = some i → i < fs.free
  injective : ∀ dir ∈ fs.versions, ∀ name other i, dir name = some i → dir other = some i →
    name = other
  apart : ∀ name ≠ target, ∀ i, fs.dir name = some i → ∀ dir ∈ fs.versions, dir target ≠ some i
  synced : ∀ dir ∈ fs.versions, ∀ i, dir target = some i → (fs.inodes i).synced = true
  holds : ∀ dir ∈ fs.versions, P ((dir target).map fun i => (fs.inodes i).content)

/-- A weaker promise about the content is kept as well. -/
theorem Intact.mono (h : Intact fs target P) (hMono : ∀ c, P c → P' c) : Intact fs target P' :=
  { h with holds := fun dir hDir => hMono _ (h.holds dir hDir) }

/-- What is promised of every version holds of the present one. -/
theorem Intact.read (h : Intact fs target P) : P (fs.read target) := h.holds fs.dir h.current

theorem dir_append (i : Nat) (bytes : List β) : (fs.append i bytes).dir = fs.dir := by
  rw [FileSystem.append]
  split_ifs <;> rfl

/-- Appended symbols come last. -/
theorem content_append (i : Nat) (bytes : List β) :
    ((fs.append i bytes).inodes i).content = (fs.inodes i).content ++ bytes := by
  rw [FileSystem.append]
  split_ifs with hEmpty
  · rw [List.isEmpty_iff.mp hEmpty, List.append_nil]
  · exact congrArg Inode.content (Function.update_self i (⟨_, false⟩ : Inode β) fs.inodes)

theorem inode_sync (i : Nat) : (fs.sync i).inodes i = ⟨(fs.inodes i).content, true⟩ :=
  Function.update_self i _ _

/-- A file that the target is never linked to may change. -/
theorem Intact.setInode (h : Intact fs target P) {i : Nat}
    (hApart : ∀ dir ∈ fs.versions, dir target ≠ some i) (inode : Inode β) :
    Intact (fs.setInode i inode) target P := by
  have hSame : ∀ dir ∈ fs.versions, ∀ j, dir target = some j →
      (fs.setInode i inode).inodes j = fs.inodes j := by
    intro dir hDir j hj
    apply Function.update_of_ne
    rintro rfl
    exact hApart dir hDir hj
  refine { h with synced := ?_, holds := ?_ }
  · intro dir hDir j hj
    rw [hSame dir hDir j hj]
    exact h.synced dir hDir j hj
  · intro dir hDir
    have hHolds := h.holds dir hDir
    cases hj : dir target with
    | none => rwa [hj] at hHolds
    | some j =>
        rw [hj] at hHolds
        rwa [Option.map_some, hSame dir hDir j hj]

/-- To write to a file under another name leaves the target alone. -/
theorem Intact.append (h : Intact fs target P) (hName : name ≠ target) {i : Nat}
    (hOpen : fs.dir name = some i) (bytes : List β) : Intact (fs.append i bytes) target P := by
  rw [FileSystem.append]
  split_ifs
  · exact h
  · exact h.setInode (h.apart name hName i hOpen) _

/-- So does to sync it. -/
theorem Intact.sync (h : Intact fs target P) (hName : name ≠ target) {i : Nat}
    (hOpen : fs.dir name = some i) : Intact (fs.sync i) target P :=
  h.setInode (h.apart name hName i hOpen) _

/-- A new directory in which the target has its old content, or one that is synced. -/
theorem Intact.withDir (h : Intact fs target P) {dir : Directory ν}
    (hLt : ∀ name i, dir name = some i → i < fs.free)
    (hInjective : ∀ name other i, dir name = some i → dir other = some i → name = other)
    (hApart : ∀ name ≠ target, ∀ i, dir name = some i → ∀ old ∈ fs.versions, old target ≠ some i)
    (hSynced : ∀ i, dir target = some i → (fs.inodes i).synced = true)
    (hHolds : P ((dir target).map fun i => (fs.inodes i).content)) :
    Intact (fs.withDir dir) target P where
  current := List.mem_append_right _ (List.mem_singleton_self dir)
  lt_free old hOld := by
    rcases List.mem_append.mp hOld with hBefore | hNew
    · exact h.lt_free old hBefore
    · obtain rfl := List.mem_singleton.mp hNew
      exact hLt
  injective old hOld := by
    rcases List.mem_append.mp hOld with hBefore | hNew
    · exact h.injective old hBefore
    · obtain rfl := List.mem_singleton.mp hNew
      exact hInjective
  apart name hName i hi old hOld := by
    rcases List.mem_append.mp hOld with hBefore | hNew
    · exact hApart name hName i hi old hBefore
    · obtain rfl := List.mem_singleton.mp hNew
      exact fun hTarget => hName (hInjective name target i hi hTarget)
  synced old hOld := by
    rcases List.mem_append.mp hOld with hBefore | hNew
    · exact h.synced old hBefore
    · obtain rfl := List.mem_singleton.mp hNew
      exact hSynced
  holds old hOld := by
    rcases List.mem_append.mp hOld with hBefore | hNew
    · exact h.holds old hBefore
    · obtain rfl := List.mem_singleton.mp hNew
      exact hHolds

/-- After the directory was synced only what is there now may be on the disk. -/
theorem Intact.syncDir (h : Intact fs target P) (hHolds : P' (fs.read target)) :
    Intact fs.syncDir target P' where
  current := List.mem_singleton_self fs.dir
  lt_free dir hDir := h.lt_free dir (List.mem_singleton.mp hDir ▸ h.current)
  injective dir hDir := h.injective dir (List.mem_singleton.mp hDir ▸ h.current)
  apart name hName i hi dir hDir :=
    h.apart name hName i hi dir (List.mem_singleton.mp hDir ▸ h.current)
  synced dir hDir := h.synced dir (List.mem_singleton.mp hDir ▸ h.current)
  holds dir hDir := by
    obtain rfl := List.mem_singleton.mp hDir
    exact hHolds

/-- After a power failure the target is as some version says, and synced. -/
theorem Intact.powerFailure (h : Intact fs target P) {version : Directory ν}
    (hVersion : version ∈ fs.versions) (left : Nat → List β) :
    Intact (fs.powerFailure version left) target P where
  current := List.mem_singleton_self version
  lt_free dir hDir := h.lt_free dir (List.mem_singleton.mp hDir ▸ hVersion)
  injective dir hDir := h.injective dir (List.mem_singleton.mp hDir ▸ hVersion)
  apart name hName i hi dir hDir hTarget := by
    rw [List.mem_singleton.mp hDir] at hTarget
    exact hName (h.injective version hVersion name target i hi hTarget)
  synced dir hDir i hi := by
    rw [List.mem_singleton.mp hDir] at hi
    show (if (fs.inodes i).synced then fs.inodes i else ⟨left i, true⟩ : Inode β).synced = true
    rw [if_pos (h.synced version hVersion i hi)]
    exact h.synced version hVersion i hi
  holds dir hDir := by
    obtain rfl := List.mem_singleton.mp hDir
    have hHolds := h.holds dir hVersion
    cases hi : dir target with
    | none => rwa [hi] at hHolds
    | some i =>
        rw [hi] at hHolds
        show P (some
          (if (fs.inodes i).synced then fs.inodes i else ⟨left i, true⟩ : Inode β).content)
        rwa [if_pos (h.synced dir hVersion i hi)]

variable [DecidableEq ν]

/-- Another name can go. -/
theorem Intact.unlink (h : Intact fs target P) (hName : name ≠ target) :
    Intact (fs.unlink name) target P := by
  have hOther : ∀ {other i}, Function.update fs.dir name none other = some i →
      fs.dir other = some i := by
    intro other i hi
    rw [Function.update_apply] at hi
    split_ifs at hi
    exact hi
  have hTarget : Function.update fs.dir name none target = fs.dir target :=
    Function.update_of_ne hName.symm _ _
  refine h.withDir ?_ ?_ ?_ ?_ ?_
  · exact fun other i hi => h.lt_free fs.dir h.current other i (hOther hi)
  · exact fun a b i ha hb => h.injective fs.dir h.current a b i (hOther ha) (hOther hb)
  · exact fun other hNe i hi => h.apart other hNe i (hOther hi)
  · exact fun i hi => h.synced fs.dir h.current i (hOther hi)
  · rw [hTarget]
    exact h.holds fs.dir h.current

/-- A synced file takes the place of the target. -/
theorem Intact.rename (h : Intact fs target P) (hName : name ≠ target) {i : Nat}
    (hOpen : fs.dir name = some i) (hSynced : (fs.inodes i).synced = true)
    (hHolds : P (some (fs.inodes i).content)) : Intact (fs.rename name target) target P := by
  have hTarget : Function.update (Function.update fs.dir target (fs.dir name)) name none target =
      some i := by
    rw [Function.update_of_ne hName.symm, Function.update_self, hOpen]
  have hOther : ∀ {other j}, other ≠ target →
      Function.update (Function.update fs.dir target (fs.dir name)) name none other = some j →
      fs.dir other = some j ∧ other ≠ name := by
    intro other j hNe hj
    rw [Function.update_apply, Function.update_apply] at hj
    split_ifs at hj with hSame
    exact ⟨hj, hSame⟩
  have hMoved : ∀ {other j}, other ≠ target →
      Function.update (Function.update fs.dir target (fs.dir name)) name none other = some j →
      j ≠ i := by
    rintro other j hNe hj rfl
    obtain ⟨hOld, hNot⟩ := hOther hNe hj
    exact hNot (h.injective fs.dir h.current other name j hOld hOpen)
  refine h.withDir ?_ ?_ ?_ ?_ ?_
  · intro other j hj
    by_cases hSame : other = target
    · subst hSame
      obtain rfl := Option.some.inj (hTarget.symm.trans hj)
      exact h.lt_free fs.dir h.current name i hOpen
    · exact h.lt_free fs.dir h.current other j (hOther hSame hj).1
  · intro a b j ha hb
    by_cases hA : a = target <;> by_cases hB : b = target
    · rw [hA, hB]
    · subst hA
      obtain rfl := Option.some.inj (hTarget.symm.trans ha)
      exact absurd rfl (hMoved hB hb)
    · subst hB
      obtain rfl := Option.some.inj (hTarget.symm.trans hb)
      exact absurd rfl (hMoved hA ha)
    · exact h.injective fs.dir h.current a b j (hOther hA ha).1 (hOther hB hb).1
  · exact fun other hNe j hj => h.apart other hNe j (hOther hNe hj).1
  · intro j hj
    obtain rfl := Option.some.inj (hTarget.symm.trans hj)
    exact hSynced
  · rw [hTarget]
    exact hHolds

/-- The target is what the other name was. -/
theorem read_rename (hName : name ≠ target) {i : Nat} (hOpen : fs.dir name = some i) :
    (fs.rename name target).read target = some (fs.inodes i).content := by
  show (Function.update (Function.update fs.dir target (fs.dir name)) name none target).map _ = _
  rw [Function.update_of_ne hName.symm, Function.update_self, hOpen]
  rfl

/-- A new file gets another name than the target. -/
theorem Intact.create (h : Intact fs target P) (hName : name ≠ target)
    (hNone : fs.dir name = none) : Intact (fs.create name) target P := by
  have hNew : ∀ dir ∈ fs.versions, ∀ other, dir other ≠ some fs.free := fun dir hDir other hi =>
    Nat.lt_irrefl _ (h.lt_free dir hDir other _ hi)
  have hOther : ∀ {other i}, Function.update fs.dir name (some fs.free) other = some i →
      (other = name ∧ i = fs.free) ∨ fs.dir other = some i := by
    intro other i hi
    rw [Function.update_apply] at hi
    split_ifs at hi with hSame
    · exact Or.inl ⟨hSame, (Option.some.inj hi).symm⟩
    · exact Or.inr hi
  have hTarget : Function.update fs.dir name (some fs.free) target = fs.dir target :=
    Function.update_of_ne hName.symm _ _
  have hSet : Intact (fs.setInode fs.free ⟨[], false⟩) target P :=
    h.setInode (fun dir hDir => hNew dir hDir target) _
  have hGrown : Intact { fs.setInode fs.free ⟨[], false⟩ with free := fs.free + 1 } target P :=
    { hSet with lt_free := fun dir hDir other i hi =>
        Nat.lt_succ_of_lt (h.lt_free dir hDir other i hi) }
  refine hGrown.withDir ?_ ?_ ?_ ?_ ?_
  · intro other i hi
    rcases hOther hi with ⟨_, rfl⟩ | hOld
    · exact Nat.lt_succ_self _
    · exact Nat.lt_succ_of_lt (h.lt_free fs.dir h.current other i hOld)
  · intro a b i ha hb
    rcases hOther ha with ⟨rfl, rfl⟩ | hA <;> rcases hOther hb with ⟨rfl, hi⟩ | hB
    · rfl
    · exact absurd hB (hNew fs.dir h.current b)
    · exact absurd (hi ▸ hA) (hNew fs.dir h.current a)
    · exact h.injective fs.dir h.current a b i hA hB
  · intro other hNe i hi dir hDir
    rcases hOther hi with ⟨_, rfl⟩ | hOld
    · exact hNew dir hDir target
    · exact h.apart other hNe i hOld dir hDir
  · intro i hi
    rw [hTarget] at hi
    exact hGrown.synced fs.dir h.current i hi
  · rw [hTarget]
    exact hGrown.holds fs.dir h.current

/-- Another file may be opened, be it a new one or an old one. -/
theorem Intact.openForWriting (h : Intact fs target P) (hName : name ≠ target) {i : Nat}
    {opened : FileSystem ν β} (hOpen : fs.openForWriting name = (i, opened)) :
    Intact opened target P ∧ opened.dir name = some i ∧ (opened.inodes i).content = [] := by
  rw [FileSystem.openForWriting] at hOpen
  cases hDir : fs.dir name with
  | some j =>
      rw [hDir] at hOpen
      cases hOpen
      have hSelf : (fs.setInode i ⟨[], false⟩).inodes i = ⟨[], false⟩ := Function.update_self i _ _
      refine ⟨h.setInode (h.apart name hName i hDir) _, hDir, ?_⟩
      rw [hSelf]
  | none =>
      rw [hDir] at hOpen
      cases hOpen
      have hSelf : (fs.create name).inodes fs.free = ⟨[], false⟩ := Function.update_self _ _ _
      refine ⟨h.create hName hDir, Function.update_self name _ _, ?_⟩
      rw [hSelf]

end Storage
