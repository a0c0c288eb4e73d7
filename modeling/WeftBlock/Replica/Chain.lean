import WeftBlock.Replica.Replica
import WeftBlock.Replica.RemoveIndex
import WeftBlock.Lib.Forest

/-!
# Chains and read-only opens

A disk names its parent, and following the parents from a disk to the empty name
gives its chain. `Chain()` computes it by a loop with no bound of its own, so the
model gives it one step per record it could visit and one more to notice that it
does not end; `IsChain` is the relation the loop computes. Opening a snapshot
read-only opens the files of its chain, and what it then reads is what shows
through them.
-/

namespace WeftBlock

open Layers Forest

/-- Following the parents from a disk to the empty name visits `l`. -/
inductive IsChain (m : String → Option Disk) : String → List String → Prop
  | nil : IsChain m "" []
  | cons {name : String} {disk : Disk} {l : List String} : name ≠ "" → m name = some disk →
      IsChain m disk.parent l → IsChain m name (name :: l)

/-- The loop of `Chain()` from `cur`. -/
def chainFrom (diskData : AList (fun _ : String => Disk)) :
    Nat → String → Except ReplicaErr (List String)
  | 0, cur => if cur = "" then .ok [] else .error (.endless cur)
  | fuel + 1, cur =>
    if cur = "" then .ok []
    else
      match diskData.lookup cur with
      | none => .error (.noMetadata cur)
      | some disk => (chainFrom diskData fuel disk.parent).map (cur :: ·)

/-- `Chain()` of the disk `head`. -/
def chain (diskData : AList (fun _ : String => Disk)) (head : String) :
    Except ReplicaErr (List String) :=
  chainFrom diskData (diskData.entries.length + 1) head

/-- `addChildDisk`. -/
def addChildDisk (children : AList (fun _ : String => Finset String)) (parent child : String) :
    AList (fun _ : String => Finset String) :=
  children.insert parent (insert child ((children.lookup parent).getD ∅))

/-- `rmChildDisk`. -/
def rmChildDisk (children : AList (fun _ : String => Finset String)) (parent child : String) :
    AList (fun _ : String => Finset String) :=
  match children.lookup parent with
  | none => children
  | some s =>
    if child ∈ s then
      if (s.erase child).card = 0 then children.erase parent
      else children.insert parent (s.erase child)
    else children

/-- The children map `readMetadata` builds from the metadata files. -/
def readChildren (metas : AList (fun _ : String => Disk)) :
    AList (fun _ : String => Finset String) :=
  metas.entries.foldl (fun children e =>
    if e.2.parent = "" then children else addChildDisk children e.2.parent e.1) ∅

/-- `openFile`. -/
def Dir.openFile (dir : Dir) (name : String) : Except ReplicaErr Ino :=
  match dir.imgs.lookup name with
  | none => .error (.noFile name)
  | some i => .ok i

/--
`NewReadOnly` on a directory with metadata: read it, open the chain of `head` with
an empty location table, and put the backing file below.
-/
def newReadOnly (dir : Dir) (head : String) (backingFile : Option BackingFile) :
    Except ReplicaErr Replica := do
  let chain ← chain dir.metas head
  if maximumTotalSnapshotCount < chain.length then
    .error (.chainTooLong chain.length)
  else
    let files ← chain.reverse.mapM dir.openFile
    match dir.metas.lookup head with
    | none => .error (.nilDisk head)
    | some disk =>
      .ok {
        dir := dir
        volume := {
          location := List.replicate (dir.volumeMeta.size / volumeSectorSize) 0
          files := 0 :: (backingFile.map BackingFile.disk).toList ++ files
          sectorSize := volumeSectorSize
          size := dir.volumeMeta.size }
        info := { dir.volumeMeta with
          head := head, parent := disk.parent, backingFile := backingFile }
        diskData := backingFile.elim dir.metas
          (fun b => dir.metas.insert b.path ⟨"", false, false, "", none⟩)
        diskChildrenMap := readChildren dir.metas
        activeDiskData := "" :: (backingFile.map BackingFile.path).toList ++ chain.reverse
        readOnly := true
        unmapMarkDiskChainRemoved := false }

/-- The byte at `p` read through the snapshot `name`, if it can be opened. -/
def snapshotByte (dir : Dir) (name : String) (backingFile : Option BackingFile) (p : Nat) :
    Option UInt8 :=
  match newReadOnly dir name backingFile with
  | .error _ => none
  | .ok r => some (r.view.readByte p)

/-! ## Chains -/

variable {x : String} {l : List String}

namespace IsChain

variable {m m' : String → Option Disk} {name : String} {l l' : List String}

/-- A chain is a path of the forest. -/
theorem iff_path : IsChain m name l ↔ Path "" (fun x => (m x).map Disk.parent) name l := by
  constructor
  · intro h
    induction h with
    | nil => exact .nil
    | cons hne hm _ ih => exact .cons hne (Option.map_eq_some_iff.mpr ⟨_, hm, rfl⟩) ih
  · intro h
    induction h with
    | nil => exact .nil
    | cons hne hp _ ih =>
      obtain ⟨d, hd, rfl⟩ := Option.map_eq_some_iff.mp hp
      exact .cons hne hd ih

section

variable (h : IsChain m name l)
include h

theorem unique (h' : IsChain m name l') : l = l' := (iff_path.mp h).unique (iff_path.mp h')

theorem suffix (hx : x ∈ l) :
    ∃ u v, l = u ++ x :: v ∧ IsChain m x (x :: v) := by
  obtain ⟨u, v, rfl, hv⟩ := (iff_path.mp h).suffix hx
  exact ⟨u, v, rfl, iff_path.mpr hv⟩

theorem nodup : l.Nodup := (iff_path.mp h).nodup

theorem mem_isSome (hx : x ∈ l) :
    ∃ disk, m x = some disk := by
  obtain ⟨_, _, _, hv⟩ := h.suffix hx
  cases hv with
  | cons _ hm _ => exact ⟨_, hm⟩

theorem mem_ne_empty (hx : x ∈ l) : x ≠ "" := by
  obtain ⟨_, _, _, hv⟩ := h.suffix hx
  cases hv with
  | cons hne _ _ => exact hne

theorem head_mem (hne : name ≠ "") : ∃ v, l = name :: v := by
  cases h with
  | nil => exact absurd rfl hne
  | cons _ _ _ => exact ⟨_, rfl⟩

theorem congr (hmm : ∀ x ∈ l, m' x = m x) : IsChain m' name l :=
  iff_path.mpr ((iff_path.mp h).congr (fun x hx => congrArg (Option.map Disk.parent) (hmm x hx)))

end

end IsChain

/-- The parent that each record names. -/
def parents (m : AList (fun _ : String => Disk)) : String → Option String :=
  fun x => (m.lookup x).map Disk.parent

section

variable {m : AList (fun _ : String => Disk)}

theorem parents_eq_some {x y : String} :
    parents m x = some y ↔ ∃ d, m.lookup x = some d ∧ d.parent = y :=
  Option.map_eq_some_iff

theorem parents_eq_none :
    parents m x = none ↔ m.lookup x = none :=
  Option.map_eq_none_iff

theorem isChain_iff :
    IsChain (m.lookup ·) x l ↔ Path "" (parents m) x l :=
  IsChain.iff_path

end

variable {name : String}

section Loop

variable {diskData : AList (fun _ : String => Disk)}

variable {l : List String}

section

variable (h : IsChain (diskData.lookup ·) name l)
include h

theorem chainFrom_of_isChain : ∀ {fuel}, l.length ≤ fuel →
      chainFrom diskData fuel name = .ok l := by
  induction h with
  | nil =>
    intro fuel _
    cases fuel with
    | zero => rfl
    | succ fuel => rfl
  | cons hne hm _ ih =>
    intro fuel hf
    cases fuel with
    | zero => simp at hf
    | succ fuel =>
      rw [chainFrom, if_neg hne, hm]
      dsimp only
      rw [ih (by simpa using hf)]
      rfl

/-- A chain without repetition is no longer than the table it runs through. -/
theorem length_le_entries : l.length ≤ diskData.entries.length := by
  have hsub : l ⊆ diskData.keys := by
    intro x hx
    obtain ⟨disk, hd⟩ := h.mem_isSome hx
    exact AList.mem_keys.mpr (AList.lookup_isSome.mp (by rw [hd]; rfl))
  have hle := (h.nodup.subperm hsub).length_le
  rwa [AList.keys, List.keys, List.length_map] at hle

theorem chain_of_isChain : chain diskData name = .ok l :=
  chainFrom_of_isChain h (Nat.le_succ_of_le (length_le_entries h))

end

end Loop

/-! ## What a read-only open shows -/

namespace Dir

/-- The inode of an image. -/
def ino (dir : Dir) (name : String) : Ino := (dir.imgs.lookup name).getD 0

/-- The files of a chain with the backing file below, top first. -/
def stack (dir : Dir) (backingFile : Option BackingFile) (l : List String) : List File :=
  l.map (fun name => dir.data (dir.ino name)) ++ (backingFile.map (fun b => dir.data b.disk)).toList

/-- The byte at `p` that shows through the files of a chain. -/
def showing (dir : Dir) (backingFile : Option BackingFile) (l : List String) (p : Nat) : UInt8 :=
  through (DiffDisk.holds volumeSectorSize p) 0 (dir.stack backingFile l)

theorem mapM_openFile {dir : Dir} : ∀ {l : List String},
    (∀ x ∈ l, ∃ i, dir.imgs.lookup x = some i) →
    l.mapM dir.openFile = .ok (l.map dir.ino)
  | [], _ => rfl
  | x :: l, h => by
    obtain ⟨i, hi⟩ := h x List.mem_cons_self
    have hx : dir.openFile x = .ok i := by rw [openFile, hi]
    rw [List.mapM_cons, hx, mapM_openFile (fun y hy => h y (List.mem_cons_of_mem _ hy)),
      List.map_cons, ino, hi]
    rfl

/-- The volume that is opened on a chain: an empty table over the backing file and the images. -/
def openView (dir : Dir) (backingFile : Option BackingFile) (l : List String) : DiffDisk where
  location := List.replicate (dir.volumeMeta.size / volumeSectorSize) 0
  files := dir.data 0 :: (backingFile.map (fun b => dir.data b.disk)).toList
    ++ l.reverse.map (fun x => dir.data (dir.ino x))
  sectorSize := volumeSectorSize
  size := dir.volumeMeta.size

variable {dir : Dir} {l : List String}

theorem loc_openView (backingFile : Option BackingFile) (s : Nat) :
    (dir.openView backingFile l).loc s = 0 := by
  rw [DiffDisk.loc, openView, List.getD_eq_getElem?_getD, List.getElem?_replicate]
  split <;> rfl

theorem length_openView (dir : Dir) (backingFile : Option BackingFile) (l : List String) :
    (dir.openView backingFile l).files.length
      = 1 + (backingFile.map (fun b => dir.data b.disk)).toList.length + l.length := by
  rw [openView, List.cons_append, List.length_cons, List.length_append, List.length_map,
    List.length_reverse]
  omega

/-- Every index of an opened volume fits a byte of the table. -/
theorem length_openView_le (dir : Dir) (backingFile : Option BackingFile)
    (hlen : l.length ≤ maximumTotalSnapshotCount) :
    (dir.openView backingFile l).files.length ≤ 252 := by
  have hback : (backingFile.map (fun b => dir.data b.disk)).toList.length ≤ 1 := by
    cases backingFile <;> simp
  have h250 : maximumTotalSnapshotCount = 250 := rfl
  rw [length_openView]
  omega

/-- A volume of whole sectors is well formed when it is opened. -/
theorem wf_openView (backingFile : Option BackingFile) (hl : l ≠ [])
    (hlen : l.length ≤ maximumTotalSnapshotCount)
    (hsize : dir.volumeMeta.size % volumeSectorSize = 0) : (dir.openView backingFile l).Wf := by
  have hl1 := List.length_pos_iff.mpr hl
  have hcount := length_openView dir backingFile l
  have hle := length_openView_le dir backingFile hlen
  refine ⟨(by decide : 0 < volumeSectorSize), by omega, by omega, ?_, fun s => ?_⟩
  · show (List.replicate _ _).length * volumeSectorSize = dir.volumeMeta.size
    rw [List.length_replicate]
    exact Nat.div_mul_cancel (Nat.dvd_of_mod_eq_zero hsize)
  · rw [loc_openView, hcount]
    show 0 < _
    omega

end Dir

variable {dir : Dir}

/-- **The read-only open of a chain** that is complete and not too long. -/
theorem newReadOnly_eq (backingFile : Option BackingFile) (hc : IsChain (dir.metas.lookup ·) name l)
    (hne : name ≠ "") (hlen : l.length ≤ maximumTotalSnapshotCount)
    (himgs : ∀ x ∈ l, ∃ i, dir.imgs.lookup x = some i) :
    ∃ ro, newReadOnly dir name backingFile = .ok ro ∧ ro.view = dir.openView backingFile l
      ∧ ro.info.size = dir.volumeMeta.size := by
  obtain ⟨v, hv⟩ := hc.head_mem hne
  obtain ⟨disk, hd⟩ := hc.mem_isSome (x := name) (by rw [hv]; exact List.mem_cons_self)
  have hopen := Dir.mapM_openFile (l := l.reverse) (fun x hx => himgs x (List.mem_reverse.mp hx))
  unfold newReadOnly
  rw [chain_of_isChain hc]
  dsimp only [bind, Except.bind]
  rw [if_neg (Nat.not_lt.mpr hlen), hopen]
  rw [hd]
  refine ⟨_, rfl, ?_, rfl⟩
  rw [Dir.openView, Replica.view, Volume.view]
  cases backingFile <;> simp

/-- **A snapshot that can be opened shows what its chain shows.** -/
theorem snapshotByte_eq {p : Nat} (backingFile : Option BackingFile)
    (hc : IsChain (dir.metas.lookup ·) name l) (hne : name ≠ "")
    (hlen : l.length ≤ maximumTotalSnapshotCount) (himgs : ∀ x ∈ l, ∃ i, dir.imgs.lookup x = some i)
    (hsize : dir.volumeMeta.size % volumeSectorSize = 0) (hp : p < dir.volumeMeta.size) :
    snapshotByte dir name backingFile p = some (dir.showing backingFile l p) := by
  obtain ⟨v, rfl⟩ := hc.head_mem hne
  obtain ⟨ro, hopen, hview, -⟩ := newReadOnly_eq backingFile hc hne hlen himgs
  have hwf : (dir.openView backingFile (name :: v)).Wf :=
    Dir.wf_openView backingFile (List.cons_ne_nil _ _) hlen hsize
  have hex : (dir.openView backingFile (name :: v)).Exact :=
    fun s _ h0 => absurd (Dir.loc_openView backingFile s) h0
  rw [snapshotByte, hopen]
  dsimp only
  rw [hview, DiffDisk.readByte_eq_content hwf hp, DiffDisk.content_eq_visible hwf hex hp,
    DiffDisk.visible_eq_through hwf.sector_pos hwf.two_le, DiffDisk.layers, Dir.showing, Dir.stack]
  congr 2
  rw [Dir.openView, List.cons_append, List.tail_cons, List.reverse_append, List.map_reverse,
    List.reverse_reverse]
  congr 1
  cases backingFile <;> rfl

/-- Following the parents ends where one has lost its metadata. -/
theorem chain_of_dangling {m : AList (fun _ : String => Disk)} {disk : Disk}
    (hne : name ≠ "") (hd : m.lookup name = some disk) (hpne : disk.parent ≠ "")
    (hp : m.lookup disk.parent = none) : chain m name = .error (.noMetadata disk.parent) := by
  have hpos : ∃ n, m.entries.length = n + 1 := by
    have hmem : name ∈ m.keys := AList.mem_keys.mpr (AList.lookup_isSome.mp (by rw [hd]; rfl))
    have : 0 < m.keys.length := List.length_pos_of_mem hmem
    rw [AList.keys, List.keys, List.length_map] at this
    exact ⟨m.entries.length - 1, by omega⟩
  obtain ⟨n, hn⟩ := hpos
  rw [chain, hn, chainFrom, if_neg hne, hd]
  dsimp only
  rw [chainFrom, if_neg hpne, hp]
  rfl

/-- A snapshot whose parent has lost its metadata cannot be opened. -/
theorem snapshotByte_of_dangling {disk : Disk} (backingFile : Option BackingFile) (p : Nat)
    (hne : name ≠ "") (hd : dir.metas.lookup name = some disk) (hpne : disk.parent ≠ "")
    (hp : dir.metas.lookup disk.parent = none) : snapshotByte dir name backingFile p = none := by
  unfold snapshotByte newReadOnly
  rw [chain_of_dangling hne hd hpne hp]
  rfl

end WeftBlock
