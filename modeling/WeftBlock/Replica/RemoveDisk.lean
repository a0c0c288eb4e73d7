import WeftBlock.Replica.Chain
import WeftBlock.Lib.Maps

/-!
# Removing a disk from the tree

`RemoveDiffDisk` of `pkg/replica/replica.go`: unlink the disk from the tree, hand
its child over to its parent, take its file out of the live stack, delete its
files. Nothing of its data is moved anywhere.

What a healthy open replica looks like is `Linked`. On such a replica the removal
is described exactly (`Dropped`), and so is what remains visible: every other
snapshot keeps its content precisely when the disk is a leaf, or has one child
that hides it or agrees with what lies below.
-/

namespace WeftBlock

open Layers Maps Forest

/-- `RemoveIndex` on the open files. -/
def Volume.removeIndex (v : Volume) (index : Nat) : Volume :=
  { v with
    location := v.location.map (DiffDisk.renumber index)
    files := v.files.eraseIdx index }

theorem Volume.view_removeIndex (v : Volume) (data : Ino → File) (index : Nat) :
    (v.removeIndex index).view data = (v.view data).removeIndex index := by
  show DiffDisk.mk _ ((v.files.eraseIdx index).map data) _ _ = DiffDisk.mk _ _ _ _
  rw [← List.eraseIdx_map]
  rfl

variable {l : List String} {disk : Disk}

namespace Replica

/-- `updateChildDisk`, given the parent of the old name. -/
def updateChildDisk (children : AList (fun _ : String => Finset String))
    (parent oldName newName : String) : AList (fun _ : String => Finset String) :=
  let children := rmChildDisk children parent oldName
  if newName = "" then children else addChildDisk children parent newName

/-- The end of `removeDiskNode`: take an active disk out of the live stack. -/
def removeActive (r : Replica) (name : String) : Replica :=
  let index := r.findDisk name
  if index = 0 then r
  else
    { r with
      volume := r.volume.removeIndex index
      info := if r.activeDiskData.length - 2 = index
        then { r.info with parent := ((r.diskData.lookup r.info.head).map Disk.parent).getD "" }
        else r.info
      activeDiskData := r.activeDiskData.eraseIdx index }

/-- The end of `removeDiskNode` asks the head for its parent, and the head has no record. -/
def LostHead (r : Replica) (name : String) : Prop :=
  r.findDisk name ≠ 0 ∧ r.activeDiskData.length - 2 = r.findDisk name
    ∧ r.diskData.lookup r.info.head = none

instance (r : Replica) (name : String) : Decidable (r.LostHead name) :=
  inferInstanceAs (Decidable (_ ∧ _ ∧ _))

/-- `removeDiskNode`; `pick` is the child the range over the children map ends on. -/
def removeDiskNode (pick : Finset String → String) (r : Replica) (name : String) (force : Bool) :
    Replica × Except ReplicaErr Unit :=
  match r.diskData.lookup name, r.diskChildrenMap.lookup name with
  | some disk, none =>
    ({ r with
        diskChildrenMap := updateChildDisk r.diskChildrenMap disk.parent name ""
        diskData := r.diskData.erase name }, .ok ())
  | none, none => (r, .error (.nilDisk name))
  | record, some children =>
    if 1 < children.card ∧ force = false then
      (r, .error (.manyChildren name children.card))
    else
      let child := pick children
      match record, r.diskData.lookup child with
      | none, _ => (r, .error (.nilDisk name))
      | some disk, none =>
        ({ r with
            diskChildrenMap := updateChildDisk r.diskChildrenMap disk.parent name child },
          .error (.nilDisk child))
      | some disk, some childDisk =>
        -- `updateParentDisk`
        let childDisk' := { childDisk with parent := if name = "" then "" else disk.parent }
        let r := { r with
          diskChildrenMap :=
            (updateChildDisk r.diskChildrenMap disk.parent name child).erase name
          diskData := (r.diskData.insert child childDisk').erase name
          dir := { r.dir with
            metas := if r.readOnly then r.dir.metas else r.dir.metas.insert child childDisk' } }
        if r.LostHead name then
          ({ r with volume := r.volume.removeIndex (r.findDisk name) },
            .error (.nilDisk r.info.head))
        else (r.removeActive name, .ok ())

/-- `rmDisk`. -/
def rmDisk (r : Replica) (name : String) : Replica :=
  if name = "" then r
  else { r with dir := { r.dir with imgs := r.dir.imgs.erase name, metas := r.dir.metas.erase name } }

/-- `RemoveDiffDisk`. -/
def removeDiffDisk (pick : Finset String → String) (r : Replica) (name : String) (force : Bool) :
    Replica × Except ReplicaErr Unit :=
  if name = r.info.head then
    (r, .error .activeDisk)
  else
    match r.removeDiskNode pick name force with
    | (r', .error e) => (r', .error e)
    | (r', .ok ()) => (r'.rmDisk name, .ok ())

/-- What a range over a children map can end on. -/
def Picks (pick : Finset String → String) : Prop := ∀ s : Finset String, s.Nonempty → pick s ∈ s

/-! ## How a removal ends -/

/-- There is a record for the name. -/
def Recorded (r : Replica) (name : String) : Prop := (r.diskData.lookup name).isSome = true

instance (r : Replica) (name : String) : Decidable (r.Recorded name) :=
  inferInstanceAs (Decidable (_ = true))

/--
Every record that `removeDiskNode` uses is there: the disk's own, that of the child that
inherits, and that of the head if the disk lies right below it.
-/
def NodeRecorded (pick : Finset String → String) (r : Replica) (name : String) : Prop :=
  r.Recorded name ∧ ∀ children, r.diskChildrenMap.lookup name = some children →
    r.Recorded (pick children) ∧ (r.findDisk name ≠ 0 →
      r.activeDiskData.length - 2 = r.findDisk name → r.info.head ≠ name ∧ r.Recorded r.info.head)

/-- `removeDiskNode` refuses to remove the disk because of its children. -/
def ManyChildren (r : Replica) (name : String) : Prop := 1 < r.childCount name

/-- `r'` is `r` without the leaf `name`. -/
structure Unlinked (r r' : Replica) (name : String) (disk : Disk) : Prop where
  metas : ∀ x, r'.dir.metas.lookup x = if x = name then none else r.dir.metas.lookup x
  diskData : ∀ x, r'.diskData.lookup x = if x = name then none else r.diskData.lookup x
  imgs : ∀ x, r'.dir.imgs.lookup x = if x = name then none else r.dir.imgs.lookup x
  data : r'.dir.data = r.dir.data
  volumeMeta : r'.dir.volumeMeta = r.dir.volumeMeta
  children : r'.diskChildrenMap = rmChildDisk r.diskChildrenMap disk.parent name
  active : r'.activeDiskData = r.activeDiskData
  volume : r'.volume = r.volume
  info : r'.info = r.info
  readOnly : r'.readOnly = r.readOnly
  unmapMark : r'.unmapMarkDiskChainRemoved = r.unmapMarkDiskChainRemoved

/-- `r'` is `r` without the disk `name`, whose only child is handed to its parent. -/
structure Spliced (r r' : Replica) (name child : String) (disk childDisk : Disk) : Prop where
  metas : ∀ x, r'.dir.metas.lookup x = if x = name then none
    else if x = child then some { childDisk with parent := disk.parent } else r.dir.metas.lookup x
  diskData : ∀ x, r'.diskData.lookup x = if x = name then none
    else if x = child then some { childDisk with parent := disk.parent } else r.diskData.lookup x
  imgs : ∀ x, r'.dir.imgs.lookup x = if x = name then none else r.dir.imgs.lookup x
  data : r'.dir.data = r.dir.data
  volumeMeta : r'.dir.volumeMeta = r.dir.volumeMeta
  children : r'.diskChildrenMap
    = (addChildDisk (rmChildDisk r.diskChildrenMap disk.parent name) disk.parent child).erase name
  active : r'.activeDiskData = if r.findDisk name = 0 then r.activeDiskData
    else r.activeDiskData.eraseIdx (r.findDisk name)
  volume : r'.volume = if r.findDisk name = 0 then r.volume else r.volume.removeIndex (r.findDisk name)
  info : r'.info = if r.findDisk name ≠ 0 ∧ r.activeDiskData.length - 2 = r.findDisk name then
      { r.info with parent := ((r'.diskData.lookup r.info.head).map Disk.parent).getD "" }
    else r.info
  readOnly : r'.readOnly = r.readOnly
  unmapMark : r'.unmapMarkDiskChainRemoved = r.unmapMarkDiskChainRemoved

variable {r' : Replica} {x : String} {s : Finset String} {p : Nat} {pick : Finset String → String}
  {m : String → Option Disk} {childDisk : Disk}

section

variable {r : Replica} {name : String}

theorem not_recorded (h : r.diskData.lookup name = none) : ¬ r.Recorded name := by
  rw [Recorded, h]
  exact Bool.false_ne_true

theorem recorded (disk : Disk) (h : r.diskData.lookup name = some disk) : r.Recorded name := by
  rw [Recorded, h]
  rfl

/-- The head's record is missing at the end of `removeDiskNode`. -/
theorem lostHead_iff {child : String} {disk : Disk} (hchild : r.Recorded child)
    (hactive : r'.activeDiskData = r.activeDiskData) (hinfo : r'.info = r.info)
    (hdata : r'.diskData = (r.diskData.insert child disk).erase name) :
    r'.LostHead name ↔ r.findDisk name ≠ 0 ∧ r.activeDiskData.length - 2 = r.findDisk name
      ∧ ¬ (r.info.head ≠ name ∧ r.Recorded r.info.head) := by
  rw [LostHead, findDisk, findDisk, hactive, hinfo, hdata, lookup_erase_eq, lookup_insert_eq]
  refine and_congr_right' (and_congr_right' ?_)
  by_cases hname : r.info.head = name
  · rw [if_pos hname]
    exact iff_of_true rfl (fun h => h.1 hname)
  · rw [if_neg hname]
    by_cases hc : r.info.head = child
    · rw [if_pos hc]
      exact iff_of_false (by simp) (fun h => h ⟨hname, by rw [hc]; exact hchild⟩)
    · rw [if_neg hc, Recorded, Option.isSome_iff_ne_none]
      constructor
      · exact fun h hh => hh.2 h
      · intro h
        by_contra hne
        exact h ⟨hname, hne⟩

end

/-- What the end of `removeDiskNode` leaves alone and what it does to the live stack. -/
theorem removeActive_fields (r : Replica) (name : String) :
    (r.removeActive name).dir = r.dir ∧ (r.removeActive name).diskData = r.diskData
      ∧ (r.removeActive name).diskChildrenMap = r.diskChildrenMap
      ∧ (r.removeActive name).readOnly = r.readOnly
      ∧ (r.removeActive name).unmapMarkDiskChainRemoved = r.unmapMarkDiskChainRemoved
      ∧ (r.removeActive name).activeDiskData = (if r.findDisk name = 0 then r.activeDiskData
        else r.activeDiskData.eraseIdx (r.findDisk name))
      ∧ (r.removeActive name).volume = (if r.findDisk name = 0 then r.volume
        else r.volume.removeIndex (r.findDisk name))
      ∧ (r.removeActive name).info
        = if r.findDisk name ≠ 0 ∧ r.activeDiskData.length - 2 = r.findDisk name then
          { r.info with parent := ((r.diskData.lookup r.info.head).map Disk.parent).getD "" }
          else r.info := by
  unfold removeActive
  by_cases h : r.findDisk name = 0
  · simp only [h, if_true, ne_eq, not_true_eq_false, false_and, if_false, and_self]
  · simp only [h, if_false, ne_eq, not_false_eq_true, true_and, and_self]

/-- How `removeDiskNode` ends: it refuses, it misses a record, or the disk is out of the tree. -/
inductive NodeEnds (pick : Finset String → String) (r : Replica) (name : String) (force : Bool) :
    Replica × Except ReplicaErr Unit → Prop
  | many : r.ManyChildren name → force = false →
      NodeEnds pick r name force (r, .error (.manyChildren name (r.childCount name)))
  | missing {r' : Replica} {x : String} : ¬ (r.ManyChildren name ∧ force = false) →
      ¬ r.NodeRecorded pick name → NodeEnds pick r name force (r', .error (.nilDisk x))
  | removed {disk : Disk} {r' : Replica} : ¬ (r.ManyChildren name ∧ force = false) →
      r.NodeRecorded pick name → r.diskData.lookup name = some disk →
      (name ≠ "" → (r.diskChildrenMap.lookup name = none ∧ Unlinked r (r'.rmDisk name) name disk)
        ∨ ∃ children childDisk, r.diskChildrenMap.lookup name = some children
          ∧ r.diskData.lookup (pick children) = some childDisk
          ∧ (pick children ≠ "" → r.readOnly = false →
            Spliced r (r'.rmDisk name) name (pick children) disk childDisk)) →
      NodeEnds pick r name force (r', .ok ())

theorem removeDiskNode_ends (pick : Finset String → String) (r : Replica) (name : String)
    (force : Bool) : NodeEnds pick r name force (r.removeDiskNode pick name force) := by
  unfold removeDiskNode
  cases hc : r.diskChildrenMap.lookup name with
  | none =>
    have hfew : ¬ (r.ManyChildren name ∧ force = false) := by simp [ManyChildren, childCount, hc]
    cases hd : r.diskData.lookup name with
    | none => exact .missing hfew (fun h => not_recorded hd h.1)
    | some disk =>
      refine .removed hfew ⟨recorded disk hd, by simp [hc]⟩ hd (fun hne => .inl ⟨hc, ?_⟩)
      rw [rmDisk, if_neg hne]
      exact ⟨fun x => lookup_erase_eq _ _ x, fun x => lookup_erase_eq _ _ x,
        fun x => lookup_erase_eq _ _ x, rfl, rfl, rfl, rfl, rfl, rfl, rfl, rfl⟩
  | some children =>
    have hcount : r.childCount name = children.card := by rw [childCount, hc]; rfl
    by_cases hmany : r.ManyChildren name ∧ force = false
    · have hres := (NodeEnds.many hmany.1 hmany.2 : NodeEnds pick r name force _)
      rw [ManyChildren, hcount] at hmany
      rw [hcount] at hres
      cases r.diskData.lookup name with
      | none =>
        dsimp only
        rw [if_pos hmany]
        exact hres
      | some disk =>
        dsimp only
        rw [if_pos hmany]
        exact hres
    have hfew := hmany
    rw [ManyChildren, hcount] at hfew
    cases hd : r.diskData.lookup name with
    | none =>
      dsimp only
      rw [if_neg hfew]
      exact .missing hmany (fun h => not_recorded hd h.1)
    | some disk =>
      dsimp only
      rw [if_neg hfew]
      cases hcd : r.diskData.lookup (pick children) with
      | none => exact .missing hmany (fun h => not_recorded hcd (h.2 children hc).1)
      | some childDisk =>
        dsimp only
        have hchild := recorded childDisk hcd
        -- the replica before the live stack is touched
        generalize hr1 : Replica.mk _ _ _ _ _ _ _ _ = r1
        have hlost_iff : r1.LostHead name ↔ _ := lostHead_iff hchild
          (by rw [← hr1]) (by rw [← hr1]) (by rw [← hr1])
        split
        · rename_i hlost
          obtain ⟨h0, hlen, hhead⟩ := hlost_iff.mp hlost
          exact .missing hmany (fun h => hhead ((h.2 children hc).2 h0 hlen))
        · rename_i hkept
          have hhead : r.NodeRecorded pick name := by
            refine ⟨recorded disk hd, fun children' hc' => ?_⟩
            obtain rfl := Option.some.inj (hc.symm.trans hc')
            refine ⟨hchild, fun h0 hlen => ?_⟩
            by_contra hhead
            exact hkept (hlost_iff.mpr ⟨h0, hlen, hhead⟩)
          refine .removed hmany hhead hd (fun hne => .inr ⟨children, childDisk, hc, hcd,
            fun hce hro => ?_⟩)
          obtain ⟨hdir, h1, h2, h3, h4, h5, h6, h7⟩ := removeActive_fields r1 name
          rw [rmDisk, if_neg hne]
          subst hr1
          refine ⟨fun x => ?_, fun x => ?_, fun x => ?_, (congrArg Dir.data hdir :),
            (congrArg Dir.volumeMeta hdir :), ?_, h5, h6, ?_, h3, h4⟩
          · dsimp only
            rw [lookup_erase_eq, hdir, hro, if_neg Bool.false_ne_true, lookup_insert_eq, if_neg hne]
          · dsimp only
            rw [h1, lookup_erase_eq, lookup_insert_eq, if_neg hne]
          · dsimp only
            rw [lookup_erase_eq, hdir]
          · dsimp only
            rw [h2, updateChildDisk, if_neg hce]
          · dsimp only
            rw [h1]
            exact h7

/-! ## A healthy open replica -/

/-- The records, the metadata files, the children map and the live stack tell one story. -/
structure Linked (r : Replica) : Prop where
  writable : r.readOnly = false
  no_empty : r.dir.metas.lookup "" = none
  metas : ∀ {name disk}, r.dir.metas.lookup name = some disk → r.diskData.lookup name = some disk
  /-- A record that has a parent has a metadata file; the backing file has neither. -/
  records : ∀ {name disk}, r.diskData.lookup name = some disk → disk.parent ≠ "" →
    r.dir.metas.lookup name = some disk
  images : ∀ {name disk}, r.dir.metas.lookup name = some disk →
    ∃ i, r.dir.imgs.lookup name = some i
  chains : ∀ {name disk}, r.dir.metas.lookup name = some disk →
    ∃ l, IsChain (r.dir.metas.lookup ·) name l ∧ l.length ≤ maximumTotalSnapshotCount
  children : ∀ {name c}, name ≠ "" → (c ∈ (r.diskChildrenMap.lookup name).getD ∅
    ↔ ∃ disk, r.diskData.lookup c = some disk ∧ disk.parent = name)
  children_nonempty : ∀ {name s}, r.diskChildrenMap.lookup name = some s → s.Nonempty
  head : ∃ disk, r.dir.metas.lookup r.info.head = some disk
  head_leaf : ∀ {name disk}, r.dir.metas.lookup name = some disk → disk.parent ≠ r.info.head
  backing : ∀ {b}, r.info.backingFile = some b → r.dir.metas.lookup b.path = none
  /-- The live stack is the backing file and the head's chain. -/
  live : ∃ l, IsChain (r.dir.metas.lookup ·) r.info.head l
    ∧ r.activeDiskData = "" :: (r.info.backingFile.map BackingFile.path).toList ++ l.reverse
    ∧ r.volume.files.length = r.activeDiskData.length
  view : r.view.Wf
  sectorSize : r.volume.sectorSize = volumeSectorSize
  size : r.volume.size = r.dir.volumeMeta.size
  size_pos : 0 < r.volume.size

/-- A disk with metadata other than the head. -/
def IsSnapshot (r : Replica) (name : String) : Prop :=
  name ≠ r.info.head ∧ ∃ disk, r.dir.metas.lookup name = some disk

/-- The head and every snapshot but `name` read the same in `r'` as in `r`. -/
def Preserved (r r' : Replica) (name : String) : Prop :=
  (∀ p, p < r.volume.size → r'.view.readByte p = r.view.readByte p)
    ∧ ∀ s, r.IsSnapshot s → s ≠ name → ∀ p, p < r.volume.size →
      snapshotByte r'.dir s r'.info.backingFile p = snapshotByte r.dir s r.info.backingFile p

namespace Linked

variable {r : Replica} {name : String}

section

variable (h : r.Linked)
include h

theorem rooted : Rooted "" (parents r.dir.metas) where
  root_none := parents_eq_none.mpr h.no_empty
  path hx := by
    obtain ⟨d, hd, -⟩ := parents_eq_some.mp hx
    obtain ⟨l, hl, -⟩ := h.chains hd
    exact ⟨l, isChain_iff.mp hl⟩

theorem ne_empty (hd : r.dir.metas.lookup name = some disk) : name ≠ "" :=
  h.rooted.ne_root (parents_eq_some.mpr ⟨disk, hd, rfl⟩)

theorem mem_children (hne : name ≠ "") (hx : r.dir.metas.lookup x = some disk)
    (hp : disk.parent = name) :
    ∃ s, r.diskChildrenMap.lookup name = some s ∧ x ∈ s := by
  have hmem := (h.children hne).mpr ⟨disk, h.metas hx, hp⟩
  cases hs : r.diskChildrenMap.lookup name with
  | none => rw [hs] at hmem; exact absurd hmem (by simp)
  | some s => rw [hs] at hmem; exact ⟨s, rfl, hmem⟩

theorem of_mem_children (hne : name ≠ "") (hs : r.diskChildrenMap.lookup name = some s) (hx : x ∈ s)
    :
    ∃ disk, r.dir.metas.lookup x = some disk ∧ disk.parent = name := by
  obtain ⟨disk, hd, hp⟩ := (h.children (c := x) hne).mp (by rw [hs]; exact hx)
  exact ⟨disk, h.records hd (by rw [hp]; exact hne), hp⟩

theorem size_mod : r.dir.volumeMeta.size % volumeSectorSize = 0 := by
  have ht := h.view.table
  have hsz : r.view.size = r.dir.volumeMeta.size := h.size
  have hss : r.view.sectorSize = volumeSectorSize := h.sectorSize
  rw [← hsz, ← ht, hss, Nat.mul_mod_left]

/-- What a snapshot of a healthy replica reads. -/
theorem snapshotByte_eq (hd : r.dir.metas.lookup name = some disk)
    (hc : IsChain (r.dir.metas.lookup ·) name l) (hp : p < r.volume.size) :
    snapshotByte r.dir name r.info.backingFile p
      = some (r.dir.showing r.info.backingFile l p) := by
  obtain ⟨l', hc', hlen⟩ := h.chains hd
  cases hc.unique hc'
  refine WeftBlock.snapshotByte_eq _ hc (h.ne_empty hd) hlen (fun x hx => ?_) h.size_mod
    (by rw [← h.size]; exact hp)
  obtain ⟨dx, hdx⟩ := hc.mem_isSome hx
  exact h.images hdx

end

end Linked

/-! ## What a removal does -/

/-- `r'` is `r` without the disk `name`, as far as reading is concerned. -/
structure Dropped (r r' : Replica) (name : String) (metas : String → Option Disk) : Prop where
  data : r'.dir.data = r.dir.data
  volumeMeta : r'.dir.volumeMeta = r.dir.volumeMeta
  backing : r'.info.backingFile = r.info.backingFile
  imgs : ∀ x, r'.dir.imgs.lookup x = if x = name then none else r.dir.imgs.lookup x
  metas : ∀ x, r'.dir.metas.lookup x = if x = name then none else metas x

variable {name : String} {r : Replica}

theorem Unlinked.dropped (h : Unlinked r r' name disk) :
    Dropped r r' name (r.dir.metas.lookup ·) :=
  ⟨h.data, h.volumeMeta, by rw [h.info], h.imgs, h.metas⟩

section

variable {r' : Replica} {child : String} {childDisk : Disk}
  (h : Spliced r r' name child disk childDisk)
include h

theorem Spliced.dropped : Dropped r r' name (fun x => if x = child
      then some { childDisk with parent := disk.parent } else r.dir.metas.lookup x) := by
  refine ⟨h.data, h.volumeMeta, ?_, h.imgs, h.metas⟩
  rw [h.info]
  split <;> rfl

theorem Spliced.view :
    r'.view = if r.findDisk name = 0 then r.view else r.view.removeIndex (r.findDisk name) := by
  rw [Replica.view, h.volume, h.data]
  split
  · rfl
  · exact Volume.view_removeIndex _ _ _

end

/-- **A forced removal takes the disk out**, and hands the picked child to the parent. -/
theorem removeDiffDisk_forced (h : r.Linked) (hs : r.IsSnapshot name) (hpick : Picks pick)
    (hd : r.dir.metas.lookup name = some disk) :
    ∃ r', r.removeDiffDisk pick name true = (r', .ok ())
      ∧ ((r.diskChildrenMap.lookup name = none ∧ Unlinked r r' name disk)
        ∨ ∃ children childDisk, r.diskChildrenMap.lookup name = some children
          ∧ r.dir.metas.lookup (pick children) = some childDisk
          ∧ Spliced r r' name (pick children) disk childDisk) := by
  have hne := h.ne_empty hd
  have hpicked : ∀ {children}, r.diskChildrenMap.lookup name = some children →
      ∃ childDisk, r.dir.metas.lookup (pick children) = some childDisk := by
    intro children hc
    obtain ⟨childDisk, hcd, -⟩ := h.of_mem_children hne hc (hpick _ (h.children_nonempty hc))
    exact ⟨childDisk, hcd⟩
  have hrec : r.NodeRecorded pick name := by
    refine ⟨recorded _ (h.metas hd), fun children hc => ?_⟩
    obtain ⟨childDisk, hcd⟩ := hpicked hc
    obtain ⟨headDisk, hhead⟩ := h.head
    exact ⟨recorded _ (h.metas hcd), fun _ _ => ⟨hs.1.symm, recorded _ (h.metas hhead)⟩⟩
  have hends := removeDiskNode_ends pick r name true
  rw [removeDiffDisk, if_neg hs.1]
  generalize r.removeDiskNode pick name true = res at hends
  cases hends with
  | many _ hforce => exact absurd hforce (by simp)
  | missing _ hno => exact absurd hrec hno
  | removed _ _ hd' hor =>
    obtain rfl := Option.some.inj ((h.metas hd).symm.trans hd')
    refine ⟨_, rfl, (hor hne).imp id ?_⟩
    rintro ⟨children, childDisk, hc, hcd, hsp⟩
    obtain ⟨childDisk', hcd'⟩ := hpicked hc
    obtain rfl := Option.some.inj ((h.metas hcd').symm.trans hcd)
    exact ⟨children, _, hc, hcd', hsp (h.ne_empty hcd') h.writable⟩

/-! ## What shows after it -/

/-- The images of the other disks are what they were. -/
theorem Dropped.showing {r r' : Replica} (h : Dropped r r' name m) (hl : name ∉ l) (p : Nat) :
    r'.dir.showing r'.info.backingFile l p = r.dir.showing r.info.backingFile l p := by
  unfold Dir.showing Dir.stack
  rw [h.backing, h.data]
  congr 2
  refine List.map_congr_left (fun x hx => ?_)
  rw [Dir.ino, Dir.ino, h.imgs, if_neg (fun he => hl (by rw [← he]; exact hx))]

/-- A chain that still exists, without the removed disk in it, is read as before. -/
theorem Dropped.snapshotByte_eq {r r' : Replica} (hl : r.Linked) (h : Dropped r r' name m)
    {s : String} (hc : IsChain (r'.dir.metas.lookup ·) s l) (hne : s ≠ "")
    (hlen : l.length ≤ maximumTotalSnapshotCount) (hname : name ∉ l)
    (himgs : ∀ x ∈ l, ∃ i, r.dir.imgs.lookup x = some i) (hp : p < r.volume.size) :
    snapshotByte r'.dir s r'.info.backingFile p
      = some (r.dir.showing r.info.backingFile l p) := by
  rw [← h.showing hname]
  refine WeftBlock.snapshotByte_eq _ hc hne hlen (fun x hx => ?_) ?_ ?_
  · rw [h.imgs, if_neg (fun he => hname (by rw [← he]; exact hx))]
    exact himgs x hx
  · rw [h.volumeMeta]; exact hl.size_mod
  · rw [h.volumeMeta, ← hl.size]; exact hp

/--
Removing `name` is harmless: it is a leaf; or it has a single child, everything
the live volume reads from it is what shows without it, and (when the child is a
snapshot) wherever the child holds nothing, the disk shows what its parent shows.
-/
def Safe (r : Replica) (name : String) : Prop :=
  r.diskChildrenMap.lookup name = none
    ∨ ∃ child, r.diskChildrenMap.lookup name = some {child}
      ∧ (0 < r.findDisk name → ∀ p, p < r.volume.size →
          r.view.layer (p / r.view.sectorSize) = r.findDisk name →
          (r.view.file (r.findDisk name)).byteAt p
            = (r.view.without (r.findDisk name)).visible p)
      ∧ (child ≠ r.info.head → ∀ v, IsChain (r.dir.metas.lookup ·) name (name :: v) →
          ∀ p, p < r.volume.size →
            DiffDisk.holds volumeSectorSize p (r.dir.data (r.dir.ino child)) = none →
            r.dir.showing r.info.backingFile (name :: v) p = r.dir.showing r.info.backingFile v p)

/-- An active disk below the head has an index the stack can lose. -/
theorem findDisk_lt (h : r.Linked) (hs : r.IsSnapshot name)
    (hpos : 0 < r.findDisk name) : r.findDisk name < r.view.head := by
  obtain ⟨l, hc, hact, hlen⟩ := h.live
  obtain ⟨hne, disk, hd⟩ := hs
  obtain ⟨hdisk, hhd⟩ := h.head
  obtain ⟨v, rfl⟩ := hc.head_mem (h.ne_empty hhd)
  have hview : r.view.files.length = r.activeDiskData.length := by
    rw [← hlen]; exact List.length_map _
  unfold findDisk at hpos ⊢
  split at hpos
  · rename_i hmem
    rw [if_pos hmem]
    rw [DiffDisk.head, hview, hact] at *
    rw [List.cons_append, List.tail_cons, List.reverse_cons, ← List.append_assoc] at hmem ⊢
    have hin : name ∈ (r.info.backingFile.map BackingFile.path).toList ++ v.reverse := by
      rcases List.mem_append.mp hmem with hin | hin
      · exact hin
      · exact absurd (by simpa using hin) hne
    rw [List.idxOf_append_of_mem hin]
    have := List.idxOf_lt_length_of_mem hin
    simp only [List.length_cons, List.length_append, List.length_reverse, List.length_nil] at this ⊢
    omega
  · exact absurd hpos (by decide)

/-- The live volume reads the same after the removal where the disk shows nothing of its own. -/
theorem view_preserved_iff {r r' : Replica} (h : r.Linked) (hs : r.IsSnapshot name)
    (hv : r'.view = if r.findDisk name = 0 then r.view else r.view.removeIndex (r.findDisk name)) :
    (∀ p, p < r.volume.size → r'.view.readByte p = r.view.readByte p)
      ↔ (0 < r.findDisk name → ∀ p, p < r.volume.size →
          r.view.layer (p / r.view.sectorSize) = r.findDisk name →
          (r.view.file (r.findDisk name)).byteAt p
            = (r.view.without (r.findDisk name)).visible p) := by
  rcases Nat.eq_zero_or_pos (r.findDisk name) with h0 | hpos
  · rw [hv, if_pos h0, h0]
    exact ⟨fun _ hlt => absurd hlt (by decide), fun _ _ _ => rfl⟩
  · have hlt := findDisk_lt h hs hpos
    have hw := DiffDisk.wf_removeIndex h.view hpos hlt
    rw [hv, if_neg (by omega)]
    have hread : ∀ p, p < r.volume.size →
        ((r.view.removeIndex (r.findDisk name)).readByte p = r.view.readByte p
          ↔ (r.view.layer (p / r.view.sectorSize) = r.findDisk name →
            (r.view.file (r.findDisk name)).byteAt p
              = (r.view.without (r.findDisk name)).visible p)) := by
      intro p hp
      rw [DiffDisk.readByte_eq_content hw hp, DiffDisk.readByte_eq_content h.view hp,
        DiffDisk.content_removeIndex h.view hpos hlt]
      by_cases hl : r.view.layer (p / r.view.sectorSize) = r.findDisk name
      · rw [if_pos hl, DiffDisk.visible_removeIndex, DiffDisk.content, hl]
        exact ⟨fun he _ => he.symm, fun he => (he rfl).symm⟩
      · rw [if_neg hl]
        exact ⟨fun _ he => absurd he hl, fun _ => rfl⟩
    exact ⟨fun hall _ p hp => (hread p hp).mp (hall p hp),
      fun hall p hp => (hread p hp).mpr (hall hpos p hp)⟩

theorem preserved_leaf (h : r.Linked) (hd : r.dir.metas.lookup name = some disk)
    (hc : r.diskChildrenMap.lookup name = none) (hu : Unlinked r r' name disk) :
    Preserved r r' name := by
  have hdrop := hu.dropped
  refine ⟨fun p _ => by rw [Replica.view, hu.volume, hu.data]; rfl, fun s hsnap hne p hp => ?_⟩
  obtain ⟨hsh, ds, hds⟩ := hsnap
  obtain ⟨l, hcl, hlen⟩ := h.chains hds
  -- a chain through the leaf would make it a parent
  have hnot : name ∉ l := by
    refine (isChain_iff.mp hcl).not_mem_leaf (fun x hx => ?_) hne
    obtain ⟨dx, hdx, hp⟩ := parents_eq_some.mp hx
    obtain ⟨s, hs', -⟩ := h.mem_children (h.ne_empty hd) hdx hp
    exact absurd (hc.symm.trans hs') (by simp)
  rw [h.snapshotByte_eq hds hcl hp]
  refine hdrop.snapshotByte_eq h (hcl.congr (fun x hx => ?_)) (h.ne_empty hds) hlen hnot
    (fun x hx => ?_) hp
  · rw [hdrop.metas, if_neg (fun he => hnot (by rw [← he]; exact hx))]
  · obtain ⟨dx, hdx⟩ := hcl.mem_isSome hx
    exact h.images hdx

theorem Linked.child_ne (h : r.Linked) {name child : String}
    (hcd : r.dir.metas.lookup child = some childDisk) (hcp : childDisk.parent = name) :
    child ≠ name := by
  rintro rfl
  exact h.rooted.parent_ne_self (parents_eq_some.mpr ⟨childDisk, hcd, hcp⟩)

theorem Linked.head_not_mem (h : r.Linked) {s : String}
    (hl : IsChain (r.dir.metas.lookup ·) s l) (hs : s ≠ r.info.head) : r.info.head ∉ l := by
  refine (isChain_iff.mp hl).not_mem_leaf (fun x hx => ?_) hs
  obtain ⟨d, hd, hp⟩ := parents_eq_some.mp hx
  exact h.head_leaf hd hp

/-- The one record that names `name` as its parent is that of its only child. -/
theorem Linked.only_child (h : r.Linked) {name child : String}
    (hd : r.dir.metas.lookup name = some disk)
    (hc : r.diskChildrenMap.lookup name = some {child}) (x : String) :
    parents r.dir.metas x = some name ↔ x = child := by
  constructor
  · intro hx
    obtain ⟨dx, hdx, hp⟩ := parents_eq_some.mp hx
    obtain ⟨s, hs, hmem⟩ := h.mem_children (h.ne_empty hd) hdx hp
    obtain rfl := Option.some.inj (hc.symm.trans hs)
    exact Finset.mem_singleton.mp hmem
  · rintro rfl
    exact parents_eq_some.mpr (h.of_mem_children (h.ne_empty hd) hc (Finset.mem_singleton_self x))

/-- **The tree after a splice**: the disk is out of it. -/
theorem Spliced.parents_splice {child : String} (hs : Spliced r r' name child disk childDisk)
    (hd : r.dir.metas.lookup name = some disk)
    (honly : ∀ x, parents r.dir.metas x = some name ↔ x = child) :
    parents r'.dir.metas = splice (parents r.dir.metas) name := by
  funext x
  rw [parents, hs.metas, splice]
  split
  · rfl
  · by_cases hx : x = child
    · rw [if_pos hx, if_pos ((honly x).mpr hx), parents_eq_some.mpr ⟨disk, hd, rfl⟩]
      rfl
    · rw [if_neg hx, if_neg (fun hp => hx ((honly x).mp hp))]
      rfl

/-- A snapshot after the removal of a disk with a single child: the disk is out of its chain. -/
theorem snapshotByte_single {r r' : Replica} (h : r.Linked) {name child s : String}
    {disk childDisk ds : Disk} (hd : r.dir.metas.lookup name = some disk)
    (hc : r.diskChildrenMap.lookup name = some {child})
    (hsp : Spliced r r' name child disk childDisk) (hds : r.dir.metas.lookup s = some ds)
    (hl : IsChain (r.dir.metas.lookup ·) s l) (hne : s ≠ name) (hp : p < r.volume.size) :
    snapshotByte r'.dir s r'.info.backingFile p
      = some (r.dir.showing r.info.backingFile (l.erase name) p) := by
  obtain ⟨l', hl', hlen⟩ := h.chains hds
  cases hl.unique hl'
  have hpath : IsChain (r'.dir.metas.lookup ·) s (l.erase name) := by
    rw [isChain_iff, hsp.parents_splice hd (h.only_child hd hc)]
    exact (isChain_iff.mp hl).splice (parents_eq_some.mpr ⟨disk, hd, rfl⟩) (h.ne_empty hd) hne
  refine hsp.dropped.snapshotByte_eq h hpath (h.ne_empty hds)
    (Nat.le_trans List.length_erase_le hlen) (hl.nodup.not_mem_erase) (fun x hx => ?_) hp
  obtain ⟨dx, hdx⟩ := hl.mem_isSome (List.mem_of_mem_erase hx)
  exact h.images hdx

/-- Through the layers: a snapshot above the child is unchanged where the child hides the disk. -/
theorem showing_erase_iff {dir : Dir} {backingFile : Option BackingFile} {name child : String}
    {u v : List String} (hu : name ∉ u) (hc : child ≠ name) (p : Nat) :
    dir.showing backingFile ((u ++ child :: name :: v).erase name) p
        = dir.showing backingFile (u ++ child :: name :: v) p
      ↔ ((∀ x ∈ u ++ [child], DiffDisk.holds volumeSectorSize p (dir.data (dir.ino x)) = none) →
          dir.showing backingFile (name :: v) p = dir.showing backingFile v p) := by
  have herase : (u ++ child :: name :: v).erase name = (u ++ [child]) ++ v := by
    rw [List.erase_append_right _ hu, List.erase_cons_tail (by simpa using hc),
      List.erase_cons_head, List.append_assoc]
    rfl
  have hsplit : u ++ child :: name :: v = (u ++ [child]) ++ (name :: v) := by
    rw [List.append_assoc]; rfl
  have hstack : ∀ w, dir.stack backingFile ((u ++ [child]) ++ w)
      = (u ++ [child]).map (fun name => dir.data (dir.ino name)) ++ dir.stack backingFile w := by
    intro w
    rw [Dir.stack, Dir.stack, List.map_append, List.append_assoc]
  rw [herase, hsplit, eq_comm, Dir.showing, Dir.showing, hstack, hstack, through_append_congr_iff]
  refine imp_congr_left ⟨fun hall x hx => ?_, fun hall f hf => ?_⟩
  · exact hall _ (List.mem_map_of_mem hx)
  · obtain ⟨x, hx, rfl⟩ := List.mem_map.mp hf
    exact hall x hx

/-- **One child**: exactly the condition of `Safe`. -/
theorem preserved_single_iff (h : r.Linked) {name child : String} (hs : r.IsSnapshot name)
    (hd : r.dir.metas.lookup name = some disk) (hc : r.diskChildrenMap.lookup name = some {child})
    (hcd : r.dir.metas.lookup child = some childDisk) (hsp : Spliced r r' name child disk childDisk) :
    Preserved r r' name ↔ r.Safe name := by
  obtain ⟨d, hd', hcp⟩ := parents_eq_some.mp ((h.only_child hd hc child).mpr rfl)
  obtain rfl := Option.some.inj (hcd.symm.trans hd')
  have hchild := h.child_ne hcd hcp
  -- the chain of any other snapshot through the disk, and what becomes of it
  have hsnap : ∀ {s ds l p}, r.dir.metas.lookup s = some ds →
      IsChain (r.dir.metas.lookup ·) s l → s ≠ name → p < r.volume.size →
      (snapshotByte r'.dir s r'.info.backingFile p = snapshotByte r.dir s r.info.backingFile p
        ↔ r.dir.showing r.info.backingFile (l.erase name) p
          = r.dir.showing r.info.backingFile l p) := by
    intro s ds l p hds hl hne hp
    rw [snapshotByte_single h hd hc hsp hds hl hne hp, h.snapshotByte_eq hds hl hp,
      Option.some_inj]
  have hhead := view_preserved_iff h hs hsp.view
  constructor
  · intro hex
    obtain ⟨hvol, hsnaps⟩ := hex
    refine Or.inr ⟨child, hc, hhead.mp hvol, fun hch v hv p hp hhole => ?_⟩
    have hcv : IsChain (r.dir.metas.lookup ·) child ([] ++ child :: name :: v) :=
      .cons (h.ne_empty hcd) hcd (by rw [hcp]; exact hv)
    have heq := (hsnap hcd hcv hchild hp).mp (hsnaps child ⟨hch, childDisk, hcd⟩ hchild p hp)
    refine (showing_erase_iff (by simp) hchild p).mp heq (fun x hx => ?_)
    rw [List.nil_append, List.mem_singleton] at hx
    rw [hx]
    exact hhole
  · intro hor
    rcases hor with hnone | ⟨child', hc', hlive, hbelow⟩
    · rw [hc] at hnone; exact absurd hnone (by simp)
    · rw [hc] at hc'
      cases Finset.singleton_injective (Option.some.inj hc')
      refine ⟨hhead.mpr hlive, fun s hsn hne p hp => ?_⟩
      obtain ⟨hsh, ds, hds⟩ := hsn
      obtain ⟨l, hl, -⟩ := h.chains hds
      refine (hsnap hds hl hne hp).mpr ?_
      by_cases hmem : name ∈ l
      · obtain ⟨u, c, v, rfl, hpc, hv⟩ := (isChain_iff.mp hl).from_child hmem hne
        obtain rfl := (h.only_child hd hc c).mp hpc
        have hu : name ∉ u := fun hin => by
          have hnd := hl.nodup
          rw [List.nodup_append] at hnd
          exact hnd.2.2 name hin name (by simp) rfl
        refine (showing_erase_iff hu hchild p).mpr (fun hall => ?_)
        have hch : c ≠ r.info.head := by
          rintro rfl
          exact h.head_not_mem hl hsh (by simp)
        exact hbelow hch v (isChain_iff.mpr hv) p hp (hall c (by simp))
      · rw [List.erase_of_not_mem hmem]

/-- A range over a map can end on any of its keys. -/
theorem exists_picks (hx : x ∈ s) :
    ∃ pick, Picks pick ∧ pick s = x := by
  have hall : ∀ t : Finset String, ∃ y, (t.Nonempty → y ∈ t) ∧ (t = s → y = x) := by
    intro t
    by_cases hts : t = s
    · exact ⟨x, fun _ => by rw [hts]; exact hx, fun _ => rfl⟩
    · by_cases hne : t.Nonempty
      · obtain ⟨y, hy⟩ := hne
        exact ⟨y, fun _ => hy, fun h => absurd h hts⟩
      · exact ⟨"", fun h => absurd h hne, fun h => absurd h hts⟩
  choose pick hpick using hall
  exact ⟨pick, fun t => (hpick t).1, (hpick s).2 rfl⟩

section

variable (h : r.Linked) (hs : r.IsSnapshot name)
include h hs

/-- With several children some other snapshot loses its chain, for some order of the map. -/
theorem not_preserved_of_many {children : Finset String}
    (hd : r.dir.metas.lookup name = some disk)
    (hc : r.diskChildrenMap.lookup name = some children) (hcard : 1 < children.card) :
    ∃ pick, Picks pick ∧ ¬ Preserved r (r.removeDiffDisk pick name true).1 name := by
  have hname := h.ne_empty hd
  -- a child that is a snapshot, and another one for the range to end on
  obtain ⟨a, ha, b, hb, hab⟩ := Finset.one_lt_card.mp hcard
  obtain ⟨c, hcm, hch, o, hom, hoc⟩ : ∃ c ∈ children, c ≠ r.info.head ∧ ∃ o ∈ children, o ≠ c := by
    by_cases hah : a = r.info.head
    · exact ⟨b, hb, fun hbh => hab (hah.trans hbh.symm), a, ha, hab⟩
    · exact ⟨a, ha, hah, b, hb, Ne.symm hab⟩
  obtain ⟨pick, hpick, hpo⟩ := exists_picks hom
  obtain ⟨cDisk, hcd, hcp⟩ := h.of_mem_children hname hc hcm
  obtain ⟨r', hr, ⟨hnone, -⟩ | ⟨children', oDisk, hc', -, hsp⟩⟩ := removeDiffDisk_forced h hs hpick hd
  · exact absurd (hc.symm.trans hnone) (by simp)
  obtain rfl := Option.some.inj (hc.symm.trans hc')
  have hdrop := hsp.dropped
  refine ⟨pick, hpick, ?_⟩
  rw [hr]
  intro hex
  obtain ⟨-, hsnaps⟩ := hex
  obtain ⟨l, hl, -⟩ := h.chains hcd
  have hcn := h.child_ne hcd hcp
  have hsame := hsnaps c ⟨hch, cDisk, hcd⟩ hcn 0 h.size_pos
  -- the child still names the removed disk, whose metadata is gone
  rw [h.snapshotByte_eq hcd hl h.size_pos, snapshotByte_of_dangling r'.info.backingFile 0
    (h.ne_empty hcd) (by rw [hdrop.metas, if_neg hcn, hpo, if_neg (Ne.symm hoc)]; exact hcd)
    (by rw [hcp]; exact hname) (by rw [hcp, hdrop.metas, if_pos rfl])] at hsame
  simp at hsame

/-- **A forced removal is harmless exactly when it is `Safe`.** -/
theorem preserved_iff :
    (∀ pick, Picks pick → Preserved r (r.removeDiffDisk pick name true).1 name) ↔ r.Safe name := by
  obtain ⟨disk, hd⟩ := hs.2
  cases hc : r.diskChildrenMap.lookup name with
  | none =>
    refine ⟨fun _ => Or.inl hc, fun _ pick hpick => ?_⟩
    obtain ⟨r', hr, ⟨-, hu⟩ | ⟨children, _, hc', -⟩⟩ := removeDiffDisk_forced h hs hpick hd
    · rw [hr]
      exact preserved_leaf h hd hc hu
    · exact absurd (hc.symm.trans hc') (by simp)
  | some children =>
    have hpos := (h.children_nonempty hc).card_pos
    rcases Nat.lt_or_ge 1 children.card with hmany | hone
    · refine ⟨fun hall => ?_, ?_⟩
      · obtain ⟨pick, hpick, hnot⟩ := not_preserved_of_many h hs hd hc hmany
        exact absurd (hall pick hpick) hnot
      · intro hor
        rcases hor with hnone | ⟨child, hc', -, -⟩
        · rw [hc] at hnone; exact absurd hnone (by simp)
        · rw [hc] at hc'
          rw [Option.some.inj hc', Finset.card_singleton] at hmany
          omega
    · obtain ⟨child, rfl⟩ := Finset.card_eq_one.mp (Nat.le_antisymm hone hpos)
      have hiff : ∀ {pick}, Picks pick →
          (Preserved r (r.removeDiffDisk pick name true).1 name ↔ r.Safe name) := by
        intro pick hpick
        have hpc : pick {child} = child :=
          Finset.mem_singleton.mp (hpick _ (Finset.singleton_nonempty _))
        obtain ⟨r', hr, ⟨hnone, -⟩ | ⟨children, cd, hc', hcd, hsp⟩⟩ :=
          removeDiffDisk_forced h hs hpick hd
        · exact absurd (hc.symm.trans hnone) (by simp)
        · obtain rfl := Option.some.inj (hc.symm.trans hc')
          rw [hpc] at hcd hsp
          rw [hr]
          exact preserved_single_iff h hs hd hc hcd hsp
      obtain ⟨pick, hpick, -⟩ := exists_picks (Finset.mem_singleton_self child)
      exact ⟨fun hall => (hiff hpick).mp (hall pick hpick), fun hsafe _ hp => (hiff hp).mpr hsafe⟩

theorem removeDiffDisk_ok (hpick : Picks pick) :
    (r.removeDiffDisk pick name true).2 = .ok () := by
  obtain ⟨disk, hd⟩ := hs.2
  obtain ⟨r', hr, -⟩ := removeDiffDisk_forced h hs hpick hd
  rw [hr]

end

end Replica

end WeftBlock
