import WeftBlock.Replica.Tree

/-!
# A replica in order

`Wired` says that what a replica keeps in memory is what its directory says: the
records are the metadata files, the children map is their reverse, and the live stack
is the backing file with the chain of the head on it, each with its image open. Every
operation that succeeds keeps it so, and this file says for each of them what it does
to the directory and to the live stack.
-/

namespace WeftBlock

open Maps Forest

namespace Replica

/-- The record `insertBackingFile` enters for a backing file. -/
def backingDisk : Disk := ⟨"", false, false, "", none⟩

/-- What is in memory is what the directory says, with the backing file `b` at the bottom. -/
structure Wired (b : Option BackingFile) (r : Replica) : Prop where
  writable : r.readOnly = false
  tree : DiskTree (parents r.dir.metas) r.info.head
  records : ∀ {x d}, r.dir.metas.lookup x = some d → r.diskData.lookup x = some d
  backed : ∀ {x d}, r.diskData.lookup x = some d →
    r.dir.metas.lookup x = some d ∨ ∃ f, b = some f ∧ x = f.path ∧ d = backingDisk
  outside : ∀ {f}, b = some f → f.Outside
  children : Children r.diskChildrenMap (parents r.dir.metas)
  live : ∃ l, Path "" (parents r.dir.metas) r.info.head l
    ∧ r.activeDiskData = "" :: (b.map BackingFile.path).toList ++ l.reverse
  volumeMeta : r.dir.volumeMeta.head = r.info.head ∧ r.dir.volumeMeta.size = r.info.size

/-- Every disk has an image, and the open files are the images of the live stack. -/
structure Opened (b : Option BackingFile) (r : Replica) : Prop where
  images : ∀ x, (r.dir.imgs.lookup x).isSome = (r.dir.metas.lookup x).isSome
  files : r.volume.files = 0 :: (b.map BackingFile.disk).toList
    ++ (r.activeDiskData.drop (b.toList.length + 1)).map r.dir.ino

/-- A replica between two calls: wired, open, and it knows the parent of its head. -/
structure InOrder (r : Replica) : Prop where
  wired : Wired r.info.backingFile r
  opened : Opened r.info.backingFile r
  parent : parents r.dir.metas r.info.head = some r.info.parent

theorem InOrder.newHead_free {r : Replica} (h : InOrder r) {newHead : String}
    (hnext : nextFile r.info.head = some newHead) : r.dir.imgs.lookup newHead = none := by
  obtain ⟨-, -, hnone, -⟩ := h.wired.tree.next_head hnext
  rw [← Option.not_isSome_iff_eq_none, h.opened.images, parents_eq_none.mp hnone]
  simp

/-! ## What `createDisk` does -/

/-- `r'` is `r` with its head turned into a snapshot and a new head on top. -/
structure Grown (r r' : Replica) (newSnap newHead created : String) (size : Nat) (snap : Disk) :
    Prop where
  next : nextFile r.info.head = some newHead
  unused : r.diskData.lookup newSnap = none
  old : ∃ disk, r.diskData.lookup r.info.head = some disk ∧ snap.parent = disk.parent
    ∧ snap.removed = disk.removed
  metas : ∀ x, r'.dir.metas.lookup x = if x = r.info.head then none else if x = newSnap then some snap
    else if x = newHead then some ⟨newSnap, false, false, created, none⟩ else r.dir.metas.lookup x
  diskData : ∀ x, r'.diskData.lookup x = if x = r.info.head then none
    else if x = newSnap then some snap
    else if x = newHead then some ⟨newSnap, false, false, created, none⟩ else r.diskData.lookup x
  imgs : ∀ x, r'.dir.imgs.lookup x = if x = r.info.head then none
    else if x = newSnap then r.dir.imgs.lookup r.info.head
    else if x = newHead then some r.freshIno else r.dir.imgs.lookup x
  data : r'.dir.data = Function.update r.dir.data r.freshIno (File.empty size)
  info : r'.info = { r.info with head := newHead, dirty := true, parent := newSnap, size := size }
  volumeMeta : r'.dir.volumeMeta = r'.info
  children : r'.diskChildrenMap = updateChildDisk (addChildDisk r.diskChildrenMap newSnap newHead)
    snap.parent r.info.head newSnap
  active : r'.activeDiskData = r.activeDiskData.dropLast ++ [newSnap, newHead]
  volume : r'.volume = { r.volume with files := r.volume.files ++ [r.freshIno] }
  readOnly : r'.readOnly = r.readOnly
  unmapMark : r'.unmapMarkDiskChainRemoved = r.unmapMarkDiskChainRemoved

theorem createNewHead_ok {r : Replica} {oldHead parent created : String} {size : Nat} {h : NewHead}
    (hok : r.createNewHead oldHead parent created size = .ok h) :
    nextFile oldHead = some h.name ∧ r.dir.imgs.lookup h.name = none
      ∧ h.file = r.freshIno ∧ h.disk = ⟨parent, false, false, created, none⟩
      ∧ h.dir = { r.dir with
          data := Function.update r.dir.data r.freshIno (File.empty size)
          imgs := r.dir.imgs.insert h.name r.freshIno
          metas := r.dir.metas.insert h.name h.disk } := by
  unfold createNewHead at hok
  split at hok
  · simp at hok
  · rename_i newHead hnext
    split at hok
    · simp at hok
    · rename_i himg
      obtain rfl := Except.ok.inj hok
      exact ⟨hnext, Option.not_isSome_iff_eq_none.mp himg, rfl, rfl, rfl⟩

theorem linkDisk_ok {dir dir' : Dir} {oldName newName : String} (hne : oldName ≠ "")
    (hok : dir.linkDisk oldName newName = (dir', .ok ())) :
    ∃ i disk, dir.imgs.lookup oldName = some i ∧ dir.metas.lookup oldName = some disk
      ∧ dir' = { dir with imgs := dir.imgs.insert newName i, metas := dir.metas.insert newName disk } := by
  unfold Dir.linkDisk at hok
  rw [if_neg hne] at hok
  split at hok
  · rename_i i disk hi hd
    exact ⟨i, disk, hi, hd, (Prod.mk.inj hok).1.symm⟩
  · simp at hok

/-- A `createDisk` that succeeds on a replica that has a head. -/
theorem createDisk_ok {b : Option BackingFile} {r r' : Replica} (hw : Wired b r)
    {snapshotMaxCount : Int} {name created : String} {userCreated : Bool}
    {labels : Option (List (String × String))} {size : Nat}
    (h : r.createDisk snapshotMaxCount name userCreated created labels size = (r', .ok ())) :
    ∃ newHead snap, Grown r r' (generateSnapshotDiskName name) newHead created size snap := by
  have hsnap := generateSnapshotDiskName_ne_empty name
  have hhead : r.info.head ≠ "" := by
    obtain ⟨y, hy⟩ := hw.tree.has_head
    exact hw.tree.rooted.ne_root hy
  unfold createDisk at h
  rw [if_neg (by rw [hw.writable]; simp)] at h
  split at h
  · simp at h
  dsimp only at h
  rw [if_neg hhead] at h
  split at h
  · simp at h
  rename_i hunused
  split at h
  · simp at h
  rename_i nh hnh
  obtain ⟨hnext, himg, hfile, hdisk, hdir⟩ := createNewHead_ok hnh
  have hne := (hw.tree.next_head hnext).2.1
  split at h
  · simp at h
  rename_i dir hlink
  obtain ⟨i, old, hi, hold, rfl⟩ := linkDisk_ok hhead hlink
  split at h
  · simp at h
  rename_i disk hrec
  obtain rfl := (Prod.mk.inj h).1
  have hun : r.diskData.lookup (generateSnapshotDiskName name) = none := by
    rw [← Option.not_isSome_iff_eq_none]
    exact fun hsome => hunused ⟨hsnap, hsome⟩
  rw [hdir] at hi
  rw [lookup_insert_eq, if_neg (Ne.symm hne)] at hi
  refine ⟨nh.name, { disk with userCreated := userCreated, created := created, labels := labels },
    hnext, hun, ⟨disk, hrec, rfl, rfl⟩, fun x => ?_, fun x => ?_, fun x => ?_, ?_, rfl, ?_, rfl, rfl,
    ?_, rfl, rfl⟩
  · dsimp only [onTop]
    rw [Dir.rmDisk, if_neg hhead, hdir]
    rw [lookup_erase_eq, lookup_insert_eq, lookup_insert_eq, lookup_insert_eq, hdisk]
    split_ifs <;> rfl
  · dsimp only [onTop]
    rw [lookup_erase_eq, lookup_insert_eq, lookup_insert_eq, hdisk]
  · dsimp only [onTop]
    rw [Dir.rmDisk, if_neg hhead, hdir]
    dsimp only
    rw [lookup_erase_eq, lookup_insert_eq, lookup_insert_eq, hi]
  · dsimp only [onTop]
    rw [Dir.rmDisk, if_neg hhead, hdir]
  · dsimp only [onTop]
    rw [Dir.rmDisk, if_neg hhead]
  · dsimp only [onTop]
    rw [hfile]

namespace Wired

variable {b : Option BackingFile} {r r' : Replica}

theorem head_ne_empty (h : Wired b r) : r.info.head ≠ "" := by
  obtain ⟨y, hy⟩ := h.tree.has_head
  exact h.tree.rooted.ne_root hy

theorem exists_chain (h : Wired b r) : ∃ p v, parents r.dir.metas r.info.head = some p
    ∧ Path "" (parents r.dir.metas) r.info.head (r.info.head :: v) ∧ Path "" (parents r.dir.metas) p v
    ∧ r.activeDiskData = "" :: (b.map BackingFile.path).toList ++ v.reverse ++ [r.info.head] := by
  obtain ⟨l, hl, hactive⟩ := h.live
  obtain ⟨p, hp⟩ := h.tree.has_head
  obtain ⟨v, rfl, hv⟩ := hl.parent hp h.head_ne_empty
  refine ⟨p, v, hp, hl, hv, ?_⟩
  rw [hactive, List.reverse_cons, List.append_assoc]

theorem drop_active (b : Option BackingFile) (l : List String) :
    ("" :: (b.map BackingFile.path).toList ++ l).drop (b.toList.length + 1) = l := by
  cases b <;> rfl

theorem metas_none (h : Wired b r) {x : String} (hx : r.diskData.lookup x = none) :
    parents r.dir.metas x = none := by
  rw [parents_eq_none]
  cases hm : r.dir.metas.lookup x with
  | none => rfl
  | some d => rw [h.records hm] at hx; exact absurd hx (by simp)

end Wired

namespace Grown

variable {b : Option BackingFile} {r r' : Replica} {s newHead created : String} {size : Nat}
  {snap : Disk}

section

variable (hw : Wired b r) (hg : Grown r r' (generateSnapshotDiskName s) newHead created size snap)
include hw hg

/-- The names a growth deals with are all different. -/
theorem names :
    newHead ≠ r.info.head ∧ newHead ≠ generateSnapshotDiskName s
      ∧ generateSnapshotDiskName s ≠ r.info.head
      ∧ parents r.dir.metas newHead = none
      ∧ parents r.dir.metas (generateSnapshotDiskName s) = none
      ∧ parents r.dir.metas r.info.head = some snap.parent := by
  obtain ⟨-, hne, hnone, -, hsnap⟩ := hw.tree.next_head hg.next
  obtain ⟨p, hp⟩ := hw.tree.has_head
  have hunused := hw.metas_none hg.unused
  obtain ⟨disk, hd, hpar, -⟩ := hg.old
  obtain ⟨d, hd', rfl⟩ := parents_eq_some.mp hp
  rw [hw.records hd'] at hd
  obtain rfl := Option.some.inj hd
  exact ⟨hne, hsnap s, (ne_of_node hp hunused).symm, hnone, hunused, by rw [hpar]; exact hp⟩

theorem parents_eq :
    parents r'.dir.metas = dropLeaf (insertLeaf (insertLeaf (parents r.dir.metas)
      (generateSnapshotDiskName s) snap.parent) newHead (generateSnapshotDiskName s)) r.info.head := by
  obtain ⟨-, hns, -⟩ := hg.names hw
  funext x
  rw [parents, hg.metas]
  simp only [dropLeaf, insertLeaf, Function.update_apply]
  split
  · rfl
  · split
    · rename_i hx
      rw [if_neg (by rw [hx]; exact hns.symm)]
      rfl
    · split <;> rfl

/-- The chain of the new head: the new snapshot and the old head's parents. -/
theorem path {v : List String} (hv : Path "" (parents r.dir.metas) snap.parent v) :
    Path "" (parents r'.dir.metas) newHead (newHead :: generateSnapshotDiskName s :: v) := by
  obtain ⟨hne, hns, hsh, hnone, hunused, hhead⟩ := hg.names hw
  obtain ⟨-, -, -, hempty, -⟩ := hw.tree.next_head hg.next
  have h1 := hv.insertLeaf_self hunused (generateSnapshotDiskName_ne_empty s)
  have hnone1 : insertLeaf (parents r.dir.metas) (generateSnapshotDiskName s) snap.parent newHead
      = none := by
    rw [insertLeaf, Function.update_of_ne hns, hnone]
  rw [hg.parents_eq hw]
  refine (h1.insertLeaf_self hnone1 hempty).dropLeaf (fun y hy => ?_) hne
  simp only [insertLeaf, Function.update_apply] at hy
  split at hy
  · exact hsh (Option.some.inj hy)
  · split at hy
    · exact hw.tree.leaf r.info.head (hhead.trans hy)
    · exact hw.tree.leaf y hy

end

theorem ino_eq (hg : Grown r r' (generateSnapshotDiskName s) newHead created size snap) {x : String}
    (h1 : x ≠ r.info.head) (h2 : x ≠ generateSnapshotDiskName s) (h3 : x ≠ newHead) :
    r'.dir.ino x = r.dir.ino x := by
  rw [Dir.ino, Dir.ino, hg.imgs, if_neg h1, if_neg h2, if_neg h3]

theorem wired (hw : Wired b r)
    (hg : Grown r r' (generateSnapshotDiskName s) newHead created size snap) : Wired b r' := by
  obtain ⟨hne, hns, hsh, hnone, hunused, hhead⟩ := hg.names hw
  obtain ⟨p, v, hp, hl, hv, hactive⟩ := hw.exists_chain
  obtain rfl : p = snap.parent := Option.some.inj (hp.symm.trans hhead)
  have hhead' : r'.info.head = newHead := by rw [hg.info]
  have hpar := hg.parents_eq hw
  have htree : DiskTree (parents r'.dir.metas) newHead := by
    rw [hpar]
    refine DiskTree.rehead (w := snap.parent) (hw.tree.addLeaf hunused ⟨v, hv⟩ ?_) hg.next ?_ hsh
    · rintro heq
      exact hw.tree.rooted.parent_ne_self (by rw [hp, heq])
    · rw [insertLeaf, Function.update_self]
  refine ⟨by rw [hg.readOnly, hw.writable], by rw [hhead']; exact htree, fun {x d} hx => ?_,
    fun {x d} hx => ?_, hw.outside, ?_, ?_, ?_⟩
  · rw [hg.metas] at hx
    rw [hg.diskData]
    split_ifs at hx ⊢
    · exact hx
    · exact hx
    · exact hw.records hx
  · rw [hg.diskData] at hx
    rw [hg.metas]
    split_ifs at hx ⊢
    · exact Or.inl hx
    · exact Or.inl hx
    · exact hw.backed hx
  · -- the new head is entered, the old one taken out, the new snapshot entered
    have hch := ((hw.children.addLeaf (y := generateSnapshotDiskName s) hnone).drop
      (z := r.info.head) (y := snap.parent)
      (by rw [insertLeaf, Function.update_of_ne hne.symm, hhead])).addLeaf
      (z := generateSnapshotDiskName s) (y := snap.parent)
      (by rw [dropLeaf, Function.update_of_ne hsh, insertLeaf, Function.update_of_ne hns.symm, hunused])
    rw [hg.children, updateChildDisk, if_neg (generateSnapshotDiskName_ne_empty s)]
    convert hch using 1
    rw [hpar]
    funext x
    simp only [dropLeaf, insertLeaf, Function.update_apply]
    split_ifs with h1 h2 h3 <;> first | rfl | simp_all
  · refine ⟨_, by rw [hhead']; exact hg.path hw hv, ?_⟩
    rw [hg.active, hactive, List.dropLast_concat]
    simp [List.append_assoc]
  · rw [hg.volumeMeta]
    exact ⟨rfl, rfl⟩

theorem opened (hw : Wired b r) (ho : Opened b r)
    (hg : Grown r r' (generateSnapshotDiskName s) newHead created size snap) : Opened b r' := by
  obtain ⟨hne, hns, hsh, hnone, hunused, hhead⟩ := hg.names hw
  obtain ⟨p, v, hp, hl, hv, hactive⟩ := hw.exists_chain
  refine ⟨fun x => ?_, ?_⟩
  · rw [hg.imgs, hg.metas]
    split
    · rfl
    · split
      · rw [ho.images]
        obtain ⟨d, hd, -⟩ := parents_eq_some.mp hp
        rw [hd]; rfl
      · split
        · rfl
        · exact ho.images x
  · have hino : ∀ x ∈ v, r'.dir.ino x = r.dir.ino x := by
      intro x hx
      obtain ⟨y, hy⟩ := hv.mem_node hx
      refine hg.ino_eq ?_ (ne_of_node hy hunused) (ne_of_node hy hnone)
      rintro rfl
      exact (List.nodup_cons.mp hl.nodup).1 hx
    have hsnap : r'.dir.ino (generateSnapshotDiskName s) = r.dir.ino r.info.head := by
      rw [Dir.ino, Dir.ino, hg.imgs, if_neg hsh, if_pos rfl]
    have hnew : r'.dir.ino newHead = r.freshIno := by
      rw [Dir.ino, hg.imgs, if_neg hne, if_neg hns, if_pos rfl]
      rfl
    have hv' : v.reverse.map r'.dir.ino = v.reverse.map r.dir.ino :=
      List.map_congr_left (fun x hx => hino x (List.mem_reverse.mp hx))
    have hdrop : ∀ t, ("" :: (b.map BackingFile.path).toList ++ v.reverse ++ t).drop
        (b.toList.length + 1) = v.reverse ++ t := fun t => by
      rw [List.append_assoc, Wired.drop_active]
    rw [hg.active, hg.volume, ho.files, hactive, List.dropLast_concat, hdrop, hdrop]
    simp [hv', hsnap, hnew]

/-- Growing keeps a replica in order; the new head's parent is the new snapshot. -/
theorem inOrder (hw : Wired r.info.backingFile r) (ho : Opened r.info.backingFile r)
    (hg : Grown r r' (generateSnapshotDiskName s) newHead created size snap) : InOrder r' := by
  have hb : r'.info.backingFile = r.info.backingFile := by rw [hg.info]
  refine ⟨by rw [hb]; exact hg.wired hw, by rw [hb]; exact hg.opened hw ho, ?_⟩
  obtain ⟨hne, hns, -⟩ := hg.names hw
  rw [parents, hg.metas, hg.info, if_neg hne, if_neg hns, if_pos rfl]
  rfl

end Grown

/-! ## Marking a disk -/

/-- `r'` is `r` with the record of one disk marked as removed. -/
def marked (r : Replica) (name : String) (disk : Disk) : Replica :=
  { r with
    diskData := r.diskData.insert name { disk with removed := true }
    dir := { r.dir with metas := r.dir.metas.insert name { disk with removed := true } } }

theorem markDiskAsRemoved_ok {r r' : Replica} {name : String}
    (h : r.markDiskAsRemoved name = (r', .ok ())) :
    ∃ disk, r.diskData.lookup name = some disk ∧ (r.dir.metas.lookup name).isSome
      ∧ r' = r.marked name disk := by
  unfold markDiskAsRemoved at h
  split at h
  · simp at h
  · rename_i disk hd
    split at h
    · simp at h
    · rename_i hfiles
      refine ⟨disk, hd, ?_, (Prod.mk.inj h).1.symm⟩
      by_contra hnone
      exact hfiles (Or.inr (by simpa using hnone))

section Marked

variable {b : Option BackingFile} {r : Replica} {name : String} {disk : Disk}

theorem parents_marked (hd : r.dir.metas.lookup name = some disk) :
    parents (r.marked name disk).dir.metas = parents r.dir.metas := by
  funext x
  rw [parents, parents, marked, lookup_insert_eq]
  split
  · rename_i hx
    rw [hx, hd]
    rfl
  · rfl

theorem Wired.marked (h : Wired b r) (hd : r.dir.metas.lookup name = some disk) :
    Wired b (r.marked name disk) := by
  have hpar := parents_marked hd
  refine ⟨h.writable, by rw [hpar]; exact h.tree, fun {x d} hx => ?_, fun {x d} hx => ?_,
    h.outside, by rw [hpar]; exact h.children, by rw [hpar]; exact h.live, h.volumeMeta⟩
  · rw [Replica.marked, lookup_insert_eq] at hx ⊢
    split at hx
    · rename_i hx'
      rw [if_pos hx']
      exact hx
    · rename_i hx'
      rw [if_neg hx']
      exact h.records hx
  · rw [Replica.marked, lookup_insert_eq] at hx ⊢
    split at hx
    · rename_i hx'
      rw [if_pos hx']
      exact Or.inl hx
    · rename_i hx'
      rw [if_neg hx']
      exact h.backed hx

theorem Opened.marked (h : Opened b r) (hd : r.dir.metas.lookup name = some disk) :
    Opened b (r.marked name disk) := by
  refine ⟨fun x => ?_, h.files⟩
  rw [show (r.marked name disk).dir.imgs = r.dir.imgs from rfl, h.images, Replica.marked,
    lookup_insert_eq]
  split
  · rename_i hx
    rw [hx, hd]
    rfl
  · rfl

theorem InOrder.marked (h : InOrder r) (hd : r.dir.metas.lookup name = some disk) :
    InOrder (r.marked name disk) :=
  ⟨h.wired.marked hd, h.opened.marked hd, by rw [parents_marked hd]; exact h.parent⟩

end Marked

theorem markDiskAsRemoved_inOrder {r r' : Replica} {name : String} (h : InOrder r)
    (hok : r.markDiskAsRemoved name = (r', .ok ())) :
    ∃ disk, r.dir.metas.lookup name = some disk ∧ r' = r.marked name disk ∧ InOrder r' := by
  obtain ⟨disk, hd, hmeta, rfl⟩ := markDiskAsRemoved_ok hok
  obtain ⟨d, hd'⟩ := Option.isSome_iff_exists.mp hmeta
  rw [h.wired.records hd'] at hd
  obtain rfl := Option.some.inj hd
  exact ⟨d, hd', rfl, h.marked hd'⟩

end Replica

end WeftBlock
