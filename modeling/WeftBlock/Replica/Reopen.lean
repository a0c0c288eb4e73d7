import WeftBlock.Replica.Unlink

/-!
# Opening, expanding and reverting keep a replica in order

Opening a directory whose disks form a tree reads back what a replica in order has in
memory, if the live chain is short enough to be opened. A revert edits the directory
and opens it again; if that succeeds, the name it was given is a disk's and not the
head's.
-/

namespace WeftBlock

open Maps Forest

variable {l : List String}

/-- What `Chain()` returns is a chain. -/
theorem isChain_of_chain {m : AList (fun _ : String => Disk)} {x : String}
    (h : chain m x = .ok l) : IsChain (m.lookup ·) x l := by
  have hloop : ∀ fuel x l, chainFrom m fuel x = .ok l → IsChain (m.lookup ·) x l := by
    intro fuel
    induction fuel with
    | zero =>
      intro x l h
      rw [chainFrom] at h
      split at h
      · rename_i hx
        rw [hx, ← Except.ok.inj h]
        exact .nil
      · simp at h
    | succ fuel ih =>
      intro x l h
      rw [chainFrom] at h
      split at h
      · rename_i hx
        rw [hx, ← Except.ok.inj h]
        exact .nil
      · rename_i hx
        split at h
        · simp at h
        · rename_i disk hd
          cases hrest : chainFrom m fuel disk.parent with
          | error e => rw [hrest] at h; exact absurd h (by simp [Except.map])
          | ok rest =>
            rw [hrest] at h
            rw [← Except.ok.inj h]
            exact .cons hx hd (ih _ _ hrest)
  exact hloop _ x l h

/-- The backing file to be opened, if any, is none of the replica's own disks. -/
def OpenArgs.Outside (a : OpenArgs) : Prop := ∀ f, a.backingFile = some f → f.Outside

variable {r : Replica} {snapshotMaxCount : Int} {b : Option BackingFile} {created : String}
  {sectorSize : Nat} {size : Nat}

namespace Replica

/-! ## Opening a directory -/

/-- A directory that can be opened, apart from the length of its live chain. -/
structure Openable (dir : Dir) : Prop where
  tree : DiskTree (parents dir.metas) dir.volumeMeta.head
  images : ∀ x, (dir.imgs.lookup x).isSome = (dir.metas.lookup x).isSome

/-- The replica once the chain `l` of its head is open. -/
def openedOn (dir : Dir) (a : OpenArgs) (l : List String) : Replica :=
  { unopened dir a with
    volume := { (unopened dir a).volume with files := 0 :: l.reverse.map dir.ino }
    activeDiskData := "" :: l.reverse }

variable {dir : Dir} {a : OpenArgs}

theorem Openable.entries_ne (h : Openable dir) : (unopened dir a).diskData.entries.length ≠ 0 := by
  obtain ⟨p, hp⟩ := h.tree.has_head
  obtain ⟨d, hd, -⟩ := parents_eq_some.mp hp
  have hmem : dir.volumeMeta.head ∈ dir.metas.keys :=
    AList.mem_keys.mpr (AList.lookup_isSome.mp (by rw [hd]; rfl))
  have : 0 < dir.metas.keys.length := List.length_pos_of_mem hmem
  rw [AList.keys, List.keys, List.length_map] at this
  exact this.ne'

section

variable (h : Openable dir) (hl : Path "" (parents dir.metas) dir.volumeMeta.head l)
include h hl

/-- **The live chain is opened if it is not too long.** -/
theorem openLiveChain_eq :
    (unopened dir a).openLiveChain = if maximumTotalSnapshotCount < l.length
      then .error (.replica (.chainTooLong l.length)) else .ok (openedOn dir a l) := by
  have hopen : l.reverse.mapM dir.openFile = .ok (l.reverse.map dir.ino) := by
    refine Dir.mapM_openFile (fun x hx => ?_)
    obtain ⟨y, hy⟩ := hl.mem_node (List.mem_reverse.mp hx)
    obtain ⟨d, hd, -⟩ := parents_eq_some.mp hy
    have himg := h.images x
    rw [hd] at himg
    exact Option.isSome_iff_exists.mp himg
  unfold openLiveChain
  rw [show chain (unopened dir a).diskData (unopened dir a).info.head = .ok l from
    chain_of_isChain (isChain_iff.mpr hl)]
  dsimp only
  split
  · rfl
  · rw [show l.reverse.mapM (unopened dir a).dir.openFile = .ok (l.reverse.map dir.ino) from hopen]
    rfl

theorem wired_openedOn : Wired none (openedOn dir a l) where
  writable := rfl
  tree := h.tree
  records := fun hx => hx
  backed := fun hx => Or.inl hx
  outside := fun hf => absurd hf (by simp)
  children := children_readChildren _
  live := ⟨l, hl, rfl⟩
  volumeMeta := ⟨rfl, rfl⟩

end

theorem opened_openedOn (h : Openable dir) (l : List String) : Opened none (openedOn dir a l) where
  images := h.images
  files := rfl

/-- The backing file goes to the bottom. -/
theorem insertBackingFile_wired (h : Wired none r)
    (hout : ∀ f, r.info.backingFile = some f → f.Outside) :
    Wired r.info.backingFile r.insertBackingFile := by
  unfold insertBackingFile
  cases hb : r.info.backingFile with
  | none => exact h
  | some f =>
    have hpath : ∀ {x d}, r.dir.metas.lookup x = some d → x ≠ f.path := by
      rintro x d hx rfl
      exact (hout f hb).2 (h.tree.isDiskName (parents_eq_some.mpr ⟨d, hx, rfl⟩))
    refine ⟨h.writable, h.tree, fun {x d} hx => ?_, fun {x d} hx => ?_, ?_, h.children, ?_,
      h.volumeMeta⟩
    · dsimp only at hx ⊢
      rw [lookup_insert_eq, if_neg (hpath hx)]
      exact h.records hx
    · dsimp only at hx ⊢
      rw [lookup_insert_eq] at hx
      split at hx
      · exact Or.inr ⟨f, rfl, by assumption, (Option.some.inj hx).symm⟩
      · rcases h.backed hx with hm | ⟨g, hg, -⟩
        · exact Or.inl hm
        · simp at hg
    · intro g hg
      obtain rfl := Option.some.inj hg
      exact hout f hb
    · obtain ⟨l, hl, hactive⟩ := h.live
      refine ⟨l, hl, ?_⟩
      rw [hactive]
      rfl

theorem insertBackingFile_opened (h : Wired none r) (ho : Opened none r) :
    Opened r.info.backingFile r.insertBackingFile := by
  unfold insertBackingFile
  cases hb : r.info.backingFile with
  | none => exact ho
  | some f =>
    obtain ⟨l, -, hactive⟩ := h.live
    refine ⟨ho.images, ?_⟩
    rw [ho.files, hactive]
    rfl

theorem insertBackingFile_fields (r : Replica) :
    r.insertBackingFile.info = r.info ∧ r.insertBackingFile.dir = r.dir := by
  unfold insertBackingFile
  split <;> exact ⟨rfl, rfl⟩

/-- The end of `construct`. -/
def finished (r : Replica) (parent : String) : Replica :=
  let r := { r with info := { r.info with parent := parent } }.insertBackingFile
  { r with dir := { r.dir with volumeMeta := { r.info with dirty := true } } }

/-- What `construct` opened is in order once it has the backing file. -/
theorem finished_inOrder (hw : Wired none r) (ho : Opened none r)
    (hout : ∀ f, r.info.backingFile = some f → f.Outside) {disk : Disk}
    (hd : r.diskData.lookup r.info.head = some disk) : InOrder (r.finished disk.parent) := by
  let r1 : Replica := { r with info := { r.info with parent := disk.parent } }
  have hw1 : Wired none r1 :=
    ⟨hw.writable, hw.tree, hw.records, hw.backed, hw.outside, hw.children, hw.live, hw.volumeMeta⟩
  have ho1 : Opened none r1 := ⟨ho.images, ho.files⟩
  have hw2 := insertBackingFile_wired hw1 hout
  have ho2 := insertBackingFile_opened hw1 ho1
  obtain ⟨hinfo, hdir⟩ := insertBackingFile_fields r1
  have hmeta : r.dir.metas.lookup r.info.head = some disk := by
    rcases hw.backed hd with hm | ⟨f, hf, -⟩
    · exact hm
    · simp at hf
  have hback : r1.insertBackingFile.info.backingFile = r1.info.backingFile := by rw [hinfo]
  refine ⟨?_, ?_, ?_⟩
  · show Wired r1.insertBackingFile.info.backingFile _
    rw [hback]
    exact ⟨hw2.writable, hw2.tree, hw2.records, hw2.backed, hw2.outside, hw2.children, hw2.live,
      ⟨rfl, rfl⟩⟩
  · show Opened r1.insertBackingFile.info.backingFile _
    rw [hback]
    exact ⟨ho2.images, ho2.files⟩
  · show parents r1.insertBackingFile.dir.metas r1.insertBackingFile.info.head
      = some r1.insertBackingFile.info.parent
    rw [hdir, hinfo]
    exact parents_eq_some.mpr ⟨disk, hmeta, rfl⟩

/-! ## Expanding -/

/-- The volume's table reaches as far as the new size. -/
def expanded (r : Replica) (size : Nat) : Replica := { r with volume := r.volume.expand size }

/-- An `Expand` that succeeds changed nothing or grew the chain. -/
theorem expand_cases {r r' : Replica} (hw : Wired b r)
    (hok : r.expand snapshotMaxCount size created = (r', .ok ())) :
    size % volumeSectorSize = 0 ∧ ((r' = r ∧ r.info.size = size) ∨ r.info.size < size
      ∧ ∃ r1 newHead snap, Grown r r1 (generateSnapshotDiskName (generateExpansionSnapshotName size))
        newHead created size snap ∧ r' = r1.expanded size) := by
  unfold expand at hok
  split at hok
  · simp at hok
  rename_i hmod
  split at hok
  · simp at hok
  rename_i hle
  split at hok
  · rename_i heq
    exact ⟨by simpa using hmod, Or.inl ⟨(Prod.mk.inj hok).1.symm, heq⟩⟩
  rename_i hne
  split at hok
  · simp at hok
  · rename_i r1 hcreate
    obtain ⟨newHead, snap, hg⟩ := createDisk_ok hw hcreate
    exact ⟨by simpa using hmod, Or.inr ⟨by omega, r1, newHead, snap, hg, (Prod.mk.inj hok).1.symm⟩⟩

theorem Wired.expanded (h : Wired b r) (size : Nat) :
    Wired b (r.expanded size) :=
  ⟨h.writable, h.tree, h.records, h.backed, h.outside, h.children, h.live, h.volumeMeta⟩

theorem Opened.expanded (h : Opened b r) (size : Nat) :
    Opened b (r.expanded size) := ⟨h.images, h.files⟩

theorem expand_wired {r r' : Replica} (hw : Wired b r) (ho : Opened b r)
    (hok : r.expand snapshotMaxCount size created = (r', .ok ())) : Wired b r' ∧ Opened b r' := by
  rcases (expand_cases hw hok).2 with ⟨rfl, -⟩ | ⟨-, r1, newHead, snap, hg, rfl⟩
  · exact ⟨hw, ho⟩
  · exact ⟨(hg.wired hw).expanded size, (hg.opened hw ho).expanded size⟩

theorem expand_backingFile {r r' : Replica} (hw : Wired b r)
    (hok : r.expand snapshotMaxCount size created = (r', .ok ())) :
    r'.info.backingFile = r.info.backingFile := by
  rcases (expand_cases hw hok).2 with ⟨rfl, -⟩ | ⟨-, r1, newHead, snap, hg, rfl⟩
  · rfl
  · show r1.info.backingFile = _
    rw [hg.info]

theorem expand_inOrder {r r' : Replica} (h : InOrder r)
    (hok : r.expand snapshotMaxCount size created = (r', .ok ())) :
    InOrder r' := by
  rcases (expand_cases h.wired hok).2 with ⟨rfl, -⟩ | ⟨-, r1, newHead, snap, hg, rfl⟩
  · exact h
  · obtain ⟨hw, ho, hp⟩ := hg.inOrder h.wired h.opened
    exact ⟨hw.expanded size, ho.expanded size, hp⟩

/-! ## Constructing -/

/-- **Opening a directory without an expansion**, as a function of the chain of its head. -/
theorem construct_eq (h : Openable dir) (hexp : a.isExpandingEncryptedDevRequired = false)
    {p : String} (hl : Path "" (parents dir.metas) dir.volumeMeta.head l)
    (hp : parents dir.metas dir.volumeMeta.head = some p) :
    construct dir a = if a.size % a.sectorSize ≠ 0 then .error (.notMultiple a.size a.sectorSize)
      else if maximumTotalSnapshotCount < l.length
        then .error (.replica (.chainTooLong l.length)) else .ok ((openedOn dir a l).finished p) := by
  obtain ⟨d, hd, rfl⟩ := parents_eq_some.mp hp
  unfold construct openOrCreate
  rw [if_pos h.entries_ne, openLiveChain_eq h hl]
  split
  · rfl
  · by_cases h250 : maximumTotalSnapshotCount < l.length
    · rw [if_pos h250, if_pos h250]
    · rw [if_neg h250, if_neg h250]
      dsimp only
      rw [hexp, if_neg Bool.false_ne_true]
      dsimp only
      rw [show (openedOn dir a l).diskData.lookup (openedOn dir a l).info.head = some d from hd]
      rfl

/-- What `construct` has opened or created before it puts in the backing file. -/
theorem openOrCreate_wired (h : Openable dir) (hok : (unopened dir a).openOrCreate a = .ok r) :
    Wired none r ∧ Opened none r ∧ r.info.backingFile = a.backingFile := by
  obtain ⟨p, hp⟩ := h.tree.has_head
  obtain ⟨l, hl⟩ := h.tree.rooted.path hp
  have hw := wired_openedOn (a := a) h hl
  have ho := opened_openedOn (a := a) h l
  unfold openOrCreate at hok
  rw [if_pos h.entries_ne, openLiveChain_eq h hl] at hok
  by_cases h250 : maximumTotalSnapshotCount < l.length
  · rw [if_pos h250] at hok
    simp at hok
  · rw [if_neg h250] at hok
    dsimp only at hok
    split at hok
    · split at hok
      · simp at hok
      · rename_i r1 hexp
        obtain rfl := Except.ok.inj hok
        obtain ⟨hw', ho'⟩ := expand_wired hw ho hexp
        exact ⟨hw', ho', expand_backingFile hw hexp⟩
    · obtain rfl := Except.ok.inj hok
      exact ⟨hw, ho, rfl⟩

/-- The replica of an empty directory with its first head. -/
def firstHead (data : Ino → File) (a : OpenArgs) : Replica :=
  let r := unopened (Dir.recovered data a.size) a
  let name := volumeHeadDiskName 0
  let disk : Disk := ⟨"", false, false, a.created, none⟩
  r.first ⟨{ r.dir with
      data := Function.update data r.freshIno (File.empty a.size)
      imgs := AList.insert name r.freshIno ∅
      metas := AList.insert name disk ∅ }, name, r.freshIno, disk⟩
    { r.info with head := name, dirty := true, parent := "", size := a.size }

theorem openOrCreate_firstHead {data : Ino → File}
    (hok : (unopened (Dir.recovered data a.size) a).openOrCreate a = .ok r) :
    r = firstHead data a := by
  unfold openOrCreate at hok
  rw [if_neg (by simp [unopened, Dir.recovered])] at hok
  split at hok
  · simp at hok
  split at hok
  · simp at hok
  rename_i r1 hcreate
  obtain rfl := Except.ok.inj hok
  unfold createDisk at hcreate
  split at hcreate
  · simp at hcreate
  split at hcreate
  · simp at hcreate
  rw [show (unopened (Dir.recovered data a.size) a).info.head = "" from rfl] at hcreate
  dsimp only at hcreate
  rw [if_pos rfl, if_neg (fun hh => hh.1 rfl)] at hcreate
  split at hcreate
  · simp at hcreate
  rename_i nh hnh
  obtain ⟨hnext, -, hfile, hdisk, hdir⟩ := createNewHead_ok hnh
  have hname : nh.name = volumeHeadDiskName 0 := (Option.some.inj hnext).symm
  rw [Dir.linkDisk, if_pos rfl] at hcreate
  dsimp only at hcreate
  rw [if_pos rfl] at hcreate
  rw [← (Prod.mk.inj hcreate).1, firstHead, hname, hfile, hdisk, hdir, hname, hdisk]
  rfl

section

variable (data : Ino → File) (a : OpenArgs)

theorem metas_firstHead : (firstHead data a).dir.metas
    = AList.insert (volumeHeadDiskName 0) ⟨"", false, false, a.created, none⟩ ∅ := rfl

theorem imgs_firstHead : (firstHead data a).dir.imgs
    = AList.insert (volumeHeadDiskName 0) (unopened (Dir.recovered data a.size) a).freshIno ∅ := rfl

/-- The first head of an empty directory. -/
theorem wired_firstHead : Wired none (firstHead data a) := by
  have hpar : parents (firstHead data a).dir.metas
      = insertLeaf (fun _ => none) (volumeHeadDiskName 0) "" := by
    funext x
    rw [parents, metas_firstHead, lookup_insert_eq, insertLeaf, Function.update_apply,
      AList.lookup_empty]
    split <;> rfl
  have hempty : volumeHeadDiskName 0 ≠ "" := volumeHeadDiskName_ne_empty 0 (by omega)
  have hdata : ∀ x, (firstHead data a).diskData.lookup x = (firstHead data a).dir.metas.lookup x := by
    intro x
    rw [show (firstHead data a).diskData = (firstHead data a).dir.metas.erase "" from rfl,
      metas_firstHead, lookup_erase_eq, lookup_insert_eq, AList.lookup_empty]
    split
    · rename_i hx
      rw [if_neg (by rw [hx]; exact hempty.symm)]
    · rfl
  have htree : DiskTree (parents (firstHead data a).dir.metas) (volumeHeadDiskName 0) := by
    rw [hpar]
    exact DiskTree.single
  refine ⟨rfl, htree, fun hx => by rw [hdata]; exact hx, fun hx => Or.inl (by rw [← hdata]; exact hx),
    fun hf => absurd hf (by simp), ?_, ⟨[volumeHeadDiskName 0], ?_, rfl⟩, ⟨rfl, rfl⟩⟩
  · rw [hpar]
    refine ⟨fun {q c} hq => ?_, fun {q s} hs => absurd hs (by simp [firstHead, first, unopened,
      readChildren, Dir.recovered])⟩
    have hnone : (firstHead data a).diskChildrenMap.lookup q = none := rfl
    rw [hnone, insertLeaf, Function.update_apply]
    split
    · simpa using hq.symm
    · simp
  · rw [hpar]
    exact Path.insertLeaf_self .nil rfl hempty

theorem opened_firstHead : Opened none (firstHead data a) := by
  refine ⟨fun x => ?_, ?_⟩
  · rw [metas_firstHead, imgs_firstHead, lookup_insert_eq, lookup_insert_eq]
    split <;> rfl
  · have hino : (firstHead data a).dir.ino (volumeHeadDiskName 0)
        = (unopened (Dir.recovered data a.size) a).freshIno := by
      rw [Dir.ino, imgs_firstHead, lookup_insert_eq, if_pos rfl]
      rfl
    show [0, (unopened (Dir.recovered data a.size) a).freshIno]
      = [0, (firstHead data a).dir.ino (volumeHeadDiskName 0)]
    rw [hino]

end

/-- Whatever `construct` opened is in order. -/
theorem construct_inOrder (hopen : ∀ {r}, (unopened dir a).openOrCreate a = .ok r →
      Wired none r ∧ Opened none r ∧ r.info.backingFile = a.backingFile)
    (hout : a.Outside)
    (hok : construct dir a = .ok r) : InOrder r := by
  unfold construct at hok
  split at hok
  · simp at hok
  split at hok
  · simp at hok
  rename_i r1 hr1
  obtain ⟨hw, ho, hb⟩ := hopen hr1
  split at hok
  · simp at hok
  rename_i disk hd
  obtain rfl := Except.ok.inj hok
  exact finished_inOrder hw ho (fun f hf => hout f (by rw [← hb]; exact hf)) hd

/-- What `New` makes of an empty directory. -/
theorem construct_recovered {data : Ino → File} {a : OpenArgs}
    (hok : construct (Dir.recovered data a.size) a = .ok r) : r = (firstHead data a).finished "" := by
  unfold construct at hok
  split at hok
  · simp at hok
  split at hok
  · simp at hok
  rename_i r1 hr1
  obtain rfl := openOrCreate_firstHead hr1
  have hd : (firstHead data a).diskData.lookup (firstHead data a).info.head
      = some ⟨"", false, false, a.created, none⟩ := by
    refine (wired_firstHead data a).records ?_
    rw [metas_firstHead, show (firstHead data a).info.head = volumeHeadDiskName 0 from rfl,
      lookup_insert_eq, if_pos rfl]
  rw [hd] at hok
  exact (Except.ok.inj hok).symm

theorem InOrder.openable (h : InOrder r) : Openable r.dir :=
  ⟨by rw [h.wired.volumeMeta.1]; exact h.wired.tree, h.opened.images⟩

/-- A directory with disks is only opened if the chain of its head ends. -/
theorem chain_of_construct {x : String} {d : Disk}
    (hx : dir.metas.lookup x = some d) (hok : construct dir a = .ok r) :
    ∃ l, IsChain (dir.metas.lookup ·) dir.volumeMeta.head l := by
  have hlen : (unopened dir a).diskData.entries.length ≠ 0 := by
    have hmem : x ∈ dir.metas.keys := AList.mem_keys.mpr (AList.lookup_isSome.mp (by rw [hx]; rfl))
    have : 0 < dir.metas.keys.length := List.length_pos_of_mem hmem
    rw [AList.keys, List.keys, List.length_map] at this
    exact this.ne'
  unfold construct openOrCreate openLiveChain at hok
  rw [if_pos hlen] at hok
  cases hc : chain (unopened dir a).diskData (unopened dir a).info.head with
  | error e =>
    rw [hc] at hok
    split at hok <;> exact absurd hok (by simp)
  | ok l => exact ⟨l, isChain_of_chain hc⟩

theorem reload_ok {r r' : Replica} (hok : reload snapshotMaxCount sectorSize r = .ok r') :
    ∃ a r1, construct r.dir a = .ok r1 ∧ a.backingFile = r.info.backingFile ∧ a.size = r.info.size
      ∧ a.isExpandingEncryptedDevRequired = false
      ∧ r' = { r1 with info := { r1.info with dirty := r.info.dirty } } := by
  unfold reload at hok
  split at hok
  · simp at hok
  · rename_i r1 h1
    exact ⟨_, r1, h1, rfl, rfl, rfl, (Except.ok.inj hok).symm⟩

theorem InOrder.dirty (h : InOrder r) (dirty : Bool) :
    InOrder { r with info := { r.info with dirty := dirty } } :=
  ⟨⟨h.wired.writable, h.wired.tree, h.wired.records, h.wired.backed, h.wired.outside,
    h.wired.children, h.wired.live, h.wired.volumeMeta⟩, ⟨h.opened.images, h.opened.files⟩, h.parent⟩

/-! ## Reverting -/

/-- The directory a revert opens again. -/
def revertedDir (r : Replica) (newHead name created : String) : Dir where
  data := Function.update r.dir.data r.freshIno (File.empty r.info.size)
  imgs := (r.dir.imgs.insert newHead r.freshIno).erase r.info.head
  metas := (r.dir.metas.insert newHead ⟨name, false, false, created, none⟩).erase r.info.head
  volumeMeta := { r.info with head := newHead, dirty := true, parent := name }

/-- **A revert that succeeds** was to a snapshot that is not marked as removed. -/
theorem revert_ok {r r' : Replica} (h : InOrder r)
    {name created : String} (hok : r.revert snapshotMaxCount sectorSize name created = .ok r') :
    ∃ newHead disk, nextFile r.info.head = some newHead ∧ r.dir.metas.lookup name = some disk
      ∧ disk.removed = false ∧ name ≠ r.info.head
      ∧ reload snapshotMaxCount sectorSize { r with dir := r.revertedDir newHead name created }
        = .ok r' := by
  unfold revert at hok
  split at hok
  · simp at hok
  split at hok
  · simp at hok
  rename_i disk hd
  split at hok
  · simp at hok
  rename_i hrem
  split at hok
  · simp at hok
  rename_i nh hnh
  obtain ⟨hnext, himg, hfile, hdisk, hdir⟩ := createNewHead_ok hnh
  obtain ⟨⟨n, hn, hnamed⟩, hne, -, hempty, -⟩ := h.wired.tree.next_head hnext
  have hreload : reload snapshotMaxCount sectorSize { r with dir := r.revertedDir nh.name name created }
      = .ok r' := by
    rw [← hok]
    congr 2
    rw [Dir.rmDisk, if_neg h.wired.head_ne_empty, hdir, hdisk]
    rfl
  obtain ⟨a, r1, hcons, -⟩ := reload_ok hreload
  have hmetas : ∀ x, (r.revertedDir nh.name name created).metas.lookup x = if x = r.info.head then none
      else if x = nh.name then some ⟨name, false, false, created, none⟩ else r.dir.metas.lookup x := by
    intro x
    rw [revertedDir, lookup_erase_eq, lookup_insert_eq]
  have hnew : (r.revertedDir nh.name name created).metas.lookup nh.name
      = some ⟨name, false, false, created, none⟩ := by
    rw [hmetas, if_neg hne, if_pos rfl]
  -- the chain of the new head goes on with the name, so it has a record
  obtain ⟨l, hl⟩ := chain_of_construct hnew hcons
  obtain ⟨v, -, hv⟩ := (isChain_iff.mp hl).parent (x := nh.name)
    (parents_eq_some.mpr ⟨_, hnew, rfl⟩) hempty
  have hnode : ∃ y, parents (r.revertedDir nh.name name created).metas name = some y := by
    cases hv with
    | nil => exact absurd rfl (h.wired.records_ne_empty hd)
    | cons _ hp _ => exact ⟨_, hp⟩
  obtain ⟨y, hy⟩ := hnode
  obtain ⟨d, hd', -⟩ := parents_eq_some.mp hy
  rw [hmetas] at hd'
  have hnh : name ≠ r.info.head := by
    intro heq
    rw [if_pos heq] at hd'
    simp at hd'
  rw [if_neg hnh] at hd'
  have hmeta : r.dir.metas.lookup name = some disk := by
    rcases h.wired.backed hd with hm | ⟨f, hf, rfl, -⟩
    · exact hm
    · -- a backing file has no metadata
      exfalso
      have hfn : f.path ≠ nh.name := fun heq =>
        (h.wired.outside hf).2 (Or.inl ⟨n, hn, heq.trans hnamed⟩)
      rw [if_neg hfn, parents_eq_none.mp (h.wired.backing_not_disk hf)] at hd'
      simp at hd'
  exact ⟨nh.name, disk, hnext, hmeta, by simpa using hrem, hnh, hreload⟩

section

variable (h : InOrder r) {newHead name : String} (created : String) {disk : Disk}
  (hnext : nextFile r.info.head = some newHead) (hd : r.dir.metas.lookup name = some disk)
  (hne : name ≠ r.info.head)
include h hnext hd hne

/-- The directory after a revert has a tree again. -/
theorem openable_revertedDir :
    parents (r.revertedDir newHead name created).metas
        = dropLeaf (insertLeaf (parents r.dir.metas) newHead name) r.info.head
      ∧ Openable (r.revertedDir newHead name created) := by
  have hpar : parents (r.revertedDir newHead name created).metas
      = dropLeaf (insertLeaf (parents r.dir.metas) newHead name) r.info.head := by
    funext x
    rw [parents, revertedDir, lookup_erase_eq, lookup_insert_eq]
    simp only [dropLeaf, insertLeaf, Function.update_apply]
    split_ifs <;> rfl
  refine ⟨hpar, ⟨?_, fun x => ?_⟩⟩
  · rw [hpar]
    exact h.wired.tree.rehead hnext (parents_eq_some.mpr ⟨disk, hd, rfl⟩) hne
  · rw [revertedDir, lookup_erase_eq, lookup_erase_eq, lookup_insert_eq, lookup_insert_eq]
    split
    · rfl
    · split
      · rfl
      · exact h.opened.images x

/-- The chain of the new head: the chain of the snapshot below it. -/
theorem path_revertedDir {v : List String}
    (hv : Path "" (parents r.dir.metas) name v) :
    Path "" (parents (r.revertedDir newHead name created).metas) newHead (newHead :: v)
      ∧ parents (r.revertedDir newHead name created).metas newHead = some name := by
  obtain ⟨-, hnh, hnone, hempty, -⟩ := h.wired.tree.next_head hnext
  obtain ⟨hpar, -⟩ := openable_revertedDir h created hnext hd hne
  rw [hpar]
  refine ⟨(hv.insertLeaf_self hnone hempty).dropLeaf (fun y hy => ?_) hnh, ?_⟩
  · simp only [insertLeaf, Function.update_apply] at hy
    split at hy
    · exact hne (Option.some.inj hy)
    · exact h.wired.tree.leaf y hy
  · rw [dropLeaf, Function.update_of_ne hnh, insertLeaf, Function.update_self]

end

theorem revert_inOrder {r r' : Replica} (h : InOrder r)
    {name created : String} (hok : r.revert snapshotMaxCount sectorSize name created = .ok r') :
    InOrder r' := by
  obtain ⟨newHead, disk, hnext, hd, -, hne, hreload⟩ := revert_ok h hok
  obtain ⟨a, r1, hcons, hb, -, -, rfl⟩ := reload_ok hreload
  obtain ⟨-, hopen⟩ := openable_revertedDir h created hnext hd hne
  refine InOrder.dirty (construct_inOrder (openOrCreate_wired hopen) (fun f hf => ?_) hcons) _
  rw [hb] at hf
  exact h.wired.outside hf

end Replica

end WeftBlock
