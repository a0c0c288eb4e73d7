import WeftBlock.Replica.Sound

/-!
# Snapshots are immutable, writes are exact

A write goes to the image of the head, a snapshot puts a new head on top, and a revert
starts one elsewhere. None of them touches the image or the record of a disk that is a
snapshot already (`Kept`), so what is read through it stays as it is. The live volume
shows the written bytes after a write, the same as before after a snapshot, and the
content of the snapshot after a revert to it.
-/

namespace WeftBlock

open Maps Forest Layers

variable {l : List String}

/-- A snapshot whose chain is too long can not be opened. -/
theorem snapshotByte_of_long {dir : Dir} {name : String} (p : Nat)
    (backingFile : Option BackingFile) (hc : IsChain (dir.metas.lookup ·) name l)
    (hlen : maximumTotalSnapshotCount < l.length) : snapshotByte dir name backingFile p = none := by
  unfold snapshotByte newReadOnly
  rw [chain_of_isChain hc]
  dsimp only [bind, Except.bind]
  rw [if_pos hlen]

variable {snapshotMaxCount : Int} {buf : List UInt8} {p : Nat} {offset : Nat}

namespace Replica

section

variable {r : Replica} (h : Sound r) (hl : Path "" (parents r.dir.metas) r.info.head l)
include h hl

theorem Sound.layers_eq :
    r.view.layers = r.dir.stack r.info.backingFile l := by
  rw [DiffDisk.layers, show r.view.files = r.volume.files.map r.dir.data from rfl, h.files hl,
    Dir.stack]
  rw [List.cons_append, List.map_cons, List.tail_cons, List.map_append, List.reverse_append,
    List.map_map, List.map_reverse, List.reverse_reverse]
  congr 1
  cases r.info.backingFile <;> rfl

theorem Sound.visible_eq (p : Nat) :
    r.view.visible p = r.dir.showing r.info.backingFile l p := by
  have htwo := h.aligned.two_le
  rw [← h.aligned.length] at htwo
  have hss : r.view.sectorSize = volumeSectorSize := h.sectorSize
  rw [DiffDisk.visible_eq_through (by rw [hss]; decide)
    (by rw [show r.view.files.length = r.volume.files.length from List.length_map _]; exact htwo),
    hss, h.layers_eq hl]
  rfl

end

/-! ## What is kept -/

/-- Every snapshot of `r` is one of `r'`, with the same parent and the same image. -/
structure Kept (r r' : Replica) : Prop where
  backing : r'.info.backingFile = r.info.backingFile
  size : r.info.size ≤ r'.info.size
  base : ∀ {f}, r.info.backingFile = some f → r'.dir.data f.disk = r.dir.data f.disk
  snapshots : ∀ {x y}, parents r.dir.metas x = some y → x ≠ r.info.head →
    parents r'.dir.metas x = some y ∧ x ≠ r'.info.head
      ∧ r'.dir.data (r'.dir.ino x) = r.dir.data (r.dir.ino x)

theorem Kept.refl (r : Replica) : Kept r r :=
  ⟨rfl, Nat.le_refl _, fun _ => rfl, fun hx hne => ⟨hx, hne, rfl⟩⟩

theorem Kept.trans {r r1 r2 : Replica} (h1 : Kept r r1) (h2 : Kept r1 r2) : Kept r r2 := by
  refine ⟨h2.backing.trans h1.backing, Nat.le_trans h1.size h2.size, fun {f} hf => ?_,
    fun {x y} hx hne => ?_⟩
  · rw [h2.base (by rw [h1.backing]; exact hf), h1.base hf]
  · obtain ⟨hx1, hne1, hd1⟩ := h1.snapshots hx hne
    obtain ⟨hx2, hne2, hd2⟩ := h2.snapshots hx1 hne1
    exact ⟨hx2, hne2, hd2.trans hd1⟩

variable {r r' : Replica} {size : Nat}

/-- A kept snapshot has the same chain, and the same files in it. -/
theorem Kept.stack (hk : Kept r r') (h : InOrder r) {x : String}
    (hl : Path "" (parents r.dir.metas) x l) (hne : x ≠ r.info.head) :
    Path "" (parents r'.dir.metas) x l
      ∧ r'.dir.stack r'.info.backingFile l = r.dir.stack r.info.backingFile l := by
  have hnode : ∀ y ∈ l, ∃ z, parents r.dir.metas y = some z ∧ y ≠ r.info.head := by
    intro y hy
    obtain ⟨z, hz⟩ := hl.mem_node hy
    refine ⟨z, hz, ?_⟩
    rintro rfl
    exact hl.not_mem_leaf h.wired.tree.leaf hne hy
  refine ⟨hl.congr (fun y hy => ?_), ?_⟩
  · obtain ⟨z, hz, hyh⟩ := hnode y hy
    rw [hz]
    exact (hk.snapshots hz hyh).1
  · rw [Dir.stack, Dir.stack, hk.backing]
    congr 1
    · refine List.map_congr_left (fun y hy => ?_)
      obtain ⟨z, hz, hyh⟩ := hnode y hy
      exact (hk.snapshots hz hyh).2.2
    · cases hb : r.info.backingFile with
      | none => rfl
      | some f => rw [Option.map_some, Option.map_some, hk.base hb]

/-- What is read through a snapshot of a sound replica. -/
theorem Sound.snapshotByte_eq (h : Sound r) {x : String} (hx : x ≠ "")
    (hl : Path "" (parents r.dir.metas) x l) (hp : p < r.info.size) :
    snapshotByte r.dir x r.info.backingFile p
      = if l.length ≤ maximumTotalSnapshotCount then some (r.dir.showing r.info.backingFile l p)
        else none := by
  have hc := isChain_iff.mpr hl
  have hsz := h.inOrder.wired.volumeMeta.2
  split
  · rename_i hle
    refine WeftBlock.snapshotByte_eq _ hc hx hle (fun y hy => ?_) (by rw [hsz]; exact h.size_mod)
      (by rw [hsz]; exact hp)
    obtain ⟨z, hz⟩ := hl.mem_node hy
    exact ⟨_, h.image hz⟩
  · rename_i hle
    exact snapshotByte_of_long p _ hc (Nat.lt_of_not_le hle)

/-- **Every snapshot reads the same.** -/
def Immutable (r r' : Replica) : Prop :=
  ∀ x, r.IsSnapshot x → r'.IsSnapshot x ∧ ∀ p, p < r.info.size →
    snapshotByte r'.dir x r'.info.backingFile p = snapshotByte r.dir x r.info.backingFile p

theorem Kept.immutable (hk : Kept r r') (h : Sound r) (h' : Sound r') :
    Immutable r r' := by
  intro x hx
  obtain ⟨hne, d, hd⟩ := hx
  have hnode := parents_eq_some.mpr ⟨d, hd, rfl⟩
  obtain ⟨l, hl⟩ := h.inOrder.wired.tree.rooted.path hnode
  obtain ⟨hnode', hne', -⟩ := hk.snapshots hnode hne
  obtain ⟨d', hd', -⟩ := parents_eq_some.mp hnode'
  obtain ⟨hl', hstack⟩ := hk.stack h.inOrder hl hne
  have hempty := h.inOrder.wired.tree.rooted.ne_root hnode
  refine ⟨⟨hne', d', hd'⟩, fun p hp => ?_⟩
  rw [h.snapshotByte_eq hempty hl hp, h'.snapshotByte_eq hempty hl' (Nat.lt_of_lt_of_le hp hk.size),
    Dir.showing, Dir.showing, hstack]

/-! ## What each call keeps -/

section

variable {r r' : Replica} (h : Sound r)
include h

theorem Grown.kept {s newHead created : String} {snap : Disk}
    (hg : Grown r r' (generateSnapshotDiskName s) newHead created size snap)
    (hle : r.info.size ≤ size) : Kept r (r'.expanded size) := by
  obtain ⟨-, -, -, hnone, hunused, -⟩ := hg.names h.inOrder.wired
  refine ⟨by show r'.info.backingFile = _; rw [hg.info], by show _ ≤ r'.info.size; rw [hg.info]; exact hle,
    fun {f} hf => ?_, fun {x y} hx hne => ?_⟩
  · show r'.dir.data f.disk = _
    rw [hg.data, Function.update_of_ne]
    exact (lt_freshIno (Or.inr (Or.inr ⟨f, hf, rfl⟩))).ne
  · have hxs := ne_of_node hx hunused
    have hxn := ne_of_node hx hnone
    refine ⟨?_, ?_, ?_⟩
    · show parents r'.dir.metas x = some y
      rw [parents, hg.metas, if_neg hne, if_neg hxs, if_neg hxn]
      exact hx
    · show x ≠ r'.info.head
      rw [hg.info]
      exact hxn
    · show r'.dir.data (r'.dir.ino x) = _
      rw [hg.ino_eq hne hxs hxn, hg.data, Function.update_of_ne]
      exact (lt_freshIno (Or.inl ⟨x, h.image hx⟩)).ne

theorem snapshot_kept {name created : String}
    {userCreated : Bool} {labels : Option (List (String × String))}
    (hok : r.snapshot snapshotMaxCount name userCreated created labels = (r', .ok ())) :
    Kept r r' := by
  obtain ⟨newHead, snap, hg⟩ := createDisk_ok h.inOrder.wired hok
  have hk := hg.kept h (Nat.le_refl _)
  rw [hg.expanded_self h] at hk
  exact hk

theorem expand_kept {created : String} (hok : r.expand snapshotMaxCount size created = (r', .ok ())) :
    Kept r r' := by
  obtain ⟨-, ⟨rfl, -⟩ | ⟨hlt, r1, newHead, snap, hg, rfl⟩⟩ := expand_cases h.inOrder.wired hok
  · exact Kept.refl r'
  · exact hg.kept h hlt.le

section

variable (hshort : r.ChainShort) {n : Int}
  (hok : r.writeAt buf offset (fun _ => none) = (r', n, none))
include hshort hok

/-- A write leaves every inode but the head's alone. -/
theorem writeAt_data {i : Ino}
    (hi : i ≠ r.dir.ino r.info.head) : r'.dir.data i = r.dir.data i := by
  obtain ⟨herr, rfl⟩ := writeAt_eq h.inOrder.wired.writable hok
  obtain ⟨-, -, ⟨f, hf, -⟩, -⟩ := DiffDisk.writeAt_ok (h.wf hshort) herr
  by_cases hmem : i ∈ r.volume.files
  · obtain ⟨idx, hidx⟩ := List.mem_iff_getElem?.mp hmem
    have hcount : (r.view.writeAt buf offset (fun _ => none)).disk.files.length
        = r.volume.files.length := by
      rw [hf, List.length_set]
      exact List.length_map _
    have hne : r.view.head ≠ idx := by
      rintro rfl
      rw [h.files_head] at hidx
      exact hi (Option.some.inj hidx).symm
    rw [data_store_of_open h.aligned hcount hidx, DiffDisk.file, hf, List.getD_eq_getElem?_getD,
      List.getElem?_set_ne hne, ← List.getD_eq_getElem?_getD]
    exact view_file hidx
  · exact data_store_of_not_open hmem

theorem writeAt_kept :
    Kept r r' := by
  have hdata : ∀ {i}, i ≠ r.dir.ino r.info.head → r'.dir.data i = r.dir.data i :=
    fun hi => writeAt_data h hshort hok hi
  obtain ⟨herr, rfl⟩ := writeAt_eq h.inOrder.wired.writable hok
  obtain ⟨y, hy⟩ := h.inOrder.wired.tree.has_head
  refine ⟨rfl, Nat.le_refl _, fun {f} hf => hdata (fun heq => ?_), fun {x z} hx hne => ⟨hx, hne, ?_⟩⟩
  · exact (h.apart.backing hf).2 r.info.head (by rw [heq]; exact h.image hy)
  · exact hdata (fun heq => hne (h.ino_inj hx hy heq))

end

end

/-- `r'` is `r` opened again with a new head on the snapshot `name`, whose chain is `v`. -/
structure Reverted (r r' : Replica) (newHead name created : String) (v : List String) : Prop where
  next : nextFile r.info.head = some newHead
  record : ∃ disk, r.dir.metas.lookup name = some disk
  ne_head : name ≠ r.info.head
  path : Path "" (parents r.dir.metas) name v
  short : (newHead :: v).length ≤ maximumTotalSnapshotCount
  head : r'.info.head = newHead
  size : r'.info.size = r.info.size
  backing : r'.info.backingFile = r.info.backingFile
  metas : r'.dir.metas = (r.revertedDir newHead name created).metas
  imgs : r'.dir.imgs = (r.revertedDir newHead name created).imgs
  data : r'.dir.data = Function.update r.dir.data r.freshIno (File.empty r.info.size)
  unknown : ∀ s, r'.view.loc s = 0

theorem revert_reverted (h : InOrder r) {sectorSize : Nat} {name created : String}
    (hok : r.revert snapshotMaxCount sectorSize name created = .ok r') :
    ∃ newHead v, Reverted r r' newHead name created v := by
  obtain ⟨newHead, disk, v, a, hnext, hd, hne, hv, hle, hb, hsize, rfl⟩ := revert_eq h hok
  obtain ⟨hinfo, hdir⟩ := finished_dir (r.revertedDir newHead name created) a (newHead :: v) name
  have hvol := finished_volume (r.revertedDir newHead name created) a (newHead :: v) name
  have hhead := congrArg Info.head hinfo
  have hsz := congrArg Info.size hinfo
  have hback := congrArg Info.backingFile hinfo
  have hmetas := congrArg Dir.metas hdir
  have himgs := congrArg Dir.imgs hdir
  have hdata := congrArg Dir.data hdir
  have hloc := congrArg Volume.location hvol
  refine ⟨newHead, v, hnext, ⟨disk, hd⟩, hne, hv, hle, hhead, hsz, hback.trans hb, hmetas, himgs,
    hdata, fun s => ?_⟩
  show ((openedOn (r.revertedDir newHead name created) a (newHead :: v)).finished
    name).volume.location.getD s 0 = 0
  rw [hloc, List.getD_eq_getElem?_getD]
  exact List.getElem?_getD_replicate_default_eq _ _ _

section Reverted

variable {r r' : Replica} {newHead name created : String} {v : List String}

section

variable (h : Sound r) (hr : Reverted r r' newHead name created v)
include h hr

/-- The disks but the old head and the new one are as they were. -/
theorem Reverted.disk {x y : String} (hx : parents r.dir.metas x = some y) (hxh : x ≠ r.info.head) :
    parents r'.dir.metas x = some y ∧ x ≠ newHead
      ∧ r'.dir.data (r'.dir.ino x) = r.dir.data (r.dir.ino x) := by
  obtain ⟨disk, hd⟩ := hr.record
  obtain ⟨hpar, -⟩ := openable_revertedDir h.inOrder created hr.next hd hr.ne_head
  obtain ⟨-, -, -, himgs⟩ := revertedDir_facts h created hr.next hd hr.ne_head hr.path
  obtain ⟨-, -, hnone, -⟩ := h.inOrder.wired.tree.next_head hr.next
  have hxn := ne_of_node hx hnone
  have hino : r'.dir.ino x = r.dir.ino x := by
    rw [Dir.ino, Dir.ino, hr.imgs, himgs x hxn hxh]
  refine ⟨?_, hxn, ?_⟩
  · rw [hr.metas, hpar, dropLeaf, Function.update_of_ne hxh, insertLeaf, Function.update_of_ne hxn, hx]
  · rw [hino, hr.data, Function.update_of_ne (lt_freshIno (Or.inl ⟨x, h.image hx⟩)).ne]

theorem Reverted.kept : Kept r r' := by
  refine ⟨hr.backing, hr.size.ge, fun {f} hf => ?_, fun {x y} hx hxh => ?_⟩
  · rw [hr.data, Function.update_of_ne (lt_freshIno (Or.inr (Or.inr ⟨f, hf, rfl⟩))).ne]
  · rw [hr.head]
    exact hr.disk h hx hxh

/-- The new head is empty, over the chain of the snapshot. -/
theorem Reverted.stack :
    Path "" (parents r'.dir.metas) r'.info.head (newHead :: v)
      ∧ r'.dir.stack r'.info.backingFile (newHead :: v)
        = File.empty r.info.size :: r.dir.stack r.info.backingFile v := by
  obtain ⟨disk, hd⟩ := hr.record
  obtain ⟨hpath, -, hino, -⟩ :=
    revertedDir_facts h created hr.next hd hr.ne_head hr.path
  have hk := ((hr.kept h).stack h.inOrder hr.path hr.ne_head).2
  have hnew : r'.dir.data (r'.dir.ino newHead) = File.empty r.info.size := by
    rw [Dir.ino] at hino
    rw [Dir.ino, hr.imgs, hino, hr.data, Function.update_self]
  refine ⟨by rw [hr.metas, hr.head]; exact hpath, ?_⟩
  rw [← hk, Dir.stack, List.map_cons, hnew]
  rfl

end

end Reverted

/-! ## What the head shows -/

theorem Sound.readByte_eq (h : Sound r) (hshort : r.ChainShort) (hp : p < r.info.size) :
    r.view.readByte p = r.view.content p :=
  DiffDisk.readByte_eq_content (h.wf hshort) (by
    rw [show r.view.size = r.volume.size from rfl, h.size]
    exact hp)

/-- With nothing in the cache the live volume shows what its files show. -/
theorem Sound.readByte_unknown (h : Sound r) (hshort : r.ChainShort)
    (hunknown : ∀ s, r.view.loc s = 0) (hl : Path "" (parents r.dir.metas) r.info.head l)
    (hp : p < r.info.size) :
    r.view.readByte p = r.dir.showing r.info.backingFile l p := by
  have hsz : r.view.size = r.info.size := h.size
  rw [h.readByte_eq hshort hp, DiffDisk.content_eq_visible (h.wf hshort)
    (fun s _ h0 => absurd (hunknown s) h0) (by rw [hsz]; exact hp), h.visible_eq hl]

theorem Grown.readByte (h : Sound r) (hshort : r.ChainShort) {s newHead created : String}
    {snap : Disk} (hg : Grown r r' (generateSnapshotDiskName s) newHead created size snap)
    (hmod : size % volumeSectorSize = 0) (hle : r.info.size ≤ size)
    (hshort' : (r'.expanded size).ChainShort) (hp : p < r.info.size) :
    (r'.expanded size).view.readByte p = r.view.readByte p := by
  have h' := hg.sound h hmod hle
  have hinfo : (r'.expanded size).info.size = size := by
    show r'.info.size = size
    rw [hg.info]
  rw [h'.readByte_eq hshort' (by rw [hinfo]; omega), h.readByte_eq hshort hp]
  exact (hg.onTop h hmod hle).content (h.wf hshort) (h'.wf hshort') p

theorem stopped_none (d : DiffDisk) (len offset : Nat) : d.stopped len offset
    (fun _ => none) = none := by
  have hnone : ∀ (l : List (Nat × Nat)) (i : Nat),
      DiffDisk.firstFault (fun _ => none) i l = none := by
    intro l
    induction l with
    | nil => exact fun _ => rfl
    | cons w l ih => exact fun i => ih (i + 1)
  exact hnone _ 0

theorem writeAt_readByte (h : Sound r) (hshort : r.ChainShort) {n : Int}
    (hok : r.writeAt buf offset (fun _ => none) = (r', n, none)) (hp : p < r.info.size) :
    r'.view.readByte p
      = if offset ≤ p ∧ p < offset + buf.length then buf.getD (p - offset) 0
        else r.view.readByte p := by
  have hw := h.wf hshort
  obtain ⟨herr, rfl⟩ := writeAt_eq h.inOrder.wired.writable hok
  obtain ⟨hvol, hw', ⟨f, hf, -⟩, hs, hz, -⟩ := DiffDisk.writeAt_ok hw herr
  have hview : (r.store (r.view.writeAt buf offset (fun _ => none)).disk).view
      = (r.view.writeAt buf offset (fun _ => none)).disk := by
    refine view_store h.aligned ?_ hs hz
    rw [hf, List.length_set]
    exact List.length_map _
  have hsz : r.view.size = r.info.size := h.size
  show (r.store (r.view.writeAt buf offset (fun _ => none)).disk).view.readByte p = _
  rw [hview, DiffDisk.readByte_eq_content hw' (by rw [hz, hsz]; exact hp), h.readByte_eq hshort hp]
  rcases hvol with h0 | hvol
  · -- nothing was written
    rw [if_neg (by omega), DiffDisk.writeAt]
    rw [if_pos h0]
  · have hres := DiffDisk.writeAt_result hw buf offset (fun _ => none) hvol
    rw [stopped_none] at hres
    exact hres.content p

theorem writeAt_succeeds (h : Sound r) (hshort : r.ChainShort)
    (hvol : offset + buf.length ≤ r.info.size) :
    ∃ r' n, r.writeAt buf offset (fun _ => none) = (r', n, none) := by
  have hres := DiffDisk.writeAt_result (h.wf hshort) buf offset (fun _ => none)
    (by rw [show r.view.size = r.volume.size from rfl, h.size]; exact hvol)
  rw [stopped_none] at hres
  unfold writeAt
  rw [if_neg (by rw [h.inOrder.wired.writable]; simp)]
  refine ⟨_, _, Prod.ext rfl (Prod.ext rfl ?_)⟩
  exact congrArg (Option.map _) hres.err

/-! ## Runs -/

/-- The calls that write to the head, or put a new one on top of it or elsewhere. -/
def Op.Appends : Op → Prop
  | .writeAt _ _ | .snapshot _ _ _ _ _ | .expand _ _ _ | .revert _ _ _ _ => True
  | _ => False

/-- What a call that took `r` to `r'` did to the live volume, up to the old size. -/
def HeadEffect (r : Replica) (op : Op) (r' : Replica) : Prop :=
  ∀ p, p < r.info.size →
    match op with
    | .writeAt buf offset => r'.view.readByte p
        = if offset ≤ p ∧ p < offset + buf.length then buf.getD (p - offset) 0
          else r.view.readByte p
    | .snapshot _ _ _ _ _ | .expand _ _ _ => r'.view.readByte p = r.view.readByte p
    | .revert _ _ name _ => snapshotByte r.dir name r.info.backingFile p = some (r'.view.readByte p)
        ∧ ∀ l, chain r.dir.metas name = .ok l →
          (∀ f ∈ r.dir.stack r.info.backingFile l, f.size ≤ p) → r'.view.readByte p = 0
    | _ => True

/-- Past the end of all files of a chain there are zeros. -/
theorem showing_eq_zero {dir : Dir} {backingFile : Option BackingFile}
    (h : ∀ f ∈ dir.stack backingFile l, f.size ≤ p) : dir.showing backingFile l p = 0 := by
  rw [Dir.showing, through]
  cases hf : (dir.stack backingFile l).findSome? (DiffDisk.holds volumeSectorSize p) with
  | none => rfl
  | some b =>
    obtain ⟨f, hmem, hb⟩ := List.exists_of_findSome?_eq_some hf
    unfold DiffDisk.holds at hb
    split at hb
    · rw [← Option.some.inj hb, File.byteAt_of_size_le (h f hmem)]
      rfl
    · simp at hb

theorem Reverted.headEffect (h : Sound r) (h' : Sound r') (hshort' : r'.ChainShort)
    {sectorSize : Nat} {newHead name created : String} {v : List String}
    (hr : Reverted r r' newHead name created v) :
    HeadEffect r (.revert snapshotMaxCount sectorSize name created) r' := by
  intro p hp
  obtain ⟨hl, hstack⟩ := hr.stack h
  obtain ⟨disk, hd⟩ := hr.record
  have hempty := h.inOrder.wired.tree.rooted.ne_root (parents_eq_some.mpr ⟨disk, hd, rfl⟩)
  have hread : r'.view.readByte p = r.dir.showing r.info.backingFile v p := by
    rw [h'.readByte_unknown hshort' hr.unknown (by rw [hr.head] at hl ⊢; exact hl)
      (by rw [hr.size]; exact hp), Dir.showing, hstack, Dir.showing]
    refine through_cons_of_none (if_neg (fun ho => ?_))
    obtain ⟨q, -, -, hq⟩ := File.hasExtent_iff.mp ho
    exact absurd hq (by simp [File.empty])
  have hlen := hr.short
  rw [List.length_cons] at hlen
  refine ⟨?_, fun l hl' hall => ?_⟩
  · rw [h.snapshotByte_eq hempty hr.path hp, if_pos (by omega), hread]
  · rw [chain_of_isChain (isChain_iff.mpr hr.path)] at hl'
    rw [hread]
    exact showing_eq_zero (Except.ok.inj hl' ▸ hall)

/-- **One call**: the replica stays sound, its snapshots are kept, and the head shows what it should. -/
theorem step_appends {env : Env} (h : Sound r) {op : Op} (hop : op.Appends) (hshort : r.ChainShort)
    (hshort' : r'.ChainShort) (hstep : step env r op = some r') :
    Sound r' ∧ Kept r r' ∧ HeadEffect r op r' := by
  cases op with
  | writeAt buf offset =>
    obtain ⟨n, hok⟩ := step_writeAt hstep
    exact ⟨writeAt_sound h (h.wf hshort) hok, writeAt_kept h hshort hok,
      fun p hp => writeAt_readByte h hshort hok hp⟩
  | snapshot snapshotMaxCount name userCreated created labels =>
    obtain ⟨v, hok⟩ := succeeded_eq_some hstep
    refine ⟨snapshot_sound h hok, snapshot_kept h hok, fun p hp => ?_⟩
    obtain ⟨newHead, snap, hg⟩ := createDisk_ok h.inOrder.wired hok
    have hself := hg.expanded_self h
    have hread := hg.readByte h hshort h.size_mod (Nat.le_refl _) (by rw [hself]; exact hshort') hp
    rw [hself] at hread
    exact hread
  | expand snapshotMaxCount size created =>
    obtain ⟨v, hok⟩ := succeeded_eq_some hstep
    refine ⟨expand_sound h hok, expand_kept h hok, fun p hp => ?_⟩
    obtain ⟨hmod, ⟨rfl, -⟩ | ⟨hlt, r1, newHead, snap, hg, rfl⟩⟩ := expand_cases h.inOrder.wired hok
    · rfl
    · exact hg.readByte h hshort hmod hlt.le hshort' hp
  | revert snapshotMaxCount sectorSize name created =>
    have hok := toOption_eq_some hstep
    obtain ⟨newHead, v, hr⟩ := revert_reverted h.inOrder hok
    exact ⟨revert_sound h hok, hr.kept h, hr.headEffect h (revert_sound h hok) hshort'⟩
  | new _ | markDiskAsRemoved _ | removeDiffDisk _ | replaceDisk _ _ | unmapAt _ _ | readAt _ _
  | preload _ => exact hop.elim

theorem run_kept {env : Env} (h : Sound r) {ops : List Op} (hops : ∀ op ∈ ops, op.Appends)
    (hlen : ∀ k r', Runs.run (step env) r (ops.take k) = some r' → r'.ChainShort)
    (hrun : Runs.run (step env) r ops = some r') : Sound r' ∧ Kept r r' := by
  have hstep : ∀ s, ∀ op ∈ ops, ∀ s', Sound s ∧ Kept r s → s.ChainShort → s'.ChainShort →
      step env s op = some s' → Sound s' ∧ Kept r s' := by
    intro s op hop s' hs hsh hsh' hstep
    obtain ⟨h', hk, -⟩ := step_appends hs.1 (hops op hop) hsh hsh' hstep
    exact ⟨h', hs.2.trans hk⟩
  exact Runs.run_through hstep ⟨h, Kept.refl r⟩ hlen hrun

/-- A snapshot, a write across two sectors, an expansion, and back to the snapshot. -/
def reverting : List Op :=
  [ .snapshot 250 "a" true "t" none, .writeAt [7, 8] 4095, .expand 250 12288 "t",
    .revert 250 512 "volume-snap-a.img" "t" ]

/-- The run, as far as the first `k` of its calls. -/
theorem exists_reverting {k : Nat} (hk : k < 5) :
    ∃ r r', construct (Dir.recovered (fun _ => File.empty 0) 8192) overBase = .ok r
      ∧ Runs.run (step .least) r (reverting.take k) = some r' ∧ r'.ChainShort := by
  have hall : ∀ k < 5, ((construct (Dir.recovered (fun _ => File.empty 0) 8192)
      overBase).toOption.bind (fun r => Runs.run (step .least) r (reverting.take k))).any
      (fun r => decide r.ChainShort) = true := by decide +kernel
  obtain ⟨r', hr', hs⟩ := (Option.any_eq_true _ _).mp (hall k hk)
  obtain ⟨r, hr, hr'⟩ := Option.bind_eq_some_iff.mp hr'
  exact ⟨r, r', toOption_eq_some hr, hr', of_decide_eq_true hs⟩

end Replica

end WeftBlock
