import WeftBlock.Replica.Ops
import WeftBlock.Replica.HeadWrites

/-!
# A sound replica

A replica in order keeps its records straight. For its *content* more is needed: no two
disks share an image, so that a write to the head changes no snapshot, and the location
table has one entry for each sector of the volume, naming an open file. `Sound` says so,
and every operation that succeeds keeps it.
-/

namespace WeftBlock

open Maps Forest

/-- No two disks share an image, and none of them has the backing file's. -/
structure Dir.Apart (dir : Dir) (b : Option BackingFile) : Prop where
  pos : ∀ {x i}, dir.imgs.lookup x = some i → i ≠ 0
  inj : ∀ {x y i}, dir.imgs.lookup x = some i → dir.imgs.lookup y = some i → x = y
  backing : ∀ {f}, b = some f → f.disk ≠ 0 ∧ ∀ x, dir.imgs.lookup x ≠ some f.disk

theorem Dir.ino_of_lookup {dir : Dir} {x : String} {i : Ino} (h : dir.imgs.lookup x = some i) :
    dir.ino x = i := by
  rw [Dir.ino, h]
  rfl

variable {snapshotMaxCount : Int} {sectorSize : Nat}

namespace Replica

/-- In order, with images of their own for the disks and a table that fits the volume. -/
structure Sound (r : Replica) : Prop where
  inOrder : InOrder r
  apart : r.dir.Apart r.info.backingFile
  sectorSize : r.volume.sectorSize = volumeSectorSize
  size : r.volume.size = r.info.size
  table : r.volume.location.length * volumeSectorSize = r.info.size
  ranged : ∀ s, (r.view.loc s).toNat < r.volume.files.length
  head : (r.dir.data (r.dir.ino r.info.head)).size = r.info.size

namespace Sound

variable {r : Replica}

section

variable (h : Sound r)
include h

theorem size_mod : r.info.size % volumeSectorSize = 0 := by
  rw [← h.table, Nat.mul_mod_left]

theorem image {x y : String} (hx : parents r.dir.metas x = some y) :
    r.dir.imgs.lookup x = some (r.dir.ino x) := by
  obtain ⟨d, hd, -⟩ := parents_eq_some.mp hx
  have himg := h.inOrder.opened.images x
  rw [hd] at himg
  obtain ⟨i, hi⟩ := Option.isSome_iff_exists.mp himg
  rw [Dir.ino_of_lookup hi, hi]

theorem ino_inj {x y a b : String} (hx : parents r.dir.metas x = some a)
    (hy : parents r.dir.metas y = some b) (heq : r.dir.ino x = r.dir.ino y) : x = y :=
  h.apart.inj (h.image hx) (by rw [heq]; exact h.image hy)

theorem files {l : List String} (hl : Path "" (parents r.dir.metas) r.info.head l) :
    r.volume.files = 0 :: (r.info.backingFile.map BackingFile.disk).toList
      ++ l.reverse.map r.dir.ino := by
  obtain ⟨l', hl', hactive⟩ := h.inOrder.wired.live
  rw [h.inOrder.opened.files, hactive, Wired.drop_active, hl'.unique hl]

theorem aligned : r.Aligned := by
  obtain ⟨l, hl, hactive⟩ := h.inOrder.wired.live
  obtain ⟨p, v, -, hpath, -, -⟩ := h.inOrder.wired.exists_chain
  have hlen : 1 ≤ l.length := by rw [hl.unique hpath]; simp
  have hfiles := h.files hl
  refine ⟨h.inOrder.represents.length, ?_, ?_⟩
  · -- nil, the backing file and the images are all different
    rw [hfiles, List.cons_append, List.nodup_cons, List.nodup_append]
    have hpos : ∀ x ∈ l, r.dir.ino x ≠ 0 ∧ r.dir.imgs.lookup x = some (r.dir.ino x) := by
      intro x hx
      obtain ⟨y, hy⟩ := hl.mem_node hx
      exact ⟨h.apart.pos (h.image hy), h.image hy⟩
    refine ⟨fun hmem => ?_, ?_, ?_, ?_⟩
    · rcases List.mem_append.mp hmem with hm | hm
      · obtain ⟨f, hf, h0⟩ := Option.map_eq_some_iff.mp (Option.mem_toList.mp hm)
        exact (h.apart.backing hf).1 h0
      · obtain ⟨x, hx, h0⟩ := List.mem_map.mp hm
        exact (hpos x (List.mem_reverse.mp hx)).1 h0
    · cases r.info.backingFile <;> simp
    · refine List.Nodup.map_on (fun x hx y hy heq => ?_) (List.nodup_reverse.mpr hl.nodup)
      obtain ⟨a, ha⟩ := hl.mem_node (List.mem_reverse.mp hx)
      obtain ⟨b, hb⟩ := hl.mem_node (List.mem_reverse.mp hy)
      exact h.ino_inj ha hb heq
    · rintro i hi j hj rfl
      obtain ⟨f, hf, rfl⟩ := Option.map_eq_some_iff.mp (Option.mem_toList.mp hi)
      obtain ⟨x, hx, heq⟩ := List.mem_map.mp hj
      exact (h.apart.backing hf).2 x (by rw [← heq]; exact (hpos x (List.mem_reverse.mp hx)).2)
  · rw [hactive]
    simp only [List.cons_append, List.length_cons, List.length_append, List.length_reverse]
    omega

/-- The view of a sound replica is well formed if its indexes fit a byte. -/
theorem wf_of_length (hle : r.volume.files.length ≤ 256) : r.view.Wf := by
  have hlen : r.view.files.length = r.volume.files.length := List.length_map _
  have htwo := h.aligned.two_le
  rw [← h.aligned.length] at htwo
  refine ⟨?_, by rw [hlen]; exact htwo, by rw [hlen]; exact hle, ?_,
    fun s => by rw [hlen]; exact h.ranged s⟩
  · show 0 < r.volume.sectorSize
    rw [h.sectorSize]
    decide
  · show r.volume.location.length * r.volume.sectorSize = r.volume.size
    rw [h.sectorSize, h.size, h.table]

theorem wf (hshort : r.ChainShort) : r.view.Wf := by
  obtain ⟨l, hl, -⟩ := h.inOrder.wired.live
  have hle := (h.inOrder.chainShort_iff hl).mp hshort
  have hfiles := congrArg List.length (h.files hl)
  have hback : (r.info.backingFile.map BackingFile.disk).toList.length ≤ 1 := by
    cases r.info.backingFile <;> simp
  have h250 : maximumTotalSnapshotCount = 250 := rfl
  simp only [List.cons_append, List.length_cons, List.length_append, List.length_map,
    List.length_reverse] at hfiles
  exact h.wf_of_length (by omega)

/-- The head is the last of the open files. -/
theorem files_head : r.volume.files[r.view.head]? = some (r.dir.ino r.info.head) := by
  obtain ⟨p, v, -, hl, -, -⟩ := h.inOrder.wired.exists_chain
  have hfiles := h.files hl
  rw [List.reverse_cons, List.map_append, ← List.append_assoc] at hfiles
  have hhead : r.view.head = r.volume.files.length - 1 := by
    rw [DiffDisk.head]
    exact congrArg (· - 1) (List.length_map _)
  rw [hhead, ← List.getLast?_eq_getElem?, hfiles]
  exact List.getLast?_concat

end

end Sound

/-! ## Fresh inodes -/

theorem lt_freshIno {r : Replica} {i : Ino}
    (h : (∃ x, r.dir.imgs.lookup x = some i) ∨ i ∈ r.volume.files
      ∨ ∃ f, r.info.backingFile = some f ∧ f.disk = i) : i < r.freshIno := by
  rw [freshIno, Nat.lt_succ_iff]
  refine List.le_max_of_le ?_ (Nat.le_refl i)
  simp only [List.mem_append]
  rcases h with ⟨x, hx⟩ | hmem | ⟨f, hf, rfl⟩
  · exact Or.inl (Or.inl (List.mem_map.mpr ⟨⟨x, i⟩, AList.mem_lookup_iff.mp hx, rfl⟩))
  · exact Or.inl (Or.inr hmem)
  · exact Or.inr (by rw [hf]; simp)

theorem freshIno_not_open (r : Replica) : r.freshIno ∉ r.volume.files :=
  fun hmem => Nat.lt_irrefl _ (lt_freshIno (Or.inr (Or.inl hmem)))

/-- An image under a fresh inode is apart from all others. -/
theorem Sound.apart_fresh {r : Replica} (h : Sound r) {dir : Dir}
    (himgs : ∀ x i, dir.imgs.lookup x = some i → i = r.freshIno ∨ ∃ y, r.dir.imgs.lookup y = some i)
    (hinj : ∀ {x y i}, dir.imgs.lookup x = some i → dir.imgs.lookup y = some i → x = y) :
    dir.Apart r.info.backingFile := by
  refine ⟨fun {x i} hx => ?_, hinj, fun {f} hf => ⟨(h.apart.backing hf).1, fun x hx => ?_⟩⟩
  · rcases himgs x i hx with rfl | ⟨y, hy⟩
    · exact Nat.succ_ne_zero _
    · exact h.apart.pos hy
  · rcases himgs x _ hx with heq | ⟨y, hy⟩
    · exact absurd (lt_freshIno (Or.inr (Or.inr ⟨f, hf, rfl⟩))) (by rw [heq]; exact Nat.lt_irrefl _)
    · exact (h.apart.backing hf).2 y hy

/-! ## Growing -/

section Grown

variable {r r' : Replica} {s newHead created : String} {size : Nat} {snap : Disk}

theorem Grown.ino_head (hw : Wired r.info.backingFile r)
    (hg : Grown r r' (generateSnapshotDiskName s) newHead created size snap) :
    r'.dir.ino r'.info.head = r.freshIno := by
  obtain ⟨hne, hns, -⟩ := hg.names hw
  refine Dir.ino_of_lookup ?_
  rw [hg.info, hg.imgs, if_neg hne, if_neg hns, if_pos rfl]

/-- A new head is apart: the old one's image goes on as the snapshot's. -/
theorem Grown.apart (h : Sound r)
    (hg : Grown r r' (generateSnapshotDiskName s) newHead created size snap) :
    r'.dir.Apart r'.info.backingFile := by
  have hfresh : ∀ {x}, r.dir.imgs.lookup x ≠ some r.freshIno :=
    fun hx => Nat.lt_irrefl _ (lt_freshIno (Or.inl ⟨_, hx⟩))
  rw [show r'.info.backingFile = r.info.backingFile by rw [hg.info]]
  have horigin : ∀ {x i}, r'.dir.imgs.lookup x = some i →
      (x = generateSnapshotDiskName s ∧ r.dir.imgs.lookup r.info.head = some i)
        ∨ (x = newHead ∧ i = r.freshIno) ∨ (x ≠ r.info.head ∧ r.dir.imgs.lookup x = some i) := by
    intro x i hx
    rw [hg.imgs] at hx
    split_ifs at hx with h1 h2 h3
    · exact Or.inl ⟨h2, hx⟩
    · exact Or.inr (Or.inl ⟨h3, (Option.some.inj hx).symm⟩)
    · exact Or.inr (Or.inr ⟨h1, hx⟩)
  refine h.apart_fresh (fun x i hx => ?_) (fun {x y i} hx hy => ?_)
  · rcases horigin hx with ⟨-, hi⟩ | ⟨-, hi⟩ | ⟨-, hi⟩
    · exact Or.inr ⟨_, hi⟩
    · exact Or.inl hi
    · exact Or.inr ⟨_, hi⟩
  · rcases horigin hx with ⟨rfl, hi⟩ | ⟨rfl, rfl⟩ | ⟨hne, hi⟩
    · rcases horigin hy with ⟨rfl, -⟩ | ⟨-, rfl⟩ | ⟨hne, hj⟩
      · rfl
      · exact absurd hi hfresh
      · exact absurd (h.apart.inj hj hi) hne
    · rcases horigin hy with ⟨-, hj⟩ | ⟨rfl, -⟩ | ⟨-, hj⟩
      · exact absurd hj hfresh
      · rfl
      · exact absurd hj hfresh
    · rcases horigin hy with ⟨-, hj⟩ | ⟨-, rfl⟩ | ⟨-, hj⟩
      · exact absurd (h.apart.inj hi hj) hne
      · exact absurd hi hfresh
      · exact h.apart.inj hi hj

/-- The view with a new head: one more file, and nothing in it. -/
theorem Grown.view (hg : Grown r r' (generateSnapshotDiskName s) newHead created size snap) :
    r'.view = { r.view with files := r.view.files ++ [File.empty size] } := by
  have hold : r.volume.files.map r'.dir.data = r.volume.files.map r.dir.data := by
    refine List.map_congr_left (fun i hi => ?_)
    rw [hg.data, Function.update_of_ne]
    rintro rfl
    exact freshIno_not_open r hi
  rw [Replica.view, Volume.view, hg.volume]
  rw [List.map_append, hold, List.map_singleton, hg.data, Function.update_self]
  rfl

/-- The table of a grown volume. -/
theorem length_expand {v : Volume} (hs : v.sectorSize = volumeSectorSize)
    (hmod : size % volumeSectorSize = 0)
    (hle : v.location.length * volumeSectorSize ≤ size) :
    (v.expand size).location = v.location
      ++ List.replicate (size / volumeSectorSize - v.location.length) 0
      ∧ (v.expand size).location.length * volumeSectorSize = size := by
  have hloc : (v.expand size).location = v.location
      ++ List.replicate (size / volumeSectorSize - v.location.length) 0 := by
    rw [Volume.expand]
    rw [hs, if_neg (by omega), Nat.add_zero]
  refine ⟨hloc, ?_⟩
  have hdiv : v.location.length ≤ size / volumeSectorSize :=
    (Nat.le_div_iff_mul_le (by decide)).mpr hle
  rw [hloc, List.length_append, List.length_replicate, Nat.add_sub_cancel' hdiv]
  exact Nat.div_mul_cancel (Nat.dvd_of_mod_eq_zero hmod)

section

variable (h : Sound r) (hg : Grown r r' (generateSnapshotDiskName s) newHead created size snap)
  (hmod : size % volumeSectorSize = 0) (hle : r.info.size ≤ size)
include h hg hmod hle

/-- The view of a grown volume is the old one with an empty file on top. -/
theorem Grown.onTop :
    DiffDisk.OnTop r.view (r'.expanded size).view size := by
  have hfiles := congrArg DiffDisk.files hg.view
  have hsec := congrArg DiffDisk.sectorSize hg.view
  have hss : r'.volume.sectorSize = volumeSectorSize := by rw [hg.volume]; exact h.sectorSize
  have hloc : r'.volume.location = r.volume.location := by rw [hg.volume]
  obtain ⟨hexp, -⟩ := length_expand hss hmod (by rw [hloc, h.table]; exact hle)
  refine ⟨hfiles, hsec, fun t => ?_⟩
  show (r'.volume.expand size).location.getD t 0 = r.volume.location.getD t 0
  rw [hexp, hloc, List.getD_eq_getElem?_getD, List.getD_eq_getElem?_getD, List.getElem?_append]
  split
  · rfl
  · rw [List.getElem?_replicate, List.getElem?_eq_none (by omega)]
    split <;> rfl

theorem Grown.sound :
    Sound (r'.expanded size) := by
  have hin := hg.inOrder h.inOrder.wired h.inOrder.opened
  have hloc : r'.volume.location = r.volume.location := by rw [hg.volume]
  have hss : r'.volume.sectorSize = volumeSectorSize := by rw [hg.volume]; exact h.sectorSize
  obtain ⟨-, htable⟩ := length_expand hss hmod (by rw [hloc, h.table]; exact hle)
  have hinfo : r'.info.size = size := by rw [hg.info]
  have hapart := hg.apart h
  refine ⟨⟨hin.wired.expanded size, hin.opened.expanded size, hin.parent⟩, hapart, hss,
    hinfo.symm, by rw [show (r'.expanded size).info.size = size from hinfo]; exact htable,
    fun s => ?_, ?_⟩
  · have hr := h.ranged s
    rw [(hg.onTop h hmod hle).loc, show (r'.expanded size).volume.files = r'.volume.files from rfl, hg.volume]
    rw [List.length_append]
    omega
  · show (r'.dir.data (r'.dir.ino r'.info.head)).size = r'.info.size
    rw [hg.ino_head h.inOrder.wired, hg.data, Function.update_self, hinfo]
    rfl

end

/-- Growing without a new size leaves the table as it is. -/
theorem Grown.expanded_self (h : Sound r)
    (hg : Grown r r' (generateSnapshotDiskName s) newHead created r.info.size snap) :
    r'.expanded r.info.size = r' := by
  have hss : r'.volume.sectorSize = volumeSectorSize := by rw [hg.volume]; exact h.sectorSize
  have hloc : r'.volume.location = r.volume.location := by rw [hg.volume]
  obtain ⟨hexp, -⟩ := length_expand hss h.size_mod (by rw [hloc, h.table])
  have hvol : r'.volume.expand r.info.size = r'.volume := by
    rw [hloc, ← h.table, Nat.mul_div_cancel _ (by decide), Nat.sub_self, List.replicate_zero,
      List.append_nil, h.table] at hexp
    have hsize : r'.volume.size = r.info.size := by rw [hg.volume]; exact h.size
    rw [Volume.expand] at hexp ⊢
    dsimp only at hexp ⊢
    rw [hexp, ← hsize, ← hloc]
  rw [expanded, hvol]

end Grown

variable {r r' : Replica} {name created : String}

theorem snapshot_sound (h : Sound r) {userCreated : Bool} {labels : Option (List (String × String))}
    (hok : r.snapshot snapshotMaxCount name userCreated created labels = (r', .ok ())) :
    Sound r' := by
  obtain ⟨newHead, snap, hg⟩ := createDisk_ok h.inOrder.wired hok
  have hs := hg.sound h h.size_mod (Nat.le_refl _)
  rw [hg.expanded_self h] at hs
  exact hs

theorem expand_sound (h : Sound r) {size : Nat}
    {created : String} (hok : r.expand snapshotMaxCount size created = (r', .ok ())) :
    Sound r' := by
  obtain ⟨hmod, ⟨rfl, -⟩ | ⟨hlt, r1, newHead, snap, hg, rfl⟩⟩ := expand_cases h.inOrder.wired hok
  · exact h
  · exact hg.sound h hmod hlt.le

/-! ## Opening and reverting -/

/-- What the end of `construct` leaves alone. -/
theorem finished_keeps (r : Replica) (p : String) :
    (r.finished p).info = { r.info with parent := p } ∧ (r.finished p).dir.imgs = r.dir.imgs
      ∧ (r.finished p).dir.metas = r.dir.metas ∧ (r.finished p).dir.data = r.dir.data
      ∧ (r.finished p).volume.location = r.volume.location
      ∧ (r.finished p).volume.sectorSize = r.volume.sectorSize
      ∧ (r.finished p).volume.size = r.volume.size := by
  unfold finished insertBackingFile
  split <;> exact ⟨rfl, rfl, rfl, rfl, rfl, rfl, rfl⟩

section Opening

variable {dir : Dir} {a : OpenArgs} {l : List String} {p : String}

/-- The volume of a directory that was just opened. -/
theorem finished_volume (dir : Dir) (a : OpenArgs) (l : List String) (p : String) :
    ((openedOn dir a l).finished p).volume
    = ⟨List.replicate (dir.volumeMeta.size / volumeSectorSize
        + if a.size % volumeSectorSize ≠ 0 then 1 else 0) 0,
      0 :: (a.backingFile.map BackingFile.disk).toList ++ l.reverse.map dir.ino, volumeSectorSize,
      dir.volumeMeta.size⟩ := by
  unfold finished insertBackingFile
  cases hb : a.backingFile with
  | none =>
    rw [show (openedOn dir a l).info.backingFile = none from hb]
    rfl
  | some f =>
    rw [show (openedOn dir a l).info.backingFile = some f from hb]
    rfl

theorem finished_dir (dir : Dir) (a : OpenArgs) (l : List String) (p : String) :
    ((openedOn dir a l).finished p).info
      = { dir.volumeMeta with backingFile := a.backingFile, parent := p }
    ∧ ((openedOn dir a l).finished p).dir = { dir with
        volumeMeta := { ((openedOn dir a l).finished p).info with dirty := true } } := by
  unfold finished
  obtain ⟨hinfo, hdir⟩ := insertBackingFile_fields
    { openedOn dir a l with info := { (openedOn dir a l).info with parent := p } }
  dsimp only
  rw [hinfo, hdir]
  exact ⟨rfl, rfl⟩

/-- **Opening a directory** in which the disks are apart gives a sound replica. -/
theorem finished_sound (h : Openable dir)
    (hl : Path "" (parents dir.metas) dir.volumeMeta.head l)
    (hp : parents dir.metas dir.volumeMeta.head = some p) (hapart : dir.Apart a.backingFile)
    (hout : a.Outside) (hmod : dir.volumeMeta.size % volumeSectorSize = 0)
    (ha : a.size % volumeSectorSize = 0)
    (hhead : (dir.data (dir.ino dir.volumeMeta.head)).size = dir.volumeMeta.size) :
    Sound ((openedOn dir a l).finished p) := by
  obtain ⟨d, hd, rfl⟩ := parents_eq_some.mp hp
  obtain ⟨hinfo, hdir⟩ := finished_dir dir a l d.parent
  have hvol := finished_volume dir a l d.parent
  rw [if_neg (by simpa using ha), Nat.add_zero] at hvol
  have hin : InOrder ((openedOn dir a l).finished d.parent) :=
    finished_inOrder (wired_openedOn h hl) (opened_openedOn h l) hout hd
  refine ⟨hin, ?_, by rw [hvol], by rw [hvol, hinfo], ?_, fun s => ?_, ?_⟩
  · rw [hdir, hinfo]
    exact ⟨hapart.pos, hapart.inj, hapart.backing⟩
  · rw [hvol, hinfo]
    rw [List.length_replicate]
    exact Nat.div_mul_cancel (Nat.dvd_of_mod_eq_zero hmod)
  · show (((openedOn dir a l).finished d.parent).volume.location.getD s 0).toNat < _
    rw [hvol]
    dsimp only
    rw [List.getD_eq_getElem?_getD, List.getElem?_replicate]
    split
    · exact Nat.succ_pos _
    · exact Nat.succ_pos _
  · rw [hdir, hinfo]
    exact hhead

/-- What `Reload` makes of a replica's directory. -/
theorem reload_eq (h : Openable r.dir) (hl : Path "" (parents r.dir.metas) r.dir.volumeMeta.head l)
    (hp : parents r.dir.metas r.dir.volumeMeta.head = some p)
    (hok : reload snapshotMaxCount sectorSize r = .ok r') :
    l.length ≤ maximumTotalSnapshotCount
      ∧ ∃ a, a.backingFile = r.info.backingFile ∧ a.size = r.info.size
        ∧ r' = { (openedOn r.dir a l).finished p with
            info := { ((openedOn r.dir a l).finished p).info with dirty := r.info.dirty } } := by
  obtain ⟨a, r1, hcons, hb, hsize, hexp, rfl⟩ := reload_ok hok
  rw [construct_eq h hexp hl hp] at hcons
  split at hcons
  · simp at hcons
  split at hcons
  · simp at hcons
  · rename_i hle
    obtain rfl := Except.ok.inj hcons
    exact ⟨Nat.le_of_not_lt hle, a, hb, hsize, rfl⟩

theorem Sound.dirty {r : Replica} (h : Sound r) (dirty : Bool) :
    Sound { r with info := { r.info with dirty := dirty } } :=
  ⟨h.inOrder.dirty dirty, h.apart, h.sectorSize, h.size, h.table, h.ranged, h.head⟩

end Opening

theorem data_firstHead (data : Ino → File) (a : OpenArgs) :
    ((firstHead data a).finished "").dir.data (((firstHead data a).finished "").dir.ino
      ((firstHead data a).finished "").info.head) = File.empty a.size := by
  obtain ⟨hinfo, himgs, -, hdata, -, -, -⟩ := finished_keeps (firstHead data a) ""
  have hino : ((firstHead data a).finished "").dir.ino (volumeHeadDiskName 0)
      = (unopened (Dir.recovered data a.size) a).freshIno := by
    refine Dir.ino_of_lookup ?_
    rw [himgs, imgs_firstHead, lookup_insert_eq, if_pos rfl]
  rw [hdata, hinfo]
  show (firstHead data a).dir.data (((firstHead data a).finished "").dir.ino (volumeHeadDiskName 0)) = _
  rw [hino]
  exact Function.update_self _ _ _

/-- **What `New` makes of an empty directory** is sound. -/
theorem new_sound {data : Ino → File} {a : OpenArgs} (ha : a.Outside)
    (hback : ∀ f, a.backingFile = some f → f.disk ≠ 0) (hmod : a.size % volumeSectorSize = 0)
    {r : Replica} (hnew : construct (Dir.recovered data a.size) a = .ok r) : Sound r := by
  have hin := new_inOrder ha hnew
  obtain rfl := construct_recovered hnew
  obtain ⟨hinfo, himgs, -, hdata, hloc, hss, hsz⟩ := finished_keeps (firstHead data a) ""
  have htable : (firstHead data a).volume.location = List.replicate (a.size / volumeSectorSize) 0 := by
    show List.replicate (a.size / volumeSectorSize + if a.size % volumeSectorSize ≠ 0 then 1 else 0) 0
      = _
    rw [if_neg (by simpa using hmod), Nat.add_zero]
  have himg : ∀ x i, ((firstHead data a).finished "").dir.imgs.lookup x = some i →
      x = volumeHeadDiskName 0 ∧ i = (unopened (Dir.recovered data a.size) a).freshIno := by
    intro x i hx
    rw [himgs, imgs_firstHead, lookup_insert_eq, AList.lookup_empty] at hx
    split at hx
    · exact ⟨by assumption, (Option.some.inj hx).symm⟩
    · simp at hx
  refine ⟨hin, ⟨fun {x i} hx => ?_, fun {x y i} hx hy => ?_, fun {f} hf => ⟨?_, fun x hx => ?_⟩⟩,
    by rw [hss]; rfl, by rw [hsz, hinfo]; rfl, ?_, fun s => ?_, ?_⟩
  · rw [(himg x i hx).2]
    exact Nat.succ_ne_zero _
  · rw [(himg x i hx).1, (himg y i hy).1]
  · rw [hinfo] at hf
    exact hback f hf
  · rw [hinfo] at hf
    have hlt := lt_freshIno (r := unopened (Dir.recovered data a.size) a) (Or.inr (Or.inr ⟨f, hf, rfl⟩))
    rw [(himg x _ hx).2] at hlt
    exact Nat.lt_irrefl _ hlt
  · rw [hloc, htable, hinfo, List.length_replicate]
    exact Nat.div_mul_cancel (Nat.dvd_of_mod_eq_zero hmod)
  · show (((firstHead data a).finished "").volume.location.getD s 0).toNat < _
    rw [hloc, htable, List.getD_eq_getElem?_getD, List.getElem?_getD_replicate_default_eq]
    rw [hin.represents.length]
    obtain ⟨p, v, -, -, -, hactive⟩ := hin.wired.exists_chain
    rw [hactive]
    exact Nat.succ_pos _
  · rw [data_firstHead, hinfo]
    rfl

/-- The chain of a revert's new head, and what the directory has for it. -/
theorem revertedDir_facts {r : Replica} (h : Sound r) {newHead name : String} (created : String)
    {disk : Disk}
    (hnext : nextFile r.info.head = some newHead) (hd : r.dir.metas.lookup name = some disk)
    (hne : name ≠ r.info.head) {v : List String} (hv : Path "" (parents r.dir.metas) name v) :
    Path "" (parents (r.revertedDir newHead name created).metas) newHead (newHead :: v)
      ∧ (r.revertedDir newHead name created).Apart r.info.backingFile
      ∧ (r.revertedDir newHead name created).ino newHead = r.freshIno
      ∧ (∀ x, x ≠ newHead → x ≠ r.info.head →
        (r.revertedDir newHead name created).imgs.lookup x = r.dir.imgs.lookup x) := by
  obtain ⟨-, hnh, -⟩ := h.inOrder.wired.tree.next_head hnext
  have himgs : ∀ x, (r.revertedDir newHead name created).imgs.lookup x = if x = r.info.head then none
      else if x = newHead then some r.freshIno else r.dir.imgs.lookup x := fun x => by
    rw [revertedDir, lookup_erase_eq, lookup_insert_eq]
  have hfresh : ∀ {x}, r.dir.imgs.lookup x ≠ some r.freshIno :=
    fun hx => Nat.lt_irrefl _ (lt_freshIno (Or.inl ⟨_, hx⟩))
  refine ⟨(path_revertedDir h.inOrder created hnext hd hne hv).1, h.apart_fresh (fun x i hx => ?_)
    (fun {x y i} hx hy => ?_), ?_, fun x h1 h2 => ?_⟩
  · rw [himgs] at hx
    split_ifs at hx
    · exact Or.inl (Option.some.inj hx).symm
    · exact Or.inr ⟨x, hx⟩
  · rw [himgs] at hx hy
    split_ifs at hx hy with h1 h2 h3 h4 h5
    · rw [h2, h4]
    · rw [← Option.some.inj hx] at hy
      exact absurd hy hfresh
    · rw [← Option.some.inj hy] at hx
      exact absurd hx hfresh
    · exact h.apart.inj hx hy
  · refine Dir.ino_of_lookup ?_
    rw [himgs, if_neg hnh, if_pos rfl]
  · rw [himgs, if_neg h2, if_neg h1]

/-- **A revert that succeeds**: the new head is opened on the chain of the snapshot. -/
theorem revert_eq (h : InOrder r)
    (hok : r.revert snapshotMaxCount sectorSize name created = .ok r') :
    ∃ newHead disk v a, nextFile r.info.head = some newHead ∧ r.dir.metas.lookup name = some disk
      ∧ name ≠ r.info.head ∧ Path "" (parents r.dir.metas) name v
      ∧ (newHead :: v).length ≤ maximumTotalSnapshotCount
      ∧ a.backingFile = r.info.backingFile ∧ a.size = r.info.size
      ∧ r' = { (openedOn (r.revertedDir newHead name created) a (newHead :: v)).finished name with
          info := { ((openedOn (r.revertedDir newHead name created) a (newHead :: v)).finished name).info
            with dirty := r.info.dirty } } := by
  obtain ⟨newHead, disk, hnext, hd, -, hne, hreload⟩ := revert_ok h hok
  obtain ⟨v, hv⟩ := h.wired.tree.rooted.path (parents_eq_some.mpr ⟨disk, hd, rfl⟩)
  obtain ⟨-, hopen⟩ := openable_revertedDir h created hnext hd hne
  obtain ⟨hpath, hp⟩ := path_revertedDir h created hnext hd hne hv
  obtain ⟨hle, a, hb, hsize, hr'⟩ := reload_eq hopen hpath hp hreload
  exact ⟨newHead, disk, v, a, hnext, hd, hne, hv, hle, hb, hsize, hr'⟩

theorem revert_sound (h : Sound r)
    (hok : r.revert snapshotMaxCount sectorSize name created = .ok r') :
    Sound r' := by
  obtain ⟨newHead, disk, v, a, hnext, hd, hne, hv, hle, hb, hsize, rfl⟩ := revert_eq h.inOrder hok
  obtain ⟨-, hopen⟩ := openable_revertedDir h.inOrder created hnext hd hne
  obtain ⟨hpath, hapart, hino, -⟩ := revertedDir_facts h created hnext hd hne hv
  obtain ⟨-, hp⟩ := path_revertedDir h.inOrder created hnext hd hne hv
  refine Sound.dirty (finished_sound hopen hpath hp (by rw [hb]; exact hapart) (fun f hf => ?_)
    h.size_mod (by rw [hsize]; exact h.size_mod) ?_) _
  · rw [hb] at hf
    exact h.inOrder.wired.outside hf
  · show (Function.update r.dir.data r.freshIno (File.empty r.info.size)
      ((r.revertedDir newHead name created).ino newHead)).size = r.info.size
    rw [hino, Function.update_self]
    rfl

/-! ## Reading, writing and unmapping -/

/-- The replica after its open files came to hold what `d` holds. -/
theorem view_store {r : Replica} (h : r.Aligned) {d : DiffDisk}
    (hlen : d.files.length = r.volume.files.length) (hs : d.sectorSize = r.volume.sectorSize)
    (hz : d.size = r.volume.size) : (r.store d).view = d := by
  have hfiles : r.volume.files.map (r.store d).dir.data = d.files := by
    refine List.ext_getElem? (fun idx => ?_)
    rw [List.getElem?_map]
    cases hi : r.volume.files[idx]? with
    | none =>
      rw [List.getElem?_eq_none_iff] at hi
      rw [List.getElem?_eq_none (by omega)]
      rfl
    | some i =>
      have hlt : idx < d.files.length := by
        rw [hlen]
        exact (List.getElem?_eq_some_iff.mp hi).1
      rw [Option.map_some, data_store_of_open h hlen hi, DiffDisk.file,
        List.getD_eq_getElem _ _ hlt, List.getElem?_eq_getElem hlt]
  show DiffDisk.mk d.location (r.volume.files.map (r.store d).dir.data) r.volume.sectorSize
    r.volume.size = d
  rw [hfiles, ← hs, ← hz]

/-- A call that keeps the table's length, and names open files in it. -/
theorem Sound.store {r : Replica} (h : Sound r) {d : DiffDisk}
    (hlen : d.location.length = r.volume.location.length)
    (hfiles : d.files.length = r.volume.files.length)
    (hranged : ∀ s, (d.loc s).toNat < r.volume.files.length)
    (hhead : (d.file r.view.head).size = r.info.size) : Sound (r.store d) := by
  refine ⟨h.inOrder.store d, ⟨h.apart.pos, h.apart.inj, h.apart.backing⟩, h.sectorSize, h.size, ?_,
    hranged, ?_⟩
  · show d.location.length * volumeSectorSize = r.info.size
    rw [hlen, h.table]
  · show ((r.store d).dir.data (r.dir.ino r.info.head)).size = r.info.size
    rw [data_store_of_open h.aligned hfiles h.files_head, hhead]

theorem Sound.view_file_head {r : Replica} (h : Sound r) :
    r.view.file r.view.head = r.dir.data (r.dir.ino r.info.head) := view_file h.files_head

theorem Sound.readAt {r : Replica} (h : Sound r) (hw : r.view.Wf) (buf : List UInt8)
    (offset : Nat) : Sound (r.readAt buf offset).1 := by
  obtain ⟨hw, hc⟩ := DiffDisk.readAt_caches hw buf offset
  have hlen : (r.view.readAt buf offset).disk.files.length = r.volume.files.length := by
    rw [hc.files]
    exact List.length_map _
  refine h.store hc.length hlen (fun s => ?_) ?_
  · rw [← hlen]
    exact hw.ranged s
  · rw [hc.file, h.view_file_head, h.head]

theorem writeAt_eq (hro : r.readOnly = false) {buf : List UInt8} {offset : Nat}
    {n : Int} (hok : r.writeAt buf offset (fun _ => none) = (r', n, none)) :
    (r.view.writeAt buf offset (fun _ => none)).err = none
      ∧ r' = { r.store (r.view.writeAt buf offset (fun _ => none)).disk with
          info := { r.info with dirty := true } } := by
  unfold writeAt at hok
  rw [if_neg (by rw [hro]; simp)] at hok
  obtain ⟨rfl, -, herr⟩ := by simpa using hok
  exact ⟨herr, rfl⟩

theorem writeAt_sound (h : Sound r) (hw : r.view.Wf) {buf : List UInt8}
    {offset : Nat} {n : Int} (hok : r.writeAt buf offset (fun _ => none) = (r', n, none)) :
    Sound r' := by
  obtain ⟨herr, rfl⟩ := writeAt_eq h.inOrder.wired.writable hok
  obtain ⟨-, hw', ⟨f, hf, ho⟩, -, -, hlen, -⟩ := DiffDisk.writeAt_ok hw herr
  have hcount : (r.view.writeAt buf offset (fun _ => none)).disk.files.length
      = r.volume.files.length := by
    rw [hf, List.length_set]
    exact List.length_map _
  refine (h.store hlen hcount (fun s => ?_) ?_).dirty true
  · rw [← hcount]
    exact hw'.ranged s
  · rw [DiffDisk.file, hf, List.getD_eq_getElem?_getD,
      List.getElem?_set_self (DiffDisk.head_lt hw)]
    have hsz := h.head
    rw [← h.view_file_head] at hsz
    rw [← hsz]
    exact ho.size_eq (by rw [hsz]; exact h.size.le)

end Replica

end WeftBlock
