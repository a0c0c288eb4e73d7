import WeftBlock.Replica.Ops

/-!
# Comparing snapshots

`CompareSnapshot` of `pkg/replica/replica.go`, on a replica that was opened on the
snapshot: preload the location table and report, block by block, the sectors that a disk
above the parent owns.

Ownership is a matter of sectors and the report is a matter of blocks, and a sector is
reported by the block *it starts in*. So a byte that differs is reported if its block
does not begin after its sector does; otherwise another sector has to bring the block in.
-/

namespace WeftBlock

open Layers

/-- `SnapshotRange`. -/
structure SnapshotRange where
  offset : Nat
  size : Nat
deriving DecidableEq

/-- The byte at `p` lies inside the range. -/
def SnapshotRange.Covers (g : SnapshotRange) (p : Nat) : Prop :=
  g.offset ≤ p ∧ p < g.offset + g.size

instance (g : SnapshotRange) (p : Nat) : Decidable (g.Covers p) := instDecidableAnd

/-- What `CompareSnapshot` returns as an error. -/
inductive CompareErr
  /-- `snapshot name is required`. -/
  | nameRequired
  /-- `block size must be > 0, got %d`. -/
  | blockSize (n : Int)
  /-- `snapshot %q not found in chain`. -/
  | notFound (name : String)
  /-- `parent snapshot %q not found in chain`. -/
  | parentNotFound (name : String)
  /-- `parent snapshot %q sits above %q in chain (from=%d to=%d)`. -/
  | parentAbove (parent name : String) (fromIndex toIndex : Nat)
  /-- `replica has zero sector size`. -/
  | zeroSectorSize
deriving DecidableEq

/-- What the loop of `CompareSnapshot` goes by: two indexes of the chain and two sizes. -/
structure Comparison where
  toIndex : UInt8
  fromIndex : UInt8
  sectorSize : Nat
  blockSize : Nat

namespace Comparison

/-- Where the block begins that sector `i` starts in. -/
def blockStart (c : Comparison) (i : Nat) : Nat :=
  i * c.sectorSize - i * c.sectorSize % c.blockSize

/-- The table entry is that of a disk above the parent. -/
def Above (c : Comparison) (val : UInt8) : Prop := val ≤ c.fromIndex ∧ c.toIndex < val

instance (c : Comparison) (val : UInt8) : Decidable (c.Above val) := instDecidableAnd

/-- The loop from sector `i` on; `lastOffset` is the block that was reported last. -/
def loop (c : Comparison) : List UInt8 → Nat → Option Nat → List SnapshotRange
  | [], _, _ => []
  | val :: rest, i, lastOffset =>
    if c.Above val then
      let offset := c.blockStart i
      if lastOffset = some offset then c.loop rest (i + 1) lastOffset
      else ⟨offset, c.blockSize⟩ :: c.loop rest (i + 1) (some offset)
    else c.loop rest (i + 1) lastOffset

end Comparison

/-- `CompareSnapshot`. -/
def Replica.compareSnapshot (r : Replica) (snapshotName parentSnapshotName : String)
    (blockSize : Int) : Replica × Except CompareErr (List SnapshotRange) :=
  if snapshotName = "" then (r, .error .nameRequired)
  else if blockSize ≤ 0 then (r, .error (.blockSize blockSize))
  else
    let fromIndex := r.findDisk snapshotName
    if fromIndex = 0 then (r, .error (.notFound snapshotName))
    else
      let toIndex := if parentSnapshotName = "" then 0 else r.findDisk parentSnapshotName
      if parentSnapshotName ≠ "" ∧ toIndex = 0 then
        (r, .error (.parentNotFound parentSnapshotName))
      else if fromIndex < toIndex then
        (r, .error (.parentAbove parentSnapshotName snapshotName fromIndex toIndex))
      else
        let r := r.preload false
        if r.volume.sectorSize = 0 then (r, .error .zeroSectorSize)
        else
          let c : Comparison := ⟨UInt8.ofNat toIndex, UInt8.ofNat fromIndex, r.volume.sectorSize,
            blockSize.toNat⟩
          (r, .ok (c.loop r.volume.location 0 none))

/-! ## The loop -/

namespace Comparison

variable {c : Comparison}

theorem blockStart_eq (c : Comparison) (i : Nat) :
    c.blockStart i = c.blockSize * (i * c.sectorSize / c.blockSize) := by
  have := Nat.div_add_mod (i * c.sectorSize) c.blockSize
  rw [blockStart]
  omega

theorem blockStart_mono (c : Comparison) {i j : Nat} (h : i ≤ j) :
    c.blockStart i ≤ c.blockStart j := by
  rw [blockStart_eq, blockStart_eq]
  exact Nat.mul_le_mul_left _ (Nat.div_le_div_right (Nat.mul_le_mul_right _ h))

/-- What the loop reports of a part of the table that begins at sector `i`: the blocks that such
sectors start in, but for the one that was reported last, in ascending order. -/
structure Reports (c : Comparison) (l : List UInt8) (i : Nat) (last : Option Nat)
    (out : List SnapshotRange) : Prop where
  sound : ∀ g ∈ out, g.size = c.blockSize
    ∧ ∃ j val, l[j]? = some val ∧ c.Above val ∧ g.offset = c.blockStart (i + j)
  complete : ∀ j val, l[j]? = some val → c.Above val → last = some (c.blockStart (i + j))
    ∨ ⟨c.blockStart (i + j), c.blockSize⟩ ∈ out
  ascending : out.Pairwise (fun g g' => g.offset < g'.offset)
  above : ∀ g ∈ out, ∀ o, last = some o → o < g.offset

/-- One sector that is not above the parent, or whose block has been reported last. -/
theorem Reports.skip {l : List UInt8} {i : Nat} {last : Option Nat} {out : List SnapshotRange}
    (h : Reports c l (i + 1) last out) (val : UInt8)
    (hval : c.Above val → last = some (c.blockStart i)) : Reports c (val :: l) i last out := by
  refine ⟨fun g hg => ?_, fun j v hj hv => ?_, h.ascending, h.above⟩
  · obtain ⟨hsize, j, v, hj, hv, hoff⟩ := h.sound g hg
    exact ⟨hsize, j + 1, v, hj, hv, by rw [hoff, Nat.add_right_comm, Nat.add_assoc]⟩
  · cases j with
    | zero => exact Or.inl (hval (Option.some.inj hj ▸ hv))
    | succ j =>
      rw [show i + (j + 1) = i + 1 + j by omega]
      exact h.complete j v hj hv

/-- **The loop reports all such blocks.** -/
theorem loop_reports : ∀ (l : List UInt8) (i : Nat) (last : Option Nat),
    (∀ o, last = some o → o ≤ c.blockStart i) → Reports c l i last (c.loop l i last)
  | [], i, last, _ => ⟨by simp [loop], by simp, List.Pairwise.nil, by simp [loop]⟩
  | val :: rest, i, last, hlast => by
    have hmono : c.blockStart i ≤ c.blockStart (i + 1) := c.blockStart_mono (Nat.le_succ i)
    have hskip := loop_reports rest (i + 1) last (fun o ho => Nat.le_trans (hlast o ho) hmono)
    rw [loop]
    split
    case isFalse hval => exact hskip.skip val (fun h => absurd h hval)
    case isTrue hval =>
      dsimp only
      split
      case isTrue hsame => exact hskip.skip val (fun _ => hsame)
      case isFalse hne =>
        have h := (loop_reports rest (i + 1) (some (c.blockStart i))
          (fun o ho => by rw [← Option.some.inj ho]; exact hmono)).skip val (fun _ => rfl)
        refine ⟨fun g hg => ?_, fun j v hj hv => Or.inr ?_,
          List.pairwise_cons.mpr ⟨fun g hg => h.above g hg _ rfl, h.ascending⟩, fun g hg o ho => ?_⟩
        · rcases List.mem_cons.mp hg with rfl | hg
          · exact ⟨rfl, 0, val, rfl, hval, rfl⟩
          · exact h.sound g hg
        · rcases h.complete j v hj hv with hj | hmem
          · rw [← Option.some.inj hj]
            exact List.mem_cons_self
          · exact List.mem_cons_of_mem _ hmem
        · -- the first block is not the one reported last, so it lies above it
          have hfirst : o < c.blockStart i := by
            refine Nat.lt_of_le_of_ne (hlast o ho) (fun heq => hne ?_)
            rw [ho, heq]
          rcases List.mem_cons.mp hg with rfl | hg
          · exact hfirst
          · exact Nat.lt_trans hfirst (h.above g hg _ rfl)

theorem loop_reports_all (c : Comparison) (l : List UInt8) :
    Reports c l 0 none (c.loop l 0 none) :=
  loop_reports l 0 none (fun o ho => absurd ho (by simp))

/-- A position is covered exactly when such a sector starts in its block. -/
theorem covers_iff (hb : 0 < c.blockSize) {l : List UInt8} {p : Nat} :
    (∃ g ∈ c.loop l 0 none, g.Covers p)
      ↔ ∃ j val, l[j]? = some val ∧ c.Above val ∧ c.blockStart j = p - p % c.blockSize := by
  have hp := Nat.div_add_mod p c.blockSize
  have hlt := Nat.mod_lt p hb
  constructor
  · rintro ⟨g, hg, hle, hpg⟩
    obtain ⟨hsize, j, val, hj, hval, hoff⟩ := (c.loop_reports_all l).sound g hg
    refine ⟨j, val, hj, hval, ?_⟩
    rw [hoff, Nat.zero_add, blockStart_eq] at hle
    rw [hoff, hsize, Nat.zero_add, blockStart_eq] at hpg
    -- both are the multiple of the block size at or below `p`
    have h1 : j * c.sectorSize / c.blockSize ≤ p / c.blockSize :=
      (Nat.le_div_iff_mul_le hb).mpr (by rw [Nat.mul_comm]; exact hle)
    have h2 : p / c.blockSize < j * c.sectorSize / c.blockSize + 1 := by
      rw [Nat.div_lt_iff_lt_mul hb, Nat.mul_comm, Nat.mul_succ]
      exact hpg
    rw [blockStart_eq, Nat.le_antisymm h1 (Nat.le_of_lt_succ h2)]
    omega
  · rintro ⟨j, val, hj, hval, hstart⟩
    rcases (c.loop_reports_all l).complete j val hj hval with hlast | hmem
    · simp at hlast
    · refine ⟨_, hmem, ?_⟩
      rw [Nat.zero_add, hstart]
      exact ⟨Nat.sub_le _ _, by dsimp only; omega⟩

/-- The reported ranges are blocks, in ascending order and apart from each other. -/
theorem loop_blocks (c : Comparison) (l : List UInt8) :
    (∀ g ∈ c.loop l 0 none, c.blockSize ∣ g.offset ∧ g.size = c.blockSize)
      ∧ (c.loop l 0 none).Pairwise
        (fun g g' => g.offset < g'.offset ∧ g.offset + g.size ≤ g'.offset) := by
  have hblock : ∀ g ∈ c.loop l 0 none, c.blockSize ∣ g.offset ∧ g.size = c.blockSize := by
    intro g hg
    obtain ⟨hsize, j, val, -, -, hoff⟩ := (c.loop_reports_all l).sound g hg
    rw [hoff, blockStart_eq]
    exact ⟨Nat.dvd_mul_right _ _, hsize⟩
  refine ⟨hblock, ?_⟩
  refine (c.loop_reports_all l).ascending.imp_of_mem (fun {g g'} hg hg' hlt => ⟨hlt, ?_⟩)
  obtain ⟨⟨a, ha⟩, hsize⟩ := hblock g hg
  obtain ⟨⟨b, hb⟩, -⟩ := hblock g' hg'
  rw [ha, hb] at hlt
  rw [ha, hb, hsize, ← Nat.mul_succ]
  exact Nat.mul_le_mul_left _ (Nat.lt_of_mul_lt_mul_left hlt)

end Comparison

/-! ## The table -/

namespace DiffDisk

/-- The top-most of the files `1 … m` with an extent in the sector, 0 if there is none. -/
def ownerTo (d : DiffDisk) (m s : Nat) : Nat :=
  Nat.findGreatest (fun i => 0 < i ∧ d.owns i s = true) m

/-- `d'` is `d` with the owners among the files `1 … m` in its table. -/
structure Tabled (d d' : DiffDisk) (m : Nat) : Prop where
  files : d'.files = d.files
  sectorSize : d'.sectorSize = d.sectorSize
  length : d'.location.length = d.location.length
  loc : ∀ s < d.location.length, d'.loc s = UInt8.ofNat (d.ownerTo m s)

/-- Without a backing file every round loads its file. -/
theorem preloadFile_false (d : DiffDisk) (i : Nat) : (preloadFile false d i).files = d.files
    ∧ (preloadFile false d i).sectorSize = d.sectorSize
    ∧ (preloadFile false d i).location = (d.loadLocationList i).location := by
  unfold preloadFile
  rw [if_neg (by simp)]
  dsimp only
  split <;> exact ⟨rfl, rfl, rfl⟩

theorem Tabled.next {d d' : DiffDisk} {m : Nat} (h : Tabled d d' m) :
    Tabled d (preloadFile false d' (m + 1)) (m + 1) := by
  obtain ⟨hf, hss, hl⟩ := preloadFile_false d' (m + 1)
  refine ⟨hf.trans h.files, hss.trans h.sectorSize, ?_, fun s hs => ?_⟩
  · rw [hl]
    exact List.length_mapIdx.trans h.length
  · have howns : d'.owns (m + 1) s = d.owns (m + 1) s := by
      rw [owns, owns, file, file, h.files, h.sectorSize]
    have hloc : (preloadFile false d' (m + 1)).loc s = (d'.loadLocationList (m + 1)).loc s := by
      rw [DiffDisk.loc, DiffDisk.loc, hl]
    rw [hloc, loc_loadLocationList, howns, h.length, ownerTo, Nat.findGreatest_succ]
    by_cases ho : d.owns (m + 1) s = true
    · rw [if_pos ⟨hs, ho⟩, if_pos ⟨Nat.succ_pos m, ho⟩]
    · rw [if_neg (fun hx => ho hx.2), if_neg (fun hx => ho hx.2)]
      exact h.loc s hs

/-- **The table after `Preload`** without a backing file has the owner of each sector. -/
theorem tabled_preload {d : DiffDisk} (hinit : ∀ s, d.loc s = 0) :
    Tabled d (d.preload false) (d.files.length - 1) := by
  have hrounds : ∀ m, Tabled d ((List.range' 1 m).foldl (preloadFile false) d) m := by
    intro m
    induction m with
    | zero => exact ⟨rfl, rfl, rfl, fun s _ => hinit s⟩
    | succ m ih =>
      rw [List.range'_1_concat, List.foldl_append, Nat.add_comm 1 m]
      exact ih.next
  exact hrounds _

/-- Some file above index `k` owns the sector. -/
theorem lt_ownerTo_iff {d : DiffDisk} {k m s : Nat} :
    k < d.ownerTo m s ↔ ∃ i, k < i ∧ i ≤ m ∧ d.owns i s = true := by
  constructor
  · intro hk
    have hne : d.ownerTo m s ≠ 0 := by omega
    exact ⟨d.ownerTo m s, hk, Nat.findGreatest_le m, (Nat.findGreatest_of_ne_zero rfl hne).2⟩
  · rintro ⟨i, hki, him, ho⟩
    exact Nat.lt_of_lt_of_le hki (Nat.le_findGreatest him ⟨by omega, ho⟩)

end DiffDisk

/-! ## A replica that was opened on the snapshot -/

theorem mapM_openFile_ok {dir : Dir} : ∀ {l : List String} {is : List Ino},
    l.mapM dir.openFile = .ok is → ∀ x ∈ l, ∃ i, dir.imgs.lookup x = some i
  | [], _, _, x, hx => absurd hx (by simp)
  | y :: l, is, h, x, hx => by
    rw [List.mapM_cons] at h
    cases hy : dir.imgs.lookup y with
    | none =>
      rw [Dir.openFile, hy] at h
      exact absurd h (by simp [bind, Except.bind])
    | some i =>
      rcases List.mem_cons.mp hx with rfl | hx
      · exact ⟨i, hy⟩
      · cases hl : l.mapM dir.openFile with
        | error e =>
          rw [Dir.openFile, hy, hl] at h
          exact absurd h (by simp [bind, Except.bind])
        | ok is' => exact mapM_openFile_ok hl x hx

/-- What a read-only open has found, and what it has made of it. -/
theorem newReadOnly_ok {dir : Dir} {name : String} {backingFile : Option BackingFile} {r : Replica}
    (h : newReadOnly dir name backingFile = .ok r) : ∃ l, IsChain (dir.metas.lookup ·) name l
      ∧ l.length ≤ maximumTotalSnapshotCount ∧ (∀ x ∈ l, ∃ i, dir.imgs.lookup x = some i)
      ∧ r.dir = dir ∧ r.activeDiskData = "" :: (backingFile.map BackingFile.path).toList ++ l.reverse
      ∧ r.info.backingFile = backingFile
      ∧ r.volume = ⟨List.replicate (dir.volumeMeta.size / volumeSectorSize) 0,
          0 :: (backingFile.map BackingFile.disk).toList ++ l.reverse.map dir.ino, volumeSectorSize,
          dir.volumeMeta.size⟩
      ∧ r.info.size = dir.volumeMeta.size := by
  unfold newReadOnly at h
  cases hc : chain dir.metas name with
  | error e =>
    rw [hc] at h
    exact absurd h (by simp [bind, Except.bind])
  | ok l =>
    rw [hc] at h
    dsimp only [bind, Except.bind] at h
    split at h
    · simp at h
    rename_i hlen
    cases hm : l.reverse.mapM dir.openFile with
    | error e =>
      rw [hm] at h
      simp at h
    | ok is =>
      have himgs : ∀ x ∈ l, ∃ i, dir.imgs.lookup x = some i := fun x hx =>
        mapM_openFile_ok hm x (List.mem_reverse.mpr hx)
      have his := Dir.mapM_openFile (l := l.reverse) (fun x hx => himgs x (List.mem_reverse.mp hx))
      obtain rfl := Except.ok.inj (hm.symm.trans his)
      rw [hm] at h
      dsimp only at h
      split at h
      · simp at h
      · obtain rfl := Except.ok.inj h
        exact ⟨l, isChain_of_chain hc, Nat.not_lt.mp hlen, himgs, rfl, rfl, rfl, rfl, rfl⟩

/-- A parent in the chain is the start of the rest of it; the empty parent has nothing below. -/
theorem IsChain.split {m : String → Option Disk} {name parent : String} {l : List String}
    (h : IsChain m name l) (hp : parent = "" ∨ parent ∈ l) :
    ∃ u v, l = u ++ v ∧ IsChain m parent v := by
  rcases hp with rfl | hp
  · exact ⟨l, [], (List.append_nil l).symm, .nil⟩
  · obtain ⟨u, v, rfl, hv⟩ := h.suffix hp
    exact ⟨u, parent :: v, rfl, hv⟩

namespace Replica

/-- The index of a disk of the chain is the length of its own chain. -/
theorem findDisk_of_split {r : Replica} {m : String → Option Disk} {name x : String}
    {u v : List String} (hact : r.activeDiskData = "" :: (u ++ v).reverse)
    (hc : IsChain m name (u ++ v)) (hx : IsChain m x v) : r.findDisk x = v.length := by
  rw [findDisk, hact, List.tail_cons]
  cases hx with
  | nil =>
    rw [if_neg]
    · rfl
    · intro hmem
      exact hc.mem_ne_empty (List.mem_reverse.mp hmem) rfl
  | @cons x disk w hne hm hw =>
    have hnotin : x ∉ w := (List.nodup_cons.mp (IsChain.cons hne hm hw).nodup).1
    rw [if_pos (by simp), List.reverse_append, List.reverse_cons, List.append_assoc,
      List.idxOf_append, if_neg (fun hmem => hnotin (List.mem_reverse.mp hmem)),
      List.singleton_append, List.idxOf_cons_self, List.length_reverse, Nat.zero_add]
    rfl

/-- A disk above the parent owns the sector. -/
def Changed (r : Replica) (parent : String) (s : Nat) : Prop :=
  ∃ i, r.findDisk parent < i ∧ i < r.volume.files.length ∧ r.view.owns i s = true

/-- The byte at `p` read through the parent; without one the volume is all zero. -/
def parentByte (dir : Dir) (parent : String) (p : Nat) : Option UInt8 :=
  if parent = "" then some 0 else snapshotByte dir parent none p

/-- The replica is open on `name`, and the chain of `parent` is `v`, the lower part of its own. -/
structure OpenOn (r : Replica) (name parent : String) (u v : List String) : Prop where
  chain : IsChain (r.dir.metas.lookup ·) name (u ++ v)
  below : IsChain (r.dir.metas.lookup ·) parent v
  short : (u ++ v).length ≤ maximumTotalSnapshotCount
  images : ∀ x ∈ u ++ v, ∃ i, r.dir.imgs.lookup x = some i
  active : r.activeDiskData = "" :: (u ++ v).reverse
  backing : r.info.backingFile = none
  volume : r.volume = ⟨List.replicate (r.dir.volumeMeta.size / volumeSectorSize) 0,
    0 :: (u ++ v).reverse.map r.dir.ino, volumeSectorSize, r.dir.volumeMeta.size⟩
  size : r.info.size = r.dir.volumeMeta.size

theorem exists_openOn {r : Replica} {dir : Dir} {name parent : String}
    (hopen : newReadOnly dir name none = .ok r)
    (hp : parent = "" ∨ parent ∈ r.activeDiskData.tail) :
    r.dir = dir ∧ ∃ u v, OpenOn r name parent u v := by
  obtain ⟨l, hc, hlen, himgs, rfl, hact, hback, hvol, hinfo⟩ := newReadOnly_ok hopen
  have hact : r.activeDiskData = "" :: l.reverse := hact
  rw [hact, List.tail_cons, List.mem_reverse] at hp
  obtain ⟨u, v, rfl, hv⟩ := hc.split hp
  exact ⟨rfl, u, v, hc, hv, hlen, himgs, hact, hback, hvol, hinfo⟩

namespace OpenOn

variable {r : Replica} {name parent : String} {u v : List String}

section

variable (h : OpenOn r name parent u v)
include h

theorem findDisk_parent : r.findDisk parent = v.length :=
  findDisk_of_split h.active h.chain h.below

theorem findDisk_name : r.findDisk name = (u ++ v).length :=
  findDisk_of_split (u := []) h.active h.chain h.chain

theorem length_files :
    r.volume.files.length = (u ++ v).length + 1 := by
  rw [h.volume, List.length_cons, List.length_map, List.length_reverse]

end

theorem loc_init (r : Replica) (s : Nat) : (r.view.initializeSectorLocation 0).loc s = 0 := by
  show (r.volume.location.map (fun _ => (0 : UInt8))).getD s 0 = 0
  rw [List.getD_eq_getElem?_getD, List.getElem?_map]
  cases r.volume.location[s]? <;> rfl

/-- The table that is preloaded has the owner of each sector. -/
theorem loc_preload (h : OpenOn r name parent u v) {s : Nat}
    (hs : s < r.dir.volumeMeta.size / volumeSectorSize) :
    (r.preload false).volume.location[s]?
      = some (UInt8.ofNat (r.view.ownerTo (u ++ v).length s)) := by
  have hlen : (r.view.initializeSectorLocation 0).location.length
      = r.dir.volumeMeta.size / volumeSectorSize := by
    show (r.volume.location.map _).length = _
    rw [h.volume, List.length_map, List.length_replicate]
  have ht := DiffDisk.tabled_preload (loc_init r)
  have hfiles : (r.view.initializeSectorLocation 0).files.length - 1 = (u ++ v).length := by
    show (r.volume.files.map _).length - 1 = _
    rw [List.length_map, h.length_files]
    rfl
  have hpre : (r.preload false).volume.location
      = ((r.view.initializeSectorLocation 0).preload false).location := by
    rw [preload, h.backing]
    rfl
  have hloc := ht.loc s (by rw [hlen]; exact hs)
  rw [hfiles] at hloc
  rw [hpre]
  rw [DiffDisk.loc, List.getD_eq_getElem?_getD] at hloc
  have hlt : s < ((r.view.initializeSectorLocation 0).preload false).location.length := by
    rw [ht.length, hlen]
    exact hs
  rw [List.getElem?_eq_getElem hlt] at hloc ⊢
  exact congrArg some hloc

theorem length_location (h : OpenOn r name parent u v) :
    (r.preload false).volume.location.length = r.dir.volumeMeta.size / volumeSectorSize := by
  have ht := DiffDisk.tabled_preload (loc_init r)
  rw [preload, h.backing]
  refine ht.length.trans ?_
  show (r.volume.location.map _).length = _
  rw [h.volume, List.length_map, List.length_replicate]

/-- What the loop goes by. -/
def comparison (u v : List String) (blockSize : Nat) : Comparison :=
  ⟨UInt8.ofNat v.length, UInt8.ofNat (u ++ v).length, volumeSectorSize, blockSize⟩

section

variable (h : OpenOn r name parent u v)
include h

theorem compareSnapshot_eq (hne : name ≠ "") {blockSize : Nat}
    (hb : 0 < blockSize) : r.compareSnapshot name parent blockSize
      = (r.preload false, .ok ((comparison u v blockSize).loop
          (r.preload false).volume.location 0 none)) := by
  have hpos : (u ++ v).length ≠ 0 := by
    obtain ⟨w, hw⟩ := h.chain.head_mem hne
    rw [hw]
    simp
  have hto : (if parent = "" then 0 else r.findDisk parent) = v.length := by
    split
    · rename_i hp
      have hv := h.below
      rw [hp] at hv
      cases hv with
      | nil => rfl
      | cons hne _ _ => exact absurd rfl hne
    · exact h.findDisk_parent
  have hfound : ¬ (parent ≠ "" ∧ v.length = 0) := by
    rintro ⟨hp, hv⟩
    obtain ⟨w, hw⟩ := h.below.head_mem hp
    rw [hw] at hv
    simp at hv
  have hss : (r.preload false).volume.sectorSize = volumeSectorSize := by
    show r.volume.sectorSize = _
    rw [h.volume]
  unfold compareSnapshot
  rw [if_neg hne, if_neg (by omega)]
  dsimp only
  rw [h.findDisk_name, hto, if_neg hpos, if_neg hfound, if_neg (by simp), hss,
    if_neg (by decide), Int.toNat_natCast]
  rfl

/-- The table tells which sectors a disk above the parent owns. -/
theorem above_iff (blockSize s : Nat) :
    (∃ val, (r.preload false).volume.location[s]? = some val
        ∧ (comparison u v blockSize).Above val)
      ↔ s < r.dir.volumeMeta.size / volumeSectorSize ∧ r.Changed parent s := by
  have h250 : maximumTotalSnapshotCount = 250 := rfl
  have hshort := h.short
  have hlv : v.length ≤ (u ++ v).length := by simp
  have hle : r.view.ownerTo (u ++ v).length s ≤ (u ++ v).length := Nat.findGreatest_le _
  have hmod : ∀ n, n ≤ (u ++ v).length → (UInt8.ofNat n).toNat = n := fun n hn => by
    rw [UInt8.toNat_ofNat', Nat.mod_eq_of_lt (by omega)]
  have hchanged : r.Changed parent s ↔ v.length < r.view.ownerTo (u ++ v).length s := by
    rw [DiffDisk.lt_ownerTo_iff, Changed, h.findDisk_parent, h.length_files]
    exact exists_congr (fun i => by rw [Nat.lt_succ_iff])
  rw [hchanged]
  constructor
  · rintro ⟨val, hval, habove⟩
    have hs : s < r.dir.volumeMeta.size / volumeSectorSize := by
      rw [← h.length_location]
      exact (List.getElem?_eq_some_iff.mp hval).1
    rw [h.loc_preload hs] at hval
    obtain rfl := Option.some.inj hval
    have hgt := UInt8.lt_iff_toNat_lt.mp habove.2
    rw [hmod _ hle] at hgt
    exact ⟨hs, by rwa [comparison, hmod _ hlv] at hgt⟩
  · rintro ⟨hs, hgt⟩
    refine ⟨_, h.loc_preload hs, UInt8.le_iff_toNat_le.mpr ?_, UInt8.lt_iff_toNat_lt.mpr ?_⟩
    · rw [hmod _ hle, comparison, hmod _ (Nat.le_refl _)]
      exact hle
    · rw [hmod _ hle, comparison, hmod _ hlv]
      exact hgt

/-- **Where the two snapshots differ, a disk above the parent owns the sector.** -/
theorem changed_of_ne (hne : name ≠ "")
    (hsize : r.dir.volumeMeta.size % volumeSectorSize = 0) {p : Nat}
    (hp : p < r.dir.volumeMeta.size)
    (hdiff : snapshotByte r.dir name none p ≠ parentByte r.dir parent p) :
    r.Changed parent (p / volumeSectorSize) := by
  have hname := snapshotByte_eq none h.chain hne h.short h.images hsize hp
  have hparent : parentByte r.dir parent p = some (r.dir.showing none v p) := by
    have hbelow := h.below
    unfold parentByte
    split
    · rename_i hpe
      rw [hpe] at hbelow
      cases hbelow with
      | nil => rfl
      | cons hne _ _ => exact absurd rfl hne
    · rename_i hpne
      have hshort := h.short
      rw [List.length_append] at hshort
      exact snapshotByte_eq none hbelow hpne (by omega)
        (fun x hx => h.images x (List.mem_append_right u hx)) hsize hp
  by_contra hsame
  refine hdiff ?_
  rw [hname, hparent]
  congr 1
  rw [Dir.showing, Dir.showing, Dir.stack, Dir.stack, List.map_append, List.append_assoc]
  refine through_append_of_none (fun f hf => ?_)
  obtain ⟨x, hx, rfl⟩ := List.mem_map.mp hf
  -- a file of `u` that held the sector would be one above the parent
  by_contra hholds
  refine hsame ?_
  obtain ⟨k, hk, hxk⟩ := List.getElem_of_mem (List.mem_reverse.mpr hx)
  refine ⟨v.length + 1 + k, ?_, ?_, ?_⟩
  · rw [h.findDisk_parent]
    omega
  · rw [h.length_files, List.length_append]
    rw [List.length_reverse] at hk
    omega
  · have hfile : r.view.file (v.length + 1 + k) = r.dir.data (r.dir.ino x) := by
      show ((r.volume.files.map r.dir.data).getD _ _) = _
      rw [h.volume, List.getD_eq_getElem?_getD, List.getElem?_map, Nat.add_right_comm,
        List.getElem?_cons_succ, List.getElem?_map, List.reverse_append,
        List.getElem?_append_right (by rw [List.length_reverse]; omega), List.length_reverse,
        Nat.add_sub_cancel_left, List.getElem?_eq_getElem hk, hxk]
      rfl
    have hss : r.view.sectorSize = volumeSectorSize := by
      show r.volume.sectorSize = _
      rw [h.volume]
    rw [DiffDisk.owns, hfile, hss]
    unfold DiffDisk.holds at hholds
    by_contra ho
    exact hholds (if_neg ho)

end

end OpenOn

/-- The positions at which the snapshot and its parent differ. -/
def Differ (dir : Dir) (name parent : String) (p : Nat) : Prop :=
  p < dir.volumeMeta.size ∧ snapshotByte dir name none p ≠ parentByte dir parent p

/--
The block of the byte at `p` begins no later than its sector, or some changed sector
starts in it.
-/
def Reported (r : Replica) (parent : String) (blockSize p : Nat) : Prop :=
  p % volumeSectorSize ≤ p % blockSize
    ∨ ∃ s < r.dir.volumeMeta.size / volumeSectorSize, r.Changed parent s
      ∧ s * volumeSectorSize - s * volumeSectorSize % blockSize = p - p % blockSize

/-- A sector that does not begin before the block of one of its bytes starts in that block. -/
theorem blockStart_of_le {sectorSize blockSize p : Nat} (hb : 0 < blockSize)
    (h : p % sectorSize ≤ p % blockSize) :
    p / sectorSize * sectorSize - p / sectorSize * sectorSize % blockSize
      = p - p % blockSize := by
  have h1 := Nat.div_add_mod p sectorSize
  have h2 := Nat.div_add_mod p blockSize
  have h3 := Nat.mod_lt p hb
  rw [Nat.mul_comm] at h1
  have hdiv : p / sectorSize * sectorSize / blockSize = p / blockSize := by
    refine Nat.div_eq_of_lt_le ?_ ?_
    · rw [Nat.mul_comm]
      omega
    · rw [Nat.add_mul, Nat.one_mul, Nat.mul_comm (p / blockSize)]
      omega
  have h4 := Nat.div_add_mod (p / sectorSize * sectorSize) blockSize
  rw [hdiv] at h4
  omega

/-- A byte that differs is covered exactly when it is reported. -/
theorem OpenOn.covers_iff {r : Replica} {name parent : String} {u v : List String}
    (h : OpenOn r name parent u v) (hne : name ≠ "") {blockSize p : Nat} (hb : 0 < blockSize)
    (hsize : r.dir.volumeMeta.size % volumeSectorSize = 0) (hdiff : Differ r.dir name parent p) :
    (∃ g ∈ (comparison u v blockSize).loop (r.preload false).volume.location 0 none, g.Covers p)
      ↔ r.Reported parent blockSize p := by
  rw [Comparison.covers_iff hb]
  constructor
  · rintro ⟨j, val, hj, habove, hstart⟩
    obtain ⟨hlt, hchanged⟩ := (h.above_iff blockSize j).mp ⟨val, hj, habove⟩
    exact .inr ⟨j, hlt, hchanged, hstart⟩
  · rintro (hle | ⟨s, hlt, hchanged, hstart⟩)
    · -- the byte's own sector is one of those the table names
      have hlt : p / volumeSectorSize < r.dir.volumeMeta.size / volumeSectorSize :=
        Nat.div_lt_div_of_lt_of_dvd (Nat.dvd_of_mod_eq_zero hsize) hdiff.1
      obtain ⟨val, hj, habove⟩ := (h.above_iff blockSize _).mpr
        ⟨hlt, h.changed_of_ne hne hsize hdiff.1 hdiff.2⟩
      exact ⟨_, val, hj, habove, blockStart_of_le hb hle⟩
    · obtain ⟨val, hj, habove⟩ := (h.above_iff blockSize s).mpr ⟨hlt, hchanged⟩
      exact ⟨s, val, hj, habove, hstart⟩

/--
**What `CompareSnapshot` reports.** The ranges are blocks, in ascending order and apart
from each other; and they cover every byte at which the snapshot and its parent differ
exactly when each of these bytes has a block that does not begin inside its sector, or
one that another changed sector starts in.
-/
theorem compareSnapshot_covers_iff {dir : Dir} {name parent : String} {r : Replica}
    {blockSize : Nat} (hopen : newReadOnly dir name none = .ok r) (hne : name ≠ "")
    (hp : parent = "" ∨ parent ∈ r.activeDiskData.tail) (hb : 0 < blockSize)
    (hsize : dir.volumeMeta.size % volumeSectorSize = 0) :
    ∃ r' ranges, r.compareSnapshot name parent blockSize = (r', .ok ranges)
      ∧ ranges.Pairwise (fun g g' => g.offset < g'.offset ∧ g.offset + g.size ≤ g'.offset)
      ∧ (∀ g ∈ ranges, blockSize ∣ g.offset ∧ g.size = blockSize)
      ∧ ((∀ p, Differ dir name parent p → ∃ g ∈ ranges, g.Covers p)
        ↔ ∀ p, Differ dir name parent p → r.Reported parent blockSize p) := by
  obtain ⟨rfl, u, v, h⟩ := exists_openOn hopen hp
  obtain ⟨hblocks, hpair⟩ := (OpenOn.comparison u v blockSize).loop_blocks
    (r.preload false).volume.location
  exact ⟨_, _, h.compareSnapshot_eq hne hb, hpair, hblocks,
    forall_congr' (fun _ => imp_congr_right (fun hdiff => h.covers_iff hne hb hsize hdiff))⟩

/-! ## A sector of ones -/

/-- A snapshot of one sector that was written throughout. -/
def onesDir : Dir where
  data := fun _ => File.filled 4096 1
  imgs := AList.singleton (generateSnapshotDiskName "a") 1
  metas := AList.singleton (generateSnapshotDiskName "a") ⟨"", false, true, "t", none⟩
  volumeMeta := ⟨4096, "", true, "", none⟩

theorem exists_ones : ∃ r, newReadOnly onesDir (generateSnapshotDiskName "a") none = .ok r
    ∧ (r.compareSnapshot (generateSnapshotDiskName "a") "" 512).2 = .ok [⟨0, 512⟩] :=
  ⟨_, rfl, by decide +kernel⟩

theorem ones_differ : Differ onesDir (generateSnapshotDiskName "a") "" 512 := by
  refine ⟨by decide, ?_⟩
  have hchain : IsChain (onesDir.metas.lookup ·) (generateSnapshotDiskName "a")
      [generateSnapshotDiskName "a"] := .cons (by decide) rfl .nil
  rw [snapshotByte_eq none hchain (by decide) (by decide) (fun x hx => ?_) (by decide) (by decide)]
  · show some (Layers.through _ 0 [File.filled 4096 1]) ≠ some 0
    rw [Layers.through_cons_of_some (b := 1) (by decide +kernel)]
    decide
  · obtain rfl := List.mem_singleton.mp hx
    exact ⟨1, rfl⟩

/-- With blocks of whole sectors the whole snapshot is reported. -/
theorem compareSnapshot_covers_iff_ones :
    ∃ r r' ranges, newReadOnly onesDir (generateSnapshotDiskName "a") none = .ok r
      ∧ r.compareSnapshot (generateSnapshotDiskName "a") "" (4096 : Nat) = (r', .ok ranges)
      ∧ ∀ p, Differ onesDir (generateSnapshotDiskName "a") "" p → ∃ g ∈ ranges, g.Covers p := by
  obtain ⟨r, hopen, -⟩ := exists_ones
  obtain ⟨r', ranges, hok, -, -, hiff⟩ := compareSnapshot_covers_iff hopen
    (by decide) (.inl rfl) (show 0 < 4096 by decide) (by decide)
  exact ⟨r, r', ranges, hopen, hok, hiff.mpr (fun p _ => .inl (Nat.le_refl _))⟩

/--
With blocks of 512 bytes only the first one of the sector is reported, although the
byte after it differs as well.
-/
theorem compareSnapshot_misses :
    ∃ r ranges, newReadOnly onesDir (generateSnapshotDiskName "a") none = .ok r
      ∧ (r.compareSnapshot (generateSnapshotDiskName "a") "" 512).2 = .ok ranges
      ∧ Differ onesDir (generateSnapshotDiskName "a") "" 512 ∧ ∀ g ∈ ranges, ¬ g.Covers 512 := by
  obtain ⟨r, hopen, hok⟩ := exists_ones
  exact ⟨r, [⟨0, 512⟩], hopen, hok, ones_differ, by decide⟩

end Replica

end WeftBlock
