import WeftBlock.Replica.Replica

/-!
# Which disks an unmap reaches

`Replica.UnmapAt` means to punch the head and the *unbroken* run of removed disks
directly below it. Its loop stops at the first disk with several children but only
passes over a disk that is not removed, so the list it builds has one entry for
every removed disk it met (`listed`), in or out of the run. `diffDisk.UnmapAt`
then spends the list by position. So it reaches `listed` files below the head
where only `run` of them may be touched, and every position in between is a disk
that is not removed or lies below one.
-/

namespace WeftBlock

variable {i : Ino}

namespace Volume

theorem writeBack_of_not_mem : ∀ {is : List Ino} {fs : List File} {data : Ino → File},
    i ∉ is → writeBack is fs data i = data i
  | [], _, _, _ => by rw [writeBack]; simp
  | _ :: _, [], _, _ => by rw [writeBack]; simp
  | j :: is, f :: fs, data, h => by
    rw [writeBack, Function.update_of_ne (fun he => h (by rw [he]; exact List.mem_cons_self)),
      writeBack_of_not_mem (fun hm => h (List.mem_cons_of_mem _ hm))]

/-- With every file open once, an open file holds what was written back at its index. -/
theorem writeBack_of_getElem? {f : File} :
    ∀ {is : List Ino} {fs : List File} {data : Ino → File} {idx : Nat}, is.Nodup →
      is[idx]? = some i → fs[idx]? = some f → writeBack is fs data i = f
  | [], _, _, idx, _, hi, _ => by simp at hi
  | _ :: _, [], _, idx, _, _, hf => by simp at hf
  | j :: is, g :: fs, data, 0, _, hi, hf => by
    have hi' : j = i := by simpa using hi
    have hf' : g = f := by simpa using hf
    rw [writeBack, hi', Function.update_self, hf']
  | j :: is, g :: fs, data, idx + 1, hn, hi, hf => by
    have hi' : is[idx]? = some i := by simpa using hi
    have hne : i ≠ j := fun he =>
      (List.nodup_cons.mp hn).1 (by rw [← he]; exact List.mem_of_getElem? hi')
    rw [writeBack, Function.update_of_ne hne]
    exact writeBack_of_getElem? (List.nodup_cons.mp hn).2 hi' (by simpa using hf)

end Volume

variable {r : Replica} {idx : Nat}

namespace Replica

/-- The file array and the active disks of an open replica run in step, each file open once. -/
structure Aligned (r : Replica) : Prop where
  length : r.volume.files.length = r.activeDiskData.length
  nodup : r.volume.files.Nodup
  two_le : 2 ≤ r.activeDiskData.length

/-- The lowest index the loop of `UnmapAt` goes down to: the backing file is left out. -/
def low (r : Replica) : Nat := if r.isBackingFile 1 then 2 else 1

/-- The active disks from index `idx` down to `low`. -/
def downFrom (r : Replica) (idx : Nat) : List String :=
  (List.range' r.low (idx + 1 - r.low)).reverse.map (fun i => r.activeDiskData.getD i "")

/-- The disks below the head, top down, without the backing file. -/
def below (r : Replica) : List String := r.downFrom (r.activeDiskData.length - 2)

/-- A disk the loop does not stop at. -/
def single (r : Replica) (name : String) : Bool := decide (r.childCount name ≤ 1)

/-- The disks the loop lists after the head. -/
def listed (r : Replica) : List String := (r.below.takeWhile r.single).filter r.removed

/-- The unbroken run of removed disks with a single child directly below the head. -/
def run (r : Replica) : List String := r.below.takeWhile (fun name => r.single name && r.removed name)

theorem one_le_low (r : Replica) : 1 ≤ r.low := by
  unfold low
  split <;> omega

theorem downFrom_succ (h : r.low ≤ idx + 1) :
    r.downFrom (idx + 1) = r.activeDiskData.getD (idx + 1) "" :: r.downFrom idx := by
  have hlen : idx + 1 + 1 - r.low = idx + 1 - r.low + 1 := by omega
  have hlast : r.low + (idx + 1 - r.low) = idx + 1 := by omega
  rw [downFrom, downFrom, hlen, List.range'_1_concat, List.reverse_append, hlast]
  rfl

theorem length_below (h : r.Aligned) :
    r.below.length = r.activeDiskData.length - 1 - r.low := by
  have := h.two_le
  rw [below, downFrom, List.length_map, List.length_reverse, List.length_range']
  omega

/-- The loop without marking: it changes nothing and filters what it passes. -/
theorem unmappableLoop_eq (hm : r.unmapMarkDiskChainRemoved = false) : ∀ idx,
    unmappableLoop r.low idx r = (r, .ok (((r.downFrom idx).takeWhile r.single).filter r.removed))
  | 0 => by
    have : 0 + 1 - r.low = 0 := by have := one_le_low r; omega
    rw [unmappableLoop, downFrom, this]
    rfl
  | idx + 1 => by
    rw [unmappableLoop]
    by_cases hlow : idx + 1 < r.low
    · rw [if_pos hlow, downFrom, show idx + 1 + 1 - r.low = 0 by omega]
      rfl
    rw [if_neg hlow, downFrom_succ (by omega), List.takeWhile_cons]
    by_cases hc : 1 < r.childCount (r.activeDiskData.getD (idx + 1) "")
    · rw [if_pos hc, if_neg (by rw [single, decide_eq_true_eq]; omega)]
      rfl
    · have hsingle : r.single (r.activeDiskData.getD (idx + 1) "") = true := by
        rw [single, decide_eq_true_eq]; omega
      have hmark : (if r.unmapMarkDiskChainRemoved
          then r.markDiskAsRemoved (r.activeDiskData.getD (idx + 1) "") else (r, .ok ()))
          = (r, .ok ()) := if_neg (by rw [hm]; decide)
      rw [if_neg hc, if_pos hsingle, hmark]
      dsimp only
      rw [unmappableLoop_eq hm idx]
      dsimp only
      rw [List.filter_cons]

theorem length_listed_le (h : r.Aligned) :
    r.listed.length + r.low < r.activeDiskData.length ∨ r.listed.length = 0 := by
  have h1 : r.listed.length ≤ r.below.length :=
    Nat.le_trans (List.length_filter_le _ _) (List.takeWhile_sublist _).length_le
  have h2 := length_below h
  omega

/-! ## What happens to the inodes -/

/-- The inodes after the open files came to hold `d'`. -/
theorem data_store_of_open (h : r.Aligned) {d' : DiffDisk}
    (hlen : d'.files.length = r.volume.files.length)
    (hi : r.volume.files[idx]? = some i) : (r.store d').dir.data i = d'.file idx := by
  have hlt : idx < d'.files.length := by
    rw [hlen]; exact (List.getElem?_eq_some_iff.mp hi).1
  refine Volume.writeBack_of_getElem? h.nodup hi ?_
  rw [DiffDisk.file, List.getD_eq_getElem?_getD, List.getElem?_eq_getElem hlt]
  rfl

theorem data_store_of_not_open {d' : DiffDisk}
    (hi : i ∉ r.volume.files) : (r.store d').dir.data i = r.dir.data i :=
  Volume.writeBack_of_not_mem hi

theorem view_file (hi : r.volume.files[idx]? = some i) :
    r.view.file idx = r.dir.data i := by
  show (r.volume.files.map r.dir.data).getD idx _ = _
  rw [List.getD_eq_getElem?_getD, List.getElem?_map, hi]
  rfl

/-- **An unmap, inode by inode.** -/
theorem data_unmapAt (h : r.Aligned) (hm : r.unmapMarkDiskChainRemoved = false)
    (hro : r.readOnly = false) (actualSize : List File → String → Int) (length : UInt32)
    (offset : Int64) (hi : r.volume.files[idx]? = some i) :
    (r.unmapAt actualSize length offset).1.dir.data i
      = r.view.unmappedFile (r.listed.length + 1) length offset idx := by
  unfold unmapAt
  rw [hro, if_neg (by decide)]
  dsimp only
  have hloop := unmappableLoop_eq hm (r.activeDiskData.length - 2)
  rw [low] at hloop
  rw [hloop]
  dsimp only
  have hw := DiffDisk.unmapAt_spec actualSize r.view
    (r.activeDiskData.getD (r.activeDiskData.length - 1) "" :: r.listed) length offset
  rw [List.length_cons] at hw
  have hlen := hw.length
  rw [show r.view.files.length = r.volume.files.length from List.length_map _] at hlen
  rw [← hw.file idx]
  exact data_store_of_open h hlen hi

theorem data_unmapAt_of_not_open (hm : r.unmapMarkDiskChainRemoved = false)
    (actualSize : List File → String → Int) (length : UInt32) (offset : Int64)
    (hi : i ∉ r.volume.files) :
    (r.unmapAt actualSize length offset).1.dir.data i = r.dir.data i := by
  unfold unmapAt
  cases hro : r.readOnly with
  | true => rfl
  | false =>
    rw [if_neg (by decide)]
    dsimp only
    have hloop := unmappableLoop_eq hm (r.activeDiskData.length - 2)
    rw [low] at hloop
    rw [hloop]
    exact data_store_of_not_open hi

/--
The range an unmap punches holds no data in the disks that the list reaches
beyond the run.
-/
def ClearBeyondRun (r : Replica) (length : UInt32) (offset : Int64) : Prop :=
  r.readOnly = false → ∀ l o, r.view.hole length offset = some (l, o) →
    ∀ idx, r.activeDiskData.length ≤ idx + 1 + r.listed.length →
      idx + 1 + r.run.length < r.activeDiskData.length →
      ∀ p, o.toInt.toNat ≤ p →
        p < o.toInt.toNat + (DiffDisk.curLength (r.view.file idx) l o).toNat →
        (r.view.file idx).cell p = none

/-- A file the range is punched into stays as it is exactly when the range is clear in it. -/
theorem punched_eq_self_iff {f : File} {l : UInt32} {o : Int64} (h0 : 0 ≤ o.toInt) :
    DiffDisk.punched f l o = f ↔ ∀ p, o.toInt.toNat ≤ p →
      p < o.toInt.toNat + (DiffDisk.curLength f l o).toNat → f.cell p = none := by
  unfold DiffDisk.punched
  split
  · rename_i hlt
    exact ⟨fun _ p hp _ => f.cell_eq_none p (by omega), fun _ => rfl⟩
  · exact File.punch_eq_self_iff

theorem hole_nonneg {d : DiffDisk} {length l : UInt32} {offset o : Int64}
    (h : d.hole length offset = some (l, o)) : 0 ≤ o.toInt := by
  unfold DiffDisk.hole at h
  split at h
  · split at h
    · rename_i hfit
      have := Option.some.inj h
      simp only [Prod.mk.injEq] at this
      rw [← this.2]
      exact hfit.1
    · simp at h
  · simp at h

/--
**An unmap leaves everything outside the head and the run alone exactly when the
range is clear in the disks beyond the run.** "Everything" is every inode: the
other disks of the chain, those of other branches, and the backing file.
-/
theorem unmapAt_frame_iff {r : Replica} (h : r.Aligned) (hm : r.unmapMarkDiskChainRemoved = false)
    (actualSize : List File → String → Int) (length : UInt32) (offset : Int64) :
    (∀ i : Ino, (∀ idx, r.activeDiskData.length ≤ idx + 1 + r.run.length →
        r.volume.files[idx]? ≠ some i) →
      (r.unmapAt actualSize length offset).1.dir.data i = r.dir.data i)
      ↔ r.ClearBeyondRun length offset := by
  have hn : r.view.files.length = r.activeDiskData.length := by
    rw [← h.length]; exact List.length_map _
  constructor
  · intro hframe hro l o hhole idx hge hlt
    have hidx : idx < r.volume.files.length := by rw [h.length]; omega
    have hi : r.volume.files[idx]? = some (r.volume.files[idx]) := List.getElem?_eq_getElem hidx
    have hsame := hframe r.volume.files[idx] (fun j hj hfj => by
      have hij := (List.getElem?_inj hidx h.nodup).mp (hi.trans hfj.symm)
      omega)
    have hlow := one_le_low r
    have hlisted := length_listed_le h
    rw [data_unmapAt h hm hro actualSize length offset hi, ← view_file hi,
      DiffDisk.unmappedFile, hhole, hn] at hsame
    dsimp only at hsame
    rw [if_pos (by omega)] at hsame
    exact (punched_eq_self_iff (hole_nonneg hhole)).mp hsame
  · intro hclear i hout
    by_cases hmem : i ∈ r.volume.files
    · obtain ⟨idx, hi⟩ := List.mem_iff_getElem?.mp hmem
      have hnotrun : idx + 1 + r.run.length < r.activeDiskData.length :=
        Nat.not_le.mp (fun hle => hout idx hle hi)
      cases hro : r.readOnly with
      | true => rw [unmapAt, hro]; rfl
      | false =>
        rw [data_unmapAt h hm hro actualSize length offset hi, ← view_file hi,
          DiffDisk.unmappedFile]
        cases hhole : r.view.hole length offset with
        | none => rfl
        | some lo =>
          obtain ⟨l, o⟩ := lo
          dsimp only
          split
          · rename_i hreach
            exact (punched_eq_self_iff (hole_nonneg hhole)).mpr
              (hclear hro l o hhole idx (by omega) hnotrun)
          · rfl
    · exact data_unmapAt_of_not_open hm actualSize length offset hmem

/-! ## A live snapshot above a removed one -/

/-- A record with nothing set but its parent and its flag. -/
def record (parent : String) (removed : Bool) : Disk := ⟨parent, removed, true, "", none⟩

/--
One sector, three disks: `a` is marked as removed, `b` above it is a live snapshot
that wrote the sector, and the head above both is empty.
-/
def liveOverRemoved : Replica where
  dir := {
    data := fun i => if i = 1 then File.filled 4096 1 else if i = 2 then File.filled 4096 2
      else File.empty 4096
    imgs := [⟨"a", 1⟩, ⟨"b", 2⟩, ⟨"head", 3⟩].toAList
    metas := [⟨"a", record "" true⟩, ⟨"b", record "a" false⟩, ⟨"head", record "b" false⟩].toAList
    volumeMeta := ⟨4096, "head", true, "b", none⟩ }
  volume := ⟨[0], [0, 1, 2, 3], 4096, 4096⟩
  info := ⟨4096, "head", true, "b", none⟩
  diskData := [⟨"a", record "" true⟩, ⟨"b", record "a" false⟩, ⟨"head", record "b" false⟩].toAList
  diskChildrenMap := [⟨"a", {"b"}⟩, ⟨"b", {"head"}⟩].toAList
  activeDiskData := ["", "a", "b", "head"]
  readOnly := false
  unmapMarkDiskChainRemoved := false

theorem liveOverRemoved_aligned : liveOverRemoved.Aligned := ⟨by decide, by decide, by decide⟩

theorem unmapAt_frame_iff_live :
    liveOverRemoved.Aligned ∧ liveOverRemoved.unmapMarkDiskChainRemoved = false
      ∧ ((∀ i : Ino, (∀ idx, liveOverRemoved.activeDiskData.length
            ≤ idx + 1 + liveOverRemoved.run.length →
            liveOverRemoved.volume.files[idx]? ≠ some i) →
          (liveOverRemoved.unmapAt (fun _ _ => 0) 4096 0).1.dir.data i
            = liveOverRemoved.dir.data i)
        ↔ liveOverRemoved.ClearBeyondRun 4096 0) :=
  ⟨liveOverRemoved_aligned, rfl,
    unmapAt_frame_iff liveOverRemoved_aligned rfl (fun _ _ => 0) 4096 0⟩

/-- Unmapping the sector zeroes the live snapshot `b`. -/
theorem unmapAt_zeroes_live_snapshot :
    liveOverRemoved.Aligned ∧ liveOverRemoved.removed "b" = false
      ∧ liveOverRemoved.dir.imgs.lookup "b" = some 2
      ∧ (liveOverRemoved.dir.data 2).byteAt 0 = 2
      ∧ ((liveOverRemoved.unmapAt (fun _ _ => 0) 4096 0).1.dir.data 2).byteAt 0 = 0 := by
  refine ⟨liveOverRemoved_aligned, by decide, by decide, by decide, ?_⟩
  rw [data_unmapAt liveOverRemoved_aligned rfl rfl (fun _ _ => 0) 4096 0
    (show liveOverRemoved.volume.files[2]? = some 2 from rfl)]
  decide

end Replica

end WeftBlock
