import WeftBlock.Replica.Compare
import WeftBlock.Replica.Faithful
import WeftBlock.Replica.Snapshots

/-!
# Sizes that `New` accepts

`New` takes any multiple of the sector size it is given, and that may be 512. The
disks below work in sectors of 4096 bytes: a transfer is widened to whole sectors,
and what lies past the end of the volume is `io.ErrUnexpectedEOF`. The table of a
new replica has an entry for a last partial sector, that of a read-only one has
none; either way the sector cannot be read.

So of the sizes that `New` accepts the multiples of 4096 are the usable ones: there
every transfer inside the volume succeeds, on the new replica and through every
snapshot that is ever taken of it. For any other size the last byte cannot be read
through the first snapshot.
-/

namespace WeftBlock

open Forest Maps Slice

/-! ## The sector at the end of the volume -/

namespace DiffDisk

/--
**A last partial sector cannot be read.** The table has no entry for it, so the head
is read, and the read ends past the head and past the volume.
-/
theorem readAt_last_byte {d : DiffDisk} (hss : d.sectorSize = volumeSectorSize)
    (hmod : d.size % volumeSectorSize ≠ 0) (htable : d.location.length ≤ d.size / volumeSectorSize)
    (hfiles : d.files.length ≤ 256) (hhead : (d.file (d.files.length - 1)).size ≤ d.size) :
    (d.readAt [0] (d.size - 1)).err = some .unexpectedEOF := by
  rw [show volumeSectorSize = 4096 from rfl] at hss hmod htable
  have hpos : 0 < d.size := Nat.pos_of_ne_zero (fun h0 => hmod (by rw [h0]))
  have hend : d.endOffset [(0 : UInt8)].length (d.size - 1) ≠ 0 := by
    rw [endOffset, hss, List.length_singleton, Nat.add_sub_cancel' hpos]
    exact hmod
  -- the sector that holds the last byte
  have hstart : d.size - 1 - d.startOffset (d.size - 1) = d.size / 4096 * 4096 := by
    rw [startOffset, hss]
    omega
  have hread : (d.fullReadAt (List.replicate d.sectorSize 0)
      (d.size - 1 - d.startOffset (d.size - 1))).err = some .unexpectedEOF := by
    rw [hstart, fullReadAt, hss, List.length_replicate, if_neg (by simp [Nat.mod_self]),
      if_neg (by decide)]
    dsimp only
    rw [Nat.div_self (by decide), Nat.mul_div_cancel _ (by decide), lookup, if_pos htable]
    dsimp only
    rw [Nat.sub_self, fullReadLoop, read]
    dsimp only
    rw [hss, UInt8.toNat_ofNat_of_lt' (by simp only [UInt8.size]; omega), if_neg (by omega),
      if_neg (by omega)]
  unfold readAt
  dsimp only
  rw [if_neg (by simp), if_neg (fun h => hend h.2), hread]

end DiffDisk

variable {r : Replica} {a : OpenArgs}

namespace Replica

/-! ## What every user of a size may expect -/

/-- The calls that transfer data. -/
def Op.Transfers : Op → Prop
  | .readAt _ _ | .writeAt _ _ => True
  | _ => False

/-- Every `ReadAt` of a range inside the volume succeeds with the full count. -/
def ReadsFully (r : Replica) : Prop :=
  ∀ buf offset, offset + buf.length ≤ r.info.size →
    (r.readAt buf offset).2.err = none ∧ (r.readAt buf offset).2.n = buf.length

/-- So does every `WriteAt`, when the head file takes the writes. -/
def WritesFully (r : Replica) : Prop :=
  ∀ buf offset, offset + buf.length ≤ r.info.size →
    ∃ r', r.writeAt buf offset (fun _ => none) = (r', (buf.length : Int), none)

/--
**Fully usable**: whatever was read and written before, every transfer inside the
volume succeeds; and whatever snapshots, expansions and reverts there were besides,
so does every read inside the volume through any of the snapshots.
-/
structure FullyUsable (env : Env) (r : Replica) : Prop where
  transfers : ∀ ops r', (∀ op ∈ ops, op.Transfers) → Runs.run (step env) r ops = some r' →
    r'.ReadsFully ∧ r'.WritesFully
  snapshots : ∀ ops r', (∀ op ∈ ops, op.Transfers ∨ op.Appends) →
    Runs.run (step env) r ops = some r' → ∀ name ro,
      newReadOnly r'.dir (generateSnapshotDiskName name) r'.info.backingFile = .ok ro → ro.ReadsFully

/-! ## Whole sectors are usable -/

theorem ReadsFully.of_wf (h : r.view.Wf) (hsize : r.view.size = r.info.size) :
    r.ReadsFully := by
  intro buf offset hvol
  obtain ⟨d', out, hread, -⟩ := DiffDisk.readAt_spec h offset buf (by rw [hsize]; exact hvol)
  rw [readAt, hread]
  exact ⟨rfl, rfl⟩

theorem WritesFully.of_wf (h : r.view.Wf) (hsize : r.view.size = r.info.size)
    (hw : r.readOnly = false) : r.WritesFully := by
  intro buf offset hvol
  have hres := DiffDisk.writeAt_result h buf offset (fun _ => none) (by rw [hsize]; exact hvol)
  rw [stopped_none] at hres
  unfold writeAt
  rw [if_neg (by rw [hw]; simp)]
  exact ⟨_, Prod.ext rfl (Prod.ext (hres.n rfl) (congrArg (Option.map _) hres.err))⟩

/-- Transfers keep a replica sound, and its files open. -/
theorem step_transfers {env : Env} {r r' : Replica} (h : Sound r)
    (hle : r.volume.files.length ≤ 256) {op : Op} (hop : op.Transfers)
    (hstep : step env r op = some r') : Sound r' ∧ r'.volume.files.length ≤ 256 := by
  have hwf := h.wf_of_length hle
  cases op with
  | readAt buf offset =>
    obtain ⟨-, rfl⟩ := Option.ite_some_none_eq_some.mp hstep
    exact ⟨h.readAt hwf buf offset, hle⟩
  | writeAt buf offset =>
    obtain ⟨n, hok⟩ := step_writeAt hstep
    obtain ⟨-, hr'⟩ := writeAt_eq h.inOrder.wired.writable hok
    refine ⟨writeAt_sound h hwf hok, ?_⟩
    rw [hr']
    exact hle
  | new _ | snapshot _ _ _ _ _ | expand _ _ _ | revert _ _ _ _ | markDiskAsRemoved _
  | removeDiffDisk _ | replaceDisk _ _ | unmapAt _ _ | preload _ => exact hop.elim

/-- In order, and of whole sectors. -/
structure Whole (r : Replica) : Prop where
  inOrder : InOrder r
  size_mod : r.info.size % volumeSectorSize = 0

/-- Only an expansion changes the size, and it checks the new one. -/
theorem Whole.step {env : Env} {r r' : Replica} (h : Whole r) {op : Op}
    (hop : op.Transfers ∨ op.Appends) (hstep : step env r op = some r') : Whole r' := by
  have hout : op.Outside := by
    cases op with
    | new a => exact (hop.elim id id).elim
    | _ => trivial
  refine ⟨step_inOrder h.inOrder hout hstep, ?_⟩
  cases op with
  | readAt buf offset =>
    obtain ⟨-, rfl⟩ := Option.ite_some_none_eq_some.mp hstep
    exact h.size_mod
  | writeAt buf offset =>
    obtain ⟨n, hok⟩ := step_writeAt hstep
    obtain ⟨-, hr'⟩ := writeAt_eq h.inOrder.wired.writable hok
    rw [hr']
    exact h.size_mod
  | snapshot snapshotMaxCount name userCreated created labels =>
    obtain ⟨v, hok⟩ := succeeded_eq_some hstep
    obtain ⟨newHead, snap, hg⟩ := createDisk_ok h.inOrder.wired hok
    rw [hg.info]
    exact h.size_mod
  | expand snapshotMaxCount size created =>
    obtain ⟨v, hok⟩ := succeeded_eq_some hstep
    obtain ⟨hmod, ⟨rfl, -⟩ | ⟨-, r1, newHead, snap, hg, rfl⟩⟩ :=
      expand_cases h.inOrder.wired hok
    · exact h.size_mod
    · show r1.info.size % volumeSectorSize = 0
      rw [hg.info]
      exact hmod
  | revert snapshotMaxCount sectorSize name created =>
    obtain ⟨newHead, disk, v, a, -, -, -, -, -, -, -, rfl⟩ :=
      revert_eq h.inOrder (toOption_eq_some hstep)
    obtain ⟨hinfo, -⟩ := finished_keeps
      (openedOn (r.revertedDir newHead name created) a (newHead :: v)) name
    show ((openedOn (r.revertedDir newHead name created) a (newHead :: v)).finished name).info.size
      % volumeSectorSize = 0
    rw [hinfo]
    exact h.size_mod
  | new _ | markDiskAsRemoved _ | removeDiffDisk _ | replaceDisk _ _ | unmapAt _ _ | preload _ =>
    exact (hop.elim id id).elim

/-- A snapshot of a volume of whole sectors is read in full. -/
theorem Whole.snapshot_readsFully (h : Whole r) {name : String}
    {b : Option BackingFile} {ro : Replica}
    (hopen : newReadOnly r.dir (generateSnapshotDiskName name) b = .ok ro) : ro.ReadsFully := by
  obtain ⟨l, hc, hlen, himgs, -⟩ := newReadOnly_ok hopen
  have hne := generateSnapshotDiskName_ne_empty name
  obtain ⟨v, rfl⟩ := hc.head_mem hne
  obtain ⟨ro', hopen', hview, hsize⟩ := newReadOnly_eq b hc hne hlen himgs
  obtain rfl := Except.ok.inj (hopen.symm.trans hopen')
  have hmod : r.dir.volumeMeta.size % volumeSectorSize = 0 := by
    rw [h.inOrder.wired.volumeMeta.2]
    exact h.size_mod
  refine ReadsFully.of_wf ?_ ?_
  · rw [hview]
    exact Dir.wf_openView b (List.cons_ne_nil _ _) hlen hmod
  · rw [hview, hsize]
    rfl

/-! ## The new replica and its first snapshot -/

/-- What is known of a new replica, whatever its size. -/
structure Pristine (a : OpenArgs) (r : Replica) : Prop where
  inOrder : InOrder r
  head : r.info.head = volumeHeadDiskName 0
  size : r.info.size = a.size
  metas : ∀ x, r.dir.metas.lookup x
    = if x = volumeHeadDiskName 0 then some ⟨"", false, false, a.created, none⟩ else none
  empty : r.dir.data (r.dir.ino r.info.head) = File.empty a.size

theorem new_pristine {data : Ino → File} (ha : a.Outside)
    (hnew : construct (Dir.recovered data a.size) a = .ok r) : Pristine a r := by
  have hin := new_inOrder ha hnew
  obtain rfl := construct_recovered hnew
  obtain ⟨hinfo, -, hmetas, -⟩ := finished_keeps (firstHead data a) ""
  refine ⟨hin, by rw [hinfo]; rfl, by rw [hinfo]; rfl, fun x => ?_, data_firstHead data a⟩
  rw [hmetas, metas_firstHead, lookup_insert_eq, AList.lookup_empty]

theorem Pristine.no_snapshot (h : Pristine a r) (name : String) :
    r.diskData.lookup (generateSnapshotDiskName name) = none := by
  cases hd : r.diskData.lookup (generateSnapshotDiskName name) with
  | none => rfl
  | some d =>
    exfalso
    rcases h.inOrder.wired.backed hd with hm | ⟨f, hf, hpath, -⟩
    · rw [h.metas, if_neg (generateSnapshotDiskName_ne_head name 0)] at hm
      simp at hm
    · exact (h.inOrder.wired.outside hf).2 (.inr ⟨name, hpath.symm⟩)

/-- The head of a new replica becomes its first snapshot: the only image of a chain. -/
theorem Pristine.first_snapshot (h : Pristine a r) (env : Env) (name : String) :
    ∃ op r', op.Appends ∧ step env r op = some r' ∧ r'.dir.volumeMeta.size = a.size
      ∧ r'.dir.data (r'.dir.ino (generateSnapshotDiskName name)) = File.empty a.size
      ∧ ∃ ro, newReadOnly r'.dir (generateSnapshotDiskName name) r'.info.backingFile = .ok ro
        ∧ ro.view = r'.dir.openView r'.info.backingFile [generateSnapshotDiskName name]
        ∧ ro.info.size = a.size := by
  obtain ⟨r', hok⟩ := createDisk_succeeds h.inOrder (lt_add_one (r.getSnapshotCountUsage : Int))
    (h.no_snapshot name) true "" none r.info.size
  obtain ⟨newHead, snap, hg⟩ := createDisk_ok h.inOrder.wired hok
  have hsnap : generateSnapshotDiskName name ≠ r.info.head := by
    rw [h.head]
    exact generateSnapshotDiskName_ne_head name 0
  have hhead := h.metas r.info.head
  rw [if_pos h.head] at hhead
  obtain ⟨i, hi⟩ := Option.isSome_iff_exists.mp
    ((h.inOrder.opened.images r.info.head).trans (by rw [hhead]; rfl))
  have himg : r'.dir.imgs.lookup (generateSnapshotDiskName name) = some i := by
    rw [hg.imgs, if_neg hsnap, if_pos rfl, hi]
  obtain ⟨disk, hdisk, hparent, -⟩ := hg.old
  obtain rfl := Option.some.inj (hdisk.symm.trans (h.inOrder.wired.records hhead))
  have hc : IsChain (r'.dir.metas.lookup ·) (generateSnapshotDiskName name)
      [generateSnapshotDiskName name] := by
    refine .cons (generateSnapshotDiskName_ne_empty name)
      (by rw [hg.metas, if_neg hsnap, if_pos rfl]) ?_
    rw [hparent]
    exact .nil
  have hsize : r'.dir.volumeMeta.size = a.size := by
    rw [hg.volumeMeta, hg.info]
    exact h.size
  obtain ⟨ro, hopen, hview, hro⟩ := newReadOnly_eq r'.info.backingFile hc
    (generateSnapshotDiskName_ne_empty name) (by simp [maximumTotalSnapshotCount])
    (fun x hx => ⟨i, List.mem_singleton.mp hx ▸ himg⟩)
  refine ⟨.snapshot (r.getSnapshotCountUsage + 1) name true "" none, r', trivial, ?_, hsize, ?_,
    ro, hopen, hview, hro.trans hsize⟩
  · rw [step, snapshot, hok]
    rfl
  · -- the image keeps its inode, and the new head got another one
    have hempty := h.empty
    rw [Dir.ino_of_lookup hi] at hempty
    rw [Dir.ino_of_lookup himg, hg.data, Function.update_of_ne, hempty]
    exact (lt_freshIno (.inl ⟨_, hi⟩)).ne

/-- The last byte of a volume of any other size cannot be read through a single image. -/
theorem readAt_last_of_snapshot {dir : Dir} {b : Option BackingFile} {name : String}
    (hdata : dir.data (dir.ino name) = File.empty dir.volumeMeta.size)
    (hmod : dir.volumeMeta.size % volumeSectorSize ≠ 0) :
    ((dir.openView b [name]).readAt [0] (dir.volumeMeta.size - 1)).err = some .unexpectedEOF := by
  have hle := Dir.length_openView_le dir (l := [name]) b (by simp [maximumTotalSnapshotCount])
  have hlast : (dir.openView b [name]).file ((dir.openView b [name]).files.length - 1)
      = File.empty dir.volumeMeta.size := by
    rw [DiffDisk.file, ← hdata]
    cases b <;> rfl
  refine DiffDisk.readAt_last_byte (d := dir.openView b [name]) rfl hmod ?_ (by omega) ?_
  · exact (List.length_replicate ..).le
  · rw [hlast]
    exact Nat.le_refl _

theorem Pristine.chainShort (h : Pristine a r) : r.ChainShort := by
  have hpath : Path "" (parents r.dir.metas) r.info.head [r.info.head] := by
    refine .cons h.inOrder.wired.head_ne_empty ?_ .nil
    rw [parents, h.metas, if_pos h.head]
    rfl
  exact (h.inOrder.chainShort_iff hpath).mpr (by simp [maximumTotalSnapshotCount])

/--
**The usable sizes.** A new replica is fully usable if and only if its size is a
multiple of the 4096 bytes of a sector.
-/
theorem new_fullyUsable_iff (env : Env) {data : Ino → File} {a : OpenArgs} (ha : a.Outside)
    (hback : ∀ f, a.backingFile = some f → f.disk ≠ 0) {r : Replica}
    (hnew : construct (Dir.recovered data a.size) a = .ok r) :
    FullyUsable env r ↔ a.size % volumeSectorSize = 0 := by
  have hpristine := new_pristine ha hnew
  constructor
  · intro h
    by_contra hmod
    obtain ⟨op, r', hop, hstep, hsize, hdata, ro, hopen, hview, hro⟩ := hpristine.first_snapshot env "s"
    have hpos : 0 < a.size := Nat.pos_of_ne_zero (fun h0 => hmod (by rw [h0]; rfl))
    have hread := (h.snapshots [op] r' (fun o ho => .inr (List.mem_singleton.mp ho ▸ hop))
      (Runs.run_cons hstep []) "s" ro hopen [0] (a.size - 1)
      (by rw [hro, List.length_singleton]; omega)).1
    have hlast := readAt_last_of_snapshot (b := r'.info.backingFile) (by rw [hsize]; exact hdata)
      (by rw [hsize]; exact hmod)
    rw [← hview, hsize] at hlast
    exact absurd (hlast.symm.trans hread) (by simp)
  · intro hmod
    have hs := new_sound ha hback hmod hnew
    have hle : r.volume.files.length ≤ 256 := by
      rw [← List.length_map (f := r.dir.data)]
      exact (hs.wf hpristine.chainShort).le_256
    refine ⟨fun ops r' hops hrun => ?_, fun ops r' hops hrun name ro hopen => ?_⟩
    · obtain ⟨hs', hle'⟩ : Sound r' ∧ r'.volume.files.length ≤ 256 := Runs.run_invariant_mem
        (fun _ op hop _ hinv hstep => step_transfers hinv.1 hinv.2 (hops op hop) hstep)
        ⟨hs, hle⟩ hrun
      have hwf := hs'.wf_of_length hle'
      exact ⟨.of_wf hwf hs'.size, .of_wf hwf hs'.size hs'.inOrder.wired.writable⟩
    · have hwhole := Runs.run_invariant_mem
        (fun _ op hop _ hinv hstep => Whole.step hinv (hops op hop) hstep)
        (Whole.mk hs.inOrder hs.size_mod) hrun
      exact hwhole.snapshot_readsFully hopen

/-- A volume of one sector is usable. -/
theorem new_fullyUsable_oneSector :
    ∃ r, construct (Dir.recovered (fun _ => File.empty 0) 4096) oneSector = .ok r
      ∧ FullyUsable .least r := by
  obtain ⟨r, -, hnew, -⟩ := exists_snapshots (k := 0) (by omega)
  exact ⟨r, hnew, (new_fullyUsable_iff .least oneSector_outside
    (fun _ hf => absurd hf (by simp [oneSector])) hnew).mpr rfl⟩

/-- A volume of 512 bytes, in sectors of 512 bytes. -/
def smallVolume : OpenArgs := ⟨512, 512, none, false, 250, false, false, false, 512, "t"⟩

/-- `New` accepts 512 bytes, and then not even the first byte can be read. -/
theorem smallVolume_not_usable :
    ∃ r, construct (Dir.recovered (fun _ => File.empty 0) 512) smallVolume = .ok r
      ∧ (r.readAt [0] 0).2.err = some .unexpectedEOF ∧ ¬ FullyUsable .least r := by
  have hrun : (construct (Dir.recovered (fun _ => File.empty 0) 512) smallVolume).toOption.map
      (fun r => (r.info.size, (r.readAt [0] 0).2.err)) = some (512, some .unexpectedEOF) := by
    decide +kernel
  obtain ⟨r, hr, hread⟩ := Option.map_eq_some_iff.mp hrun
  obtain ⟨hsize, herr⟩ := Prod.mk.inj hread
  refine ⟨r, toOption_eq_some hr, herr, fun h => ?_⟩
  have hok := ((h.transfers [] r (fun _ ho => absurd ho (by simp)) rfl).1 [0] 0 (by
    rw [hsize, List.length_singleton]
    omega)).1
  exact absurd (herr.symm.trans hok) (by simp)

end Replica

end WeftBlock
