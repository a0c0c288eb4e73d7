import WeftBlock.Replica.Ops

/-!
# Reopening

A replica in order has in memory what `construct` reads from its directory, with two
exceptions. `createDisk` counts only the snapshots that are not marked as removed, and
allows as many of them as `construct` allows disks in the chain, so that a replica can
grow a chain it can not open again. And a backing file whose record was removed is
back in the records.
-/

namespace WeftBlock

open Maps Forest

/-- Two children maps for one tree have the same entries, but for the empty name. -/
theorem Children.lookup_eq {ch ch' : AList (fun _ : String => Finset String)}
    {par : String → Option String} (h : Children ch par) (h' : Children ch' par) {q : String}
    (hq : q ≠ "") : ch'.lookup q = ch.lookup q := by
  cases hs : ch.lookup q with
  | none => exact (h'.lookup_eq_none_iff hq).mpr ((h.lookup_eq_none_iff hq).mp hs)
  | some s =>
    cases hs' : ch'.lookup q with
    | none =>
      rw [(h.lookup_eq_none_iff hq).mpr ((h'.lookup_eq_none_iff hq).mp hs')] at hs
      simp at hs
    | some s' =>
      congr 1
      ext c
      have h1 := h.mem (c := c) hq
      have h2 := h'.mem (c := c) hq
      rw [hs] at h1
      rw [hs'] at h2
      exact h2.trans h1.symm

variable {r : Replica}

namespace Replica

/--
**The same replica.** The head, the size, the records with everything in them, the
children and the live chain are the same; the children of the empty name do not count.
-/
structure Same (r r' : Replica) : Prop where
  head : r'.info.head = r.info.head
  size : r'.info.size = r.info.size
  records : ∀ x, r'.diskData.lookup x = r.diskData.lookup x
  children : ∀ {q}, q ≠ "" → r'.diskChildrenMap.lookup q = r.diskChildrenMap.lookup q
  live : r'.activeDiskData = r.activeDiskData

/-- The record of the backing file has not been removed. -/
def BackingRecorded (r : Replica) : Prop :=
  ∀ f, r.info.backingFile = some f → (r.diskData.lookup f.path).isSome

section Finished

variable {dir : Dir} {a : OpenArgs} {l : List String} {p : String}

theorem diskData_finished (x : String) : ((openedOn dir a l).finished p).diskData.lookup x
    = if (a.backingFile.map BackingFile.path) = some x then some backingDisk else dir.metas.lookup x := by
  unfold finished insertBackingFile
  cases hb : a.backingFile with
  | none =>
    rw [show (openedOn dir a l).info.backingFile = none from hb]
    rfl
  | some f =>
    rw [show (openedOn dir a l).info.backingFile = some f from hb]
    rw [lookup_insert_eq]
    simp only [Option.map_some, Option.some.injEq, eq_comm]
    rfl

theorem finished_fields (dir : Dir) (a : OpenArgs) (l : List String) (p : String) :
    ((openedOn dir a l).finished p).info.head = dir.volumeMeta.head
      ∧ ((openedOn dir a l).finished p).info.size = dir.volumeMeta.size
      ∧ ((openedOn dir a l).finished p).diskChildrenMap = readChildren dir.metas
      ∧ ((openedOn dir a l).finished p).activeDiskData
        = "" :: (a.backingFile.map BackingFile.path).toList ++ l.reverse := by
  unfold finished insertBackingFile
  cases hb : a.backingFile with
  | none =>
    rw [show (openedOn dir a l).info.backingFile = none from hb]
    exact ⟨rfl, rfl, rfl, rfl⟩
  | some f =>
    rw [show (openedOn dir a l).info.backingFile = some f from hb]
    exact ⟨rfl, rfl, rfl, rfl⟩

end Finished

/-- **What `construct` makes of a replica's directory**, if it is not told to expand it. -/
theorem InOrder.reopen_same_iff (h : InOrder r) {a : OpenArgs}
    (hb : a.backingFile = r.info.backingFile) (hsize : a.size % a.sectorSize = 0)
    (hexp : a.isExpandingEncryptedDevRequired = false) :
    (∃ r', construct r.dir a = .ok r' ∧ Same r r') ↔ r.ChainShort ∧ r.BackingRecorded := by
  obtain ⟨l, hl, hactive⟩ := h.wired.live
  obtain ⟨hhead, hsz⟩ := h.wired.volumeMeta
  rw [construct_eq h.openable hexp (by rw [hhead]; exact hl) (by rw [hhead]; exact h.parent),
    if_neg (by simpa using hsize), h.chainShort_iff hl]
  by_cases h250 : maximumTotalSnapshotCount < l.length
  · rw [if_pos h250]
    refine ⟨fun hex => ?_, fun hand => absurd hand.1 (Nat.not_le.mpr h250)⟩
    obtain ⟨r', hr', -⟩ := hex
    simp at hr'
  · rw [if_neg h250]
    obtain ⟨h1, h2, h3, h4⟩ := finished_fields r.dir a l r.info.parent
    constructor
    · intro hex
      obtain ⟨r', hr', hsame⟩ := hex
      refine ⟨Nat.le_of_not_lt h250, fun f hf => ?_⟩
      rw [← hsame.records, ← Except.ok.inj hr', diskData_finished, hb, hf, Option.map_some, if_pos rfl]
      rfl
    · intro hand
      refine ⟨_, rfl, ⟨by rw [h1, hhead], by rw [h2, hsz], fun x => ?_, fun hq => ?_, ?_⟩⟩
      · rw [diskData_finished, hb]
        by_cases hx : (r.info.backingFile.map BackingFile.path) = some x
        · -- the backing file's record is there, and it is the one that is read
          obtain ⟨f, hf, rfl⟩ := Option.map_eq_some_iff.mp hx
          obtain ⟨d, hd⟩ := Option.isSome_iff_exists.mp (hand.2 f hf)
          rw [if_pos hx, hd]
          rcases h.wired.backed hd with hm | ⟨_, -, -, rfl⟩
          · rw [parents_eq_none.mp (h.wired.backing_not_disk hf)] at hm
            simp at hm
          · rfl
        · rw [if_neg hx]
          cases hd : r.diskData.lookup x with
          | none => exact parents_eq_none.mp (h.wired.metas_none hd)
          | some d =>
            rcases h.wired.backed hd with hm | ⟨f, hf, rfl, -⟩
            · exact hm
            · exact absurd (by rw [hf]; rfl) hx
      · rw [h3]
        exact h.wired.children.lookup_eq (children_readChildren r.dir.metas) hq
      · rw [h4, hactive, hb]

theorem length_le_of_construct {dir : Dir} (h : Openable dir) {l : List String}
    (hl : Path "" (parents dir.metas) dir.volumeMeta.head l) {a : OpenArgs}
    (hok : construct dir a = .ok r) : l.length ≤ maximumTotalSnapshotCount := by
  by_contra hlong
  unfold construct openOrCreate at hok
  rw [if_pos h.entries_ne, openLiveChain_eq h hl, if_pos (Nat.lt_of_not_le hlong)] at hok
  split at hok <;> exact absurd hok (by simp)

/-- The record and the image of the head `createDisk` is about to turn into `newSnap`. -/
structure Ready (r : Replica) (newSnap newHead : String) (i : Ino) (disk : Disk) : Prop where
  next : nextFile r.info.head = some newHead
  free : r.dir.imgs.lookup newHead = none
  image : r.dir.imgs.lookup r.info.head = some i
  record : r.dir.metas.lookup r.info.head = some disk
  memory : r.diskData.lookup r.info.head = some disk
  unused : r.diskData.lookup newSnap = none
  head_ne : r.info.head ≠ ""
  snap_ne : newSnap ≠ ""
  newHead_ne : newHead ≠ ""
  newHead_ne_head : newHead ≠ r.info.head
  newHead_ne_snap : newHead ≠ newSnap
  snap_ne_head : newSnap ≠ r.info.head

variable {name : String} {snapshotMaxCount : Int} {k : Nat}

/-- A replica in order is ready for every snapshot with a name that is not used. -/
theorem ready_of_inOrder (h : InOrder r)
    (hnew : r.diskData.lookup (generateSnapshotDiskName name) = none) :
    ∃ newHead i disk, Ready r (generateSnapshotDiskName name) newHead i disk := by
  obtain ⟨newHead, hnext⟩ := h.wired.tree.exists_next
  obtain ⟨-, hne, -, hempty, hsnap⟩ := h.wired.tree.next_head hnext
  obtain ⟨p, hp⟩ := h.wired.tree.has_head
  obtain ⟨d, hd, -⟩ := parents_eq_some.mp hp
  have himg := h.opened.images r.info.head
  rw [hd] at himg
  obtain ⟨i, hi⟩ := Option.isSome_iff_exists.mp himg
  refine ⟨newHead, i, d, hnext, h.newHead_free hnext, hi, hd, h.wired.records hd, hnew,
    h.wired.head_ne_empty, generateSnapshotDiskName_ne_empty name, hempty, hne, hsnap name, ?_⟩
  intro heq
  rw [heq, h.wired.records hd] at hnew
  simp at hnew

/-- What `createDisk` makes of it, while there is room for a snapshot. -/
theorem Ready.createDisk_eq {newSnap newHead : String} {i : Ino} {disk : Disk}
    (h : Ready r newSnap newHead i disk) (hr : InOrder r)
    (hsnap : newSnap = generateSnapshotDiskName name)
    (hroom : r.getSnapshotCountUsage < snapshotMaxCount) (userCreated : Bool) (created : String)
    (labels : Option (List (String × String))) (size : Nat) :
    r.createDisk snapshotMaxCount name userCreated created labels size
      = (r.onTop ⟨{ r.dir with
            data := Function.update r.dir.data r.freshIno (File.empty size)
            imgs := (r.dir.imgs.insert newHead r.freshIno).insert newSnap i
            metas := (r.dir.metas.insert newHead ⟨newSnap, false, false, created, none⟩).insert
              newSnap disk }, newHead, r.freshIno, ⟨newSnap, false, false, created, none⟩⟩
          { r.info with head := newHead, dirty := true, parent := newSnap, size := size } newSnap
          { disk with userCreated := userCreated, created := created, labels := labels },
        .ok ()) := by
  have hfree : ¬ (r.dir.imgs.lookup newHead).isSome = true := by rw [h.free]; simp
  have hunused : ¬ (newSnap ≠ "" ∧ (r.diskData.lookup newSnap).isSome = true) := by
    rw [h.unused]
    simp
  unfold createDisk createNewHead Dir.linkDisk
  rw [if_neg (by rw [hr.wired.writable]; simp), if_neg (by omega)]
  dsimp only
  rw [if_neg h.head_ne, ← hsnap, if_neg hunused, h.next]
  dsimp only
  rw [if_neg hfree]
  dsimp only
  rw [if_neg h.head_ne, AList.lookup_insert_ne h.newHead_ne_head.symm,
    AList.lookup_insert_ne h.newHead_ne_head.symm, h.image, h.record]
  dsimp only
  rw [if_neg h.snap_ne, h.memory]

/-- A snapshot with a new name succeeds while there is room for it. -/
theorem createDisk_succeeds (h : InOrder r) (hroom : r.getSnapshotCountUsage < snapshotMaxCount)
    (hnew : r.diskData.lookup (generateSnapshotDiskName name) = none) (userCreated : Bool)
    (created : String) (labels : Option (List (String × String))) (size : Nat) :
    ∃ r', r.createDisk snapshotMaxCount name userCreated created labels size = (r', .ok ()) := by
  obtain ⟨newHead, i, disk, hready⟩ := ready_of_inOrder h hnew
  exact ⟨_, hready.createDisk_eq h rfl hroom userCreated created labels size⟩

/-- The names of a long run of snapshots. -/
def nth (i : Nat) : String := String.ofList (List.replicate i 's')

theorem nth_injective : Function.Injective nth := by
  intro i j h
  have := congrArg (fun t : String => t.toList.length) h
  simpa [nth] using this

/-- The first `k` snapshots of a replica without a backing file, and nothing else. -/
structure Stacked (k : Nat) (r : Replica) : Prop where
  inOrder : InOrder r
  noBacking : r.info.backingFile = none
  only : ∀ {x d}, r.diskData.lookup x = some d →
    x = r.info.head ∨ ∃ i < k, x = generateSnapshotDiskName (nth i)
  length : ∃ l, Path "" (parents r.dir.metas) r.info.head l ∧ l.length = k + 1

/-- `k` snapshots count as `k`. -/
theorem Stacked.usage_le (h : Stacked k r) : r.getSnapshotCountUsage ≤ k := by
  have hactive : r.activeDiskData.getD 0 "" = "" := by
    obtain ⟨l, -, hl⟩ := h.inOrder.wired.live
    rw [hl]
    rfl
  rw [getSnapshotCountUsage, List.countP_eq_length_filter, hactive]
  -- the names counted are different ones, and among the first `k`
  have hnodup := ((List.filter_sublist (p := fun e : Sigma (fun _ : String => Disk) =>
    !(e.2.removed || e.1 == "" || e.1 == r.info.head))).map Sigma.fst).nodup r.diskData.nodupKeys
  have hsub : ∀ x ∈ ((r.diskData.entries.filter (fun e =>
      !(e.2.removed || e.1 == "" || e.1 == r.info.head))).map Sigma.fst),
      x ∈ (List.range k).map (fun i => generateSnapshotDiskName (nth i)) := by
    intro x hx
    obtain ⟨⟨y, d⟩, he, rfl⟩ := List.mem_map.mp hx
    obtain ⟨hmem, hp⟩ := List.mem_filter.mp he
    rcases h.only (AList.mem_lookup_iff.mpr hmem) with hhead | ⟨i, hi, hx⟩
    · simp [hhead] at hp
    · exact List.mem_map.mpr ⟨i, List.mem_range.mpr hi, hx.symm⟩
  have hle := (hnodup.subperm hsub).length_le
  simpa using hle

theorem Stacked.unused (h : Stacked k r) :
    r.diskData.lookup (generateSnapshotDiskName (nth k)) = none := by
  cases hd : r.diskData.lookup (generateSnapshotDiskName (nth k)) with
  | none => rfl
  | some d =>
    exfalso
    rcases h.only hd with heq | ⟨i, hi, heq⟩
    · obtain ⟨n, -, hhead⟩ := h.inOrder.wired.tree.head_named
      exact generateSnapshotDiskName_ne_head _ _ (heq.trans hhead)
    · have := nth_injective (generateSnapshotDiskName_injective heq)
      omega

theorem Stacked.next (h : Stacked k r) (hk : k < 250) :
    ∃ r', step .least r (.snapshot 250 (nth k) true "t" none) = some r' ∧ Stacked (k + 1) r' := by
  have hw := h.inOrder.wired
  have husage := h.usage_le
  obtain ⟨r', hok⟩ := createDisk_succeeds h.inOrder
    (show r.getSnapshotCountUsage < (250 : Int) by omega) h.unused true
    "t" none r.info.size
  obtain ⟨newHead, snap, hg⟩ := createDisk_ok hw hok
  refine ⟨r', by rw [step, snapshot, hok]; rfl, hg.inOrder hw h.inOrder.opened, ?_, fun {x d} hx => ?_,
    ?_⟩
  · rw [hg.info]
    exact h.noBacking
  · rw [hg.diskData] at hx
    rw [hg.info]
    split_ifs at hx with h1 h2 h3
    · exact Or.inr ⟨k, Nat.lt_succ_self k, h2⟩
    · exact Or.inl h3
    · rcases h.only hx with heq | ⟨i, hi, heq⟩
      · exact absurd heq h1
      · exact Or.inr ⟨i, Nat.lt_succ_of_lt hi, heq⟩
  · obtain ⟨l, hl, hlen⟩ := h.length
    obtain ⟨-, -, -, -, -, hhead⟩ := hg.names hw
    obtain ⟨v, rfl, hv⟩ := hl.parent hhead hw.head_ne_empty
    refine ⟨_, by rw [hg.info]; exact hg.path hw hv, ?_⟩
    simpa using hlen

/-- A volume of one sector. -/
def oneSector : OpenArgs := ⟨4096, 512, none, false, 250, false, false, false, 4096, "t"⟩

/-- `k` snapshots, with at most 250 allowed. -/
def snapshots (k : Nat) : List Op :=
  (List.range k).map (fun i => .snapshot 250 (nth i) true "t" none)

theorem snapshots_outside : ∀ op ∈ snapshots k, op.Outside := by
  intro op hop
  obtain ⟨i, -, rfl⟩ := List.mem_map.mp hop
  trivial

theorem stacked_snapshots (h : Stacked 0 r) : ∀ k ≤ 250,
    ∃ r', Runs.run (step .least) r (snapshots k) = some r' ∧ Stacked k r' := by
  intro k
  induction k with
  | zero => exact fun _ => ⟨r, rfl, h⟩
  | succ k ih =>
    intro hk
    obtain ⟨r1, hrun, h1⟩ := ih (by omega)
    obtain ⟨r2, hstep, h2⟩ := h1.next (by omega)
    refine ⟨r2, ?_, h2⟩
    rw [snapshots, List.range_succ, List.map_append]
    rw [Runs.run_append (show Runs.run (step .least) r ((List.range k).map _) = some r1 from hrun)]
    exact Runs.run_cons hstep []

theorem oneSector_outside : oneSector.Outside := fun _ hf => absurd hf (by simp [oneSector])

/-- The replica of `oneSector` when it is new. -/
theorem stacked_oneSector
    (hnew : construct (Dir.recovered (fun _ => File.empty 0) 4096) oneSector = .ok r) : Stacked 0 r := by
  have h := new_inOrder (a := oneSector) oneSector_outside hnew
  obtain rfl := construct_recovered (a := oneSector) hnew
  have hmetas : ∀ x, ((firstHead (fun _ => File.empty 0) oneSector).finished "").dir.metas.lookup x
      = if x = volumeHeadDiskName 0 then some ⟨"", false, false, "t", none⟩ else none := by
    intro x
    rw [show ((firstHead (fun _ => File.empty 0) oneSector).finished "").dir.metas
      = (firstHead (fun _ => File.empty 0) oneSector).dir.metas from rfl, metas_firstHead,
      lookup_insert_eq, AList.lookup_empty]
    rfl
  refine ⟨h, rfl, fun {x d} hx => ?_, [volumeHeadDiskName 0], ?_, rfl⟩
  · rcases h.wired.backed hx with hm | ⟨f, hf, -⟩
    · rw [hmetas] at hm
      split at hm
      · exact Or.inl (by assumption)
      · simp at hm
    · exact absurd hf (by simp [finished, insertBackingFile, firstHead, first, unopened, oneSector])
  · refine .cons (volumeHeadDiskName_ne_empty 0 (by omega)) ?_ .nil
    rw [parents, hmetas]
    rfl

/-- The replica of `oneSector` after a few snapshots. -/
theorem exists_snapshots (hk : k ≤ 250) :
    ∃ r₀ r, construct (Dir.recovered (fun _ => File.empty 0) 4096) oneSector = .ok r₀
      ∧ Runs.run (step .least) r₀ (snapshots k) = some r ∧ Stacked k r := by
  have hsome : (construct (Dir.recovered (fun _ => File.empty 0) 4096) oneSector).toOption.isSome
      = true := by decide +kernel
  obtain ⟨r₀, hr₀⟩ := Option.isSome_iff_exists.mp hsome
  have hnew := toOption_eq_some hr₀
  obtain ⟨r, hrun, h⟩ := stacked_snapshots (stacked_oneSector hnew) k hk
  exact ⟨r₀, r, hnew, hrun, h⟩

end Replica

end WeftBlock
