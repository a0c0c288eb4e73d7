import WeftBlock.Replica.Reopen
import WeftBlock.Replica.UnmapRun
import WeftBlock.Replica.FailedWrite
import WeftBlock.Lib.Runs

/-!
# Runs of operations on a replica

`Op` are the calls a replica takes, `step` is one that succeeds, and a run is one
after the other. Every run of a replica that `New` has made keeps it in order, so its
chain is represented twice and both say the same: by the parents that the records
name, and by the active disks with their open files (`Represents`).
-/

namespace WeftBlock

open Maps Forest

namespace DiffDisk

/-- `initializeSectorLocation`. -/
def initializeSectorLocation (d : DiffDisk) (value : UInt8) : DiffDisk :=
  { d with location := d.location.map (fun _ => value) }

/-- `LoadDiffDiskLocationList`: the sectors in which the file has an extent are its own. -/
def loadLocationList (d : DiffDisk) (currentFileIndex : Nat) : DiffDisk :=
  { d with location := d.location.mapIdx (fun s l =>
      if d.owns currentFileIndex s then UInt8.ofNat currentFileIndex else l) }

theorem loc_loadLocationList (d : DiffDisk) (i s : Nat) : (d.loadLocationList i).loc s
    = if s < d.location.length ∧ d.owns i s = true then UInt8.ofNat i else d.loc s := by
  show (d.location.mapIdx _).getD s 0 = _
  rw [List.getD_eq_getElem?_getD, List.getElem?_mapIdx, loc, List.getD_eq_getElem?_getD]
  by_cases hs : s < d.location.length
  · rw [List.getElem?_eq_getElem hs]
    by_cases ho : d.owns i s = true
    · rw [if_pos ⟨hs, ho⟩]
      exact if_pos ho
    · rw [if_neg (fun hx => ho hx.2)]
      exact if_neg ho
  · rw [List.getElem?_eq_none (Nat.not_lt.mp hs), if_neg (fun hx => hs hx.1)]
    rfl

/-- One round of the loop of `preload`. -/
def preloadFile (isThereBackingFile : Bool) (d : DiffDisk) (i : Nat) : DiffDisk :=
  if i = 1 ∧ isThereBackingFile = true then d
  else
    let d := d.loadLocationList i
    if i = d.files.length - 1 then { d with size := (d.file i).size } else d

/-- `preload`. -/
def preload (isThereBackingFile : Bool) (d : DiffDisk) : DiffDisk :=
  (List.range' 1 (d.files.length - 1)).foldl (preloadFile isThereBackingFile) d

end DiffDisk

namespace Replica

/-- `ReadAt`: the replica with its cache filled, and what was read. -/
def readAt (r : Replica) (buf : List UInt8) (offset : Nat) : Replica × ReadOut :=
  let out := r.view.readAt buf offset
  (r.store out.disk, out)

/-- `WriteAt`, up to the revision counter. -/
def writeAt (r : Replica) (buf : List UInt8) (offset : Nat) (faults : Nat → Option Nat) :
    Replica × Int × Option OpErr :=
  if r.readOnly then (r, 0, some .writeReadOnly)
  else
    let r := { r with info := { r.info with dirty := true } }
    let out := r.view.writeAt buf offset faults
    (r.store out.disk, out.n, out.err.map (fun e => .replica (.disk e)))

/-- `Preload`. -/
def preload (r : Replica) (includeBackingFileLayer : Bool) : Replica :=
  let d := r.view.initializeSectorLocation
    (if includeBackingFileLayer ∧ r.info.backingFile.isSome then 1 else 0)
  let d := d.preload r.info.backingFile.isSome
  let r := r.store d
  { r with volume := { r.volume with size := d.size } }

/-- The calls a replica takes. Writes are free of faults. -/
inductive Op
  | new (a : OpenArgs)
  | snapshot (snapshotMaxCount : Int) (name : String) (userCreated : Bool) (created : String)
      (labels : Option (List (String × String)))
  | expand (snapshotMaxCount : Int) (size : Nat) (created : String)
  | revert (snapshotMaxCount : Int) (sectorSize : Nat) (name created : String)
  | markDiskAsRemoved (name : String)
  | removeDiffDisk (name : String)
  /-- The target is the only child of the source. -/
  | replaceDisk (target source : String)
  | unmapAt (length : UInt32) (offset : Int64)
  | readAt (buf : List UInt8) (offset : Nat)
  | writeAt (buf : List UInt8) (offset : Nat)
  | preload (includeBackingFileLayer : Bool)

/-- What the calls leave open: the order of a map, and what the file system says of sizes. -/
structure Env where
  pick : Finset String → String
  picks : Picks pick
  actualSize : List File → String → Int

/-- The replica after a call that succeeded. -/
def succeeded {ε α : Type} : Replica × Except ε α → Option Replica
  | (r, .ok _) => some r
  | (_, .error _) => none

/-- One call that succeeds. A disk is removed without force and replaces its only child. -/
def step (env : Env) (r : Replica) : Op → Option Replica
  | .new a => (construct r.dir a).toOption
  | .snapshot snapshotMaxCount name userCreated created labels =>
    succeeded (r.snapshot snapshotMaxCount name userCreated created labels)
  | .expand snapshotMaxCount size created => succeeded (r.expand snapshotMaxCount size created)
  | .revert snapshotMaxCount sectorSize name created =>
    (r.revert snapshotMaxCount sectorSize name created).toOption
  | .markDiskAsRemoved name => succeeded (r.markAsRemoved name)
  | .removeDiffDisk name => succeeded (r.removeDiffDisk env.pick name false)
  | .replaceDisk target source =>
    if r.diskChildrenMap.lookup source = some {target} then
      succeeded (r.replaceDisk env.pick target source)
    else none
  | .unmapAt length offset => succeeded (r.unmapAt env.actualSize length offset)
  | .readAt buf offset =>
    let (r', out) := r.readAt buf offset
    if out.err = none then some r' else none
  | .writeAt buf offset =>
    let (r', _, err) := r.writeAt buf offset (fun _ => none)
    if err = none then some r' else none
  | .preload includeBackingFileLayer => some (r.preload includeBackingFileLayer)

variable {r' r : Replica} {env : Env}

theorem succeeded_eq_some {ε α : Type} {x : Replica × Except ε α} (h : succeeded x = some r') :
    ∃ v, x = (r', .ok v) := by
  obtain ⟨r, res⟩ := x
  cases res with
  | error e => exact absurd h (by simp [succeeded])
  | ok v => exact ⟨v, by rw [Option.some.inj h]⟩

theorem toOption_eq_some {ε : Type} {x : Except ε Replica} (h : x.toOption = some r') :
    x = .ok r' := by
  cases x with
  | error e => exact absurd h (by simp [Except.toOption])
  | ok r => rw [Option.some.inj h]

theorem step_writeAt {buf : List UInt8} {offset : Nat}
    (h : step env r (.writeAt buf offset) = some r') :
    ∃ n, r.writeAt buf offset (fun _ => none) = (r', n, none) := by
  obtain ⟨herr, hr'⟩ := Option.ite_some_none_eq_some.mp h
  exact ⟨_, Prod.ext hr' (Prod.ext rfl herr)⟩

/-! ## Every call keeps the replica in order -/

/-- The data and the cache have no part in it. -/
theorem InOrder.store (h : InOrder r) (d : DiffDisk) : InOrder (r.store d) :=
  ⟨⟨h.wired.writable, h.wired.tree, h.wired.records, h.wired.backed, h.wired.outside,
    h.wired.children, h.wired.live, h.wired.volumeMeta⟩, ⟨h.opened.images, h.opened.files⟩, h.parent⟩

theorem unmappableLoop_inOrder {low : Nat} : ∀ {idx : Nat} {r r' : Replica} {disks : List String},
    InOrder r → unmappableLoop low idx r = (r', .ok disks) → InOrder r'
  | 0, r, r', disks, h, hok => by
    rw [unmappableLoop] at hok
    exact (Prod.mk.inj hok).1 ▸ h
  | idx + 1, r, r', disks, h, hok => by
    rw [unmappableLoop] at hok
    split at hok
    · exact (Prod.mk.inj hok).1 ▸ h
    · split at hok
      · exact (Prod.mk.inj hok).1 ▸ h
      · split at hok
        · simp at hok
        · rename_i r1 hmark
          have h1 : InOrder r1 := by
            split at hmark
            · obtain ⟨_, -, -, h1⟩ := markDiskAsRemoved_inOrder h hmark
              exact h1
            · exact (Prod.mk.inj hmark).1 ▸ h
          split at hok
          · simp at hok
          · rename_i r2 rest hrest
            exact (Prod.mk.inj hok).1 ▸ unmappableLoop_inOrder h1 hrest

theorem unmapAt_inOrder (h : InOrder r) {actualSize : List File → String → Int} {length : UInt32}
    {offset : Int64} {n : Int} (hok : r.unmapAt actualSize length offset = (r', .ok n)) :
    InOrder r' := by
  unfold unmapAt at hok
  split at hok
  · simp at hok
  dsimp only at hok
  split at hok
  · simp at hok
  · rename_i r1 disks hloop
    have h1 := unmappableLoop_inOrder h hloop
    obtain rfl := (Prod.mk.inj hok).1
    exact (h1.store _).dirty true

section

variable {r r' : Replica} (h : InOrder r) {name : String}
  (hok : r.markAsRemoved name = (r', .ok ()))
include h hok

/-- What `MarkDiskAsRemoved` comes to: nothing, or a mark on a disk that is not the head. -/
theorem markAsRemoved_cases :
    r' = r ∨ ∃ x disk, x ≠ r.info.head ∧ r.dir.metas.lookup x = some disk ∧ r' = r.marked x disk := by
  unfold markAsRemoved at hok
  generalize (if (r.diskData.lookup name).isSome then name
    else generateSnapshotDiskName name) = x at hok
  dsimp only at hok
  split at hok
  · exact Or.inl (Prod.mk.inj hok).1.symm
  split at hok
  · simp at hok
  rename_i hne
  split at hok
  · simp at hok
  · rename_i r1 hmark
    obtain ⟨disk, hd, hr1, -⟩ := markDiskAsRemoved_inOrder h hmark
    exact Or.inr ⟨x, disk, hne, hd, (Prod.mk.inj hok).1.symm.trans hr1⟩

theorem markAsRemoved_inOrder : InOrder r' := by
  rcases markAsRemoved_cases h hok with rfl | ⟨x, disk, -, hd, rfl⟩
  · exact h
  · exact h.marked hd

end

/-- A call that opens a backing file opens one that is none of the replica's own disks. -/
def Op.Outside : Op → Prop
  | .new a => a.Outside
  | _ => True

/-- **A call that succeeds keeps a replica in order.** -/
theorem step_inOrder (h : InOrder r) {op : Op} (hop : op.Outside) (hstep : step env r op = some r') :
    InOrder r' := by
  cases op with
  | new a =>
    exact construct_inOrder (openOrCreate_wired h.openable) hop (toOption_eq_some hstep)
  | snapshot snapshotMaxCount name userCreated created labels =>
    obtain ⟨v, hok⟩ := succeeded_eq_some hstep
    obtain ⟨newHead, snap, hg⟩ := createDisk_ok h.wired hok
    exact hg.inOrder h.wired h.opened
  | expand snapshotMaxCount size created =>
    obtain ⟨v, hok⟩ := succeeded_eq_some hstep
    exact expand_inOrder h hok
  | revert snapshotMaxCount sectorSize name created =>
    exact revert_inOrder h (toOption_eq_some hstep)
  | markDiskAsRemoved name =>
    obtain ⟨v, hok⟩ := succeeded_eq_some hstep
    exact markAsRemoved_inOrder h hok
  | removeDiffDisk name =>
    obtain ⟨v, hok⟩ := succeeded_eq_some hstep
    exact removeDiffDisk_inOrder h env.picks hok
  | replaceDisk target source =>
    obtain ⟨honly, hstep⟩ := Option.ite_none_right_eq_some.mp hstep
    obtain ⟨v, hok⟩ := succeeded_eq_some hstep
    exact replaceDisk_inOrder h env.picks honly (h.wired.ne_head_of_children honly) hok
  | unmapAt length offset =>
    obtain ⟨v, hok⟩ := succeeded_eq_some hstep
    exact unmapAt_inOrder h hok
  | readAt buf offset =>
    obtain ⟨-, rfl⟩ := Option.ite_some_none_eq_some.mp hstep
    exact h.store _
  | writeAt buf offset =>
    obtain ⟨n, hok⟩ := step_writeAt hstep
    rw [writeAt, if_neg (by rw [h.wired.writable]; simp)] at hok
    exact (Prod.mk.inj hok).1 ▸ (h.dirty true).store _
  | preload includeBackingFileLayer =>
    have h1 := h.store ((r.view.initializeSectorLocation
      (if includeBackingFileLayer ∧ r.info.backingFile.isSome then 1 else 0)).preload
      r.info.backingFile.isSome)
    rw [← Option.some.inj hstep]
    exact ⟨⟨h1.wired.writable, h1.wired.tree, h1.wired.records, h1.wired.backed, h1.wired.outside,
      h1.wired.children, h1.wired.live, h1.wired.volumeMeta⟩,
      ⟨h1.opened.images, h1.opened.files⟩, h1.parent⟩

theorem new_inOrder {data : Ino → File} {a : OpenArgs} (ha : a.Outside)
    (hnew : construct (Dir.recovered data a.size) a = .ok r) : InOrder r := by
  refine construct_inOrder (fun hok => ?_) ha hnew
  rw [openOrCreate_firstHead hok]
  exact ⟨wired_firstHead data a, opened_firstHead data a, rfl⟩

/-- **A run keeps a replica in order.** -/
theorem run_inOrder (h : InOrder r) {ops : List Op} (hops : ∀ op ∈ ops, op.Outside)
    (hrun : Runs.run (step env) r ops = some r') : InOrder r' :=
  Runs.run_invariant_mem (fun _ op hop _ h hstep => step_inOrder h (hops op hop) hstep) h hrun

/-! ## Two representations of the chain -/

/--
**The chain is represented twice, and both agree.** The active disks from index 1 on
are the backing file, if there is one, and the chain of the head from the bottom up.
Each has its file open at the same index.
-/
structure Represents (r : Replica) : Prop where
  active : ∃ l, chain r.diskData r.info.head = .ok l
    ∧ r.activeDiskData.tail = (r.info.backingFile.map BackingFile.path).toList ++ l.reverse
  length : r.volume.files.length = r.activeDiskData.length
  /-- The file at an index is the backing file, or the image of the disk there. -/
  files : ∀ i name, r.activeDiskData[i]? = some name → i ≠ 0 →
    if r.isBackingFile i then r.volume.files[i]? = r.info.backingFile.map BackingFile.disk
    else ∃ ino, r.dir.imgs.lookup name = some ino ∧ r.volume.files[i]? = some ino
  head : r.activeDiskData.getLast? = some r.info.head
  parent : (r.diskData.lookup r.info.head).map Disk.parent = some r.info.parent
  /-- Following the parents from any disk ends at the empty name. -/
  chains : ∀ {x d}, r.diskData.lookup x = some d → ∃ l, IsChain (r.diskData.lookup ·) x l
  children : ∀ {q c}, q ≠ "" → (c ∈ (r.diskChildrenMap.lookup q).getD ∅
    ↔ ∃ d, r.diskData.lookup c = some d ∧ d.parent = q)

/-- A chain of the directory is one in memory. -/
theorem Wired.isChain {b : Option BackingFile} (h : Wired b r) {x : String} {l : List String}
    (hl : Path "" (parents r.dir.metas) x l) : IsChain (r.diskData.lookup ·) x l := by
  refine (isChain_iff.mpr hl).congr (fun y hy => ?_)
  obtain ⟨z, hz⟩ := hl.mem_node hy
  obtain ⟨d, hd, -⟩ := parents_eq_some.mp hz
  rw [hd, h.records hd]

/-- The live chain is short enough to be opened. -/
def ChainShort (r : Replica) : Prop :=
  ∃ l, chain r.diskData r.info.head = .ok l ∧ l.length ≤ maximumTotalSnapshotCount

instance (r : Replica) : Decidable r.ChainShort :=
  match h : chain r.diskData r.info.head with
  | .ok l =>
    if hle : l.length ≤ maximumTotalSnapshotCount then .isTrue ⟨l, h, hle⟩
    else .isFalse (fun hex => by
      obtain ⟨l', hl', hle'⟩ := hex
      rw [h] at hl'
      exact hle (Except.ok.inj hl' ▸ hle'))
  | .error e => .isFalse (fun hex => by
    obtain ⟨l', hl', -⟩ := hex
    rw [h] at hl'
    exact absurd hl' (by simp))

theorem InOrder.chainShort_iff (h : InOrder r) {l : List String}
    (hl : Path "" (parents r.dir.metas) r.info.head l) :
    r.ChainShort ↔ l.length ≤ maximumTotalSnapshotCount := by
  have hchain := chain_of_isChain (h.wired.isChain hl)
  refine ⟨fun hex => ?_, fun hle => ⟨l, hchain, hle⟩⟩
  obtain ⟨l', hl', hle⟩ := hex
  rw [hchain] at hl'
  exact Except.ok.inj hl' ▸ hle

theorem InOrder.represents (h : InOrder r) : Represents r := by
  obtain ⟨l, hl, hactive⟩ := h.wired.live
  obtain ⟨p, v, hp, hl', hv, hactive'⟩ := h.wired.exists_chain
  have hfiles := h.opened.files
  rw [hactive, Wired.drop_active] at hfiles
  have hlen : (r.info.backingFile.map BackingFile.path).toList.length
      = (r.info.backingFile.map BackingFile.disk).toList.length := by
    cases r.info.backingFile <;> rfl
  refine ⟨⟨l, chain_of_isChain (h.wired.isChain hl), ?_⟩, ?_, fun i name hi hi0 => ?_, ?_, ?_,
    fun {x d} hx => ?_, fun {q c} hq => ?_⟩
  · rw [hactive]
    rfl
  · rw [hfiles, hactive]
    simp [hlen]
  · -- above the backing file the two lists run in step
    have habove : ∀ j : Nat, l.reverse[j]? = some name → ∃ ino, r.dir.imgs.lookup name = some ino
        ∧ (l.reverse.map r.dir.ino)[j]? = some ino := by
      intro j hj
      obtain ⟨z, hz⟩ := hl.mem_node (List.mem_reverse.mp (List.mem_of_getElem? hj))
      obtain ⟨d, hd, -⟩ := parents_eq_some.mp hz
      have himg := h.opened.images name
      rw [hd] at himg
      obtain ⟨ino, hino⟩ := Option.isSome_iff_exists.mp himg
      exact ⟨ino, hino, by rw [List.getElem?_map, hj, Option.map_some, Dir.ino, hino]; rfl⟩
    obtain ⟨j, rfl⟩ := Nat.exists_eq_succ_of_ne_zero hi0
    rw [hactive] at hi
    rw [hfiles]
    cases hb : r.info.backingFile with
    | none =>
      rw [hb] at hi
      rw [isBackingFile, hb, if_neg (by simp)]
      exact habove j hi
    | some f =>
      rw [hb] at hi
      cases j with
      | zero =>
        rw [isBackingFile, hb, if_pos (by simp)]
        rfl
      | succ j =>
        rw [isBackingFile, hb, if_neg (by simp)]
        exact habove j hi
  · rw [hactive', List.getLast?_concat]
  · obtain ⟨d, hd, hdp⟩ := parents_eq_some.mp h.parent
    rw [h.wired.records hd, ← hdp]
    rfl
  · rcases h.wired.backed hx with hm | ⟨f, hf, rfl, rfl⟩
    · obtain ⟨l, hl⟩ := h.wired.tree.rooted.path (parents_eq_some.mpr ⟨d, hm, rfl⟩)
      exact ⟨l, h.wired.isChain hl⟩
    · exact ⟨[f.path], .cons (h.wired.outside hf).1 hx .nil⟩
  · rw [h.wired.children.mem hq, parents_eq_some]
    refine exists_congr (fun d => and_congr_left (fun hdq => ⟨h.wired.records, fun hd => ?_⟩))
    rcases h.wired.backed hd with hm | ⟨f, -, -, rfl⟩
    · exact hm
    · exact absurd hdq.symm hq

/-- The least of the children is picked, and no file takes any space. -/
def Env.least : Env where
  pick s := s.min.untopD ""
  picks s hs := by
    obtain ⟨x, hx⟩ := Finset.min_of_nonempty hs
    dsimp only
    rw [hx]
    exact Finset.mem_of_min hx
  actualSize _ _ := 0

/-- A volume of two sectors over a backing file. -/
def overBase : OpenArgs :=
  ⟨8192, 512, some ⟨"/base.img", 1⟩, false, 250, false, false, false, 8192, "t"⟩

theorem overBase_outside : overBase.Outside := by
  intro f hf
  obtain rfl := Option.some.inj hf
  refine ⟨by decide, ?_⟩
  rintro (⟨n, hn, heq⟩ | ⟨s, heq⟩)
  · have := congrArg (fun t : String => t.toList.head?) heq
    simp [volumeHeadDiskName, String.toList_append] at this
  · have := congrArg (fun t : String => t.toList.head?) heq
    simp [generateSnapshotDiskName, String.toList_append] at this

/-- Two snapshots, of which the lower one takes the place of the upper one, and a revert to it. -/
def folding : List Op :=
  [ .snapshot 250 "a" true "t" none, .snapshot 250 "b" true "t" none, .markDiskAsRemoved "a",
    .replaceDisk "volume-snap-b.img" "volume-snap-a.img", .expand 250 12288 "t",
    .revert 250 512 "volume-snap-b.img" "t" ]

end Replica

end WeftBlock
