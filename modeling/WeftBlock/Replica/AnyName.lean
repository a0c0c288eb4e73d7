import WeftBlock.Replica.Compare
import WeftBlock.Replica.Faithful

/-!
# Any string as the name of a disk

Six calls of a replica take names from outside: `RemoveDiffDisk`, `MarkDiskAsRemoved`,
`PrepareRemoveDisk`, `ReplaceDisk`, `Revert` and `CompareSnapshot`. Most look the record
up before they use it. `removeDiskNode` does not: a disk without children is unlinked
from the parent that its record names, with or without a record. And the chain that a
revert opens is followed to its end, which it need not have.

`Call.Safe` tells for every state and every name whether a call returns, and
`ending_returned_iff` says that it is right. On a replica in order only an unknown name
in `RemoveDiffDisk` or `ReplaceDisk` is not safe.
-/

namespace WeftBlock

open Maps Forest

/-! ## Preparing a removal -/

/-- `PrepareRemoveAction`. -/
inductive PrepareRemoveAction
  | remove (source : String)
  | coalesce (source target : String)
  | replace (source target : String)
  | prune (source target : String)
deriving DecidableEq

namespace Replica

/-- `processPrepareRemoveDisks`; `pick` yields the only child. -/
def processPrepareRemoveDisks (pick : Finset String → String) (r : Replica) (disk : String) :
    Except OpErr (List PrepareRemoveAction) :=
  match r.diskData.lookup disk with
  | none => .error (.wrongDisk disk)
  | some _ =>
    match r.diskChildrenMap.lookup disk with
    | none => .ok [.remove disk]
    | some children =>
      if children.card = 1 then
        let child := pick children
        if child ≠ r.info.head then .ok [.coalesce disk child, .replace disk child]
        else .ok [.prune disk child]
      else .ok []

/-- `PrepareRemoveDisk`: the name may be that of the disk or of the snapshot. -/
def prepareRemoveDisk (pick : Finset String → String) (r : Replica) (name : String) :
    Except OpErr (List PrepareRemoveAction) :=
  let disk := if (r.diskData.lookup name).isSome then name else generateSnapshotDiskName name
  match r.diskData.lookup disk with
  | none => .ok []
  | some data =>
    if disk = r.info.head then .error (.replica .activeDisk)
    else if data.removed = false then .error (.notMarked disk)
    else r.processPrepareRemoveDisks pick disk

end Replica

/-! ## The calls and how they end -/

/-- How a call ends. -/
inductive Ending
  /-- With a result or an error. -/
  | returned
  /-- The record of this disk was dereferenced, and there is none. -/
  | panicked (name : String)
  /-- Following the parents from this disk never ends. -/
  | endless (name : String)
deriving DecidableEq

/-- What an error says about how the call ended. -/
def OpErr.ending : OpErr → Ending
  | .replica (.nilDisk name) => .panicked name
  | .replica (.endless name) => .endless name
  | _ => .returned

def Ending.of {α : Type} : Except OpErr α → Ending
  | .ok _ => .returned
  | .error e => e.ending

/-- The calls that take names. -/
inductive Call
  | removeDiffDisk (name : String) (force : Bool)
  | markDiskAsRemoved (name : String)
  | prepareRemoveDisk (name : String)
  /-- With what the file system makes of the hard link. -/
  | replaceDisk (link : Hardlink) (target source : String)
  | revert (snapshotMaxCount : Int) (sectorSize : Nat) (name created : String)
  | compareSnapshot (name parent : String) (blockSize : Int)

namespace Call

/-- How the call ends on a replica. No error of a comparison is a panic. -/
def ending (pick : Finset String → String) (r : Replica) : Call → Ending
  | .removeDiffDisk name force =>
    .of ((r.removeDiffDisk pick name force).2.mapError OpErr.replica)
  | .markDiskAsRemoved name => .of (r.markAsRemoved name).2
  | .prepareRemoveDisk name => .of (r.prepareRemoveDisk pick name)
  | .replaceDisk link target source => .of (r.replaceDiskOn pick link target source).2
  | .revert snapshotMaxCount sectorSize name created =>
    .of (r.revert snapshotMaxCount sectorSize name created)
  | .compareSnapshot name parent blockSize =>
    match (r.compareSnapshot name parent blockSize).2 with
    | .ok _ => .returned
    | .error _ => .returned

end Call

/-! ## When they return -/

namespace Replica

/-- The metadata files that a revert leaves, with those of the new head. -/
def revertedMetas (r : Replica) (newHead name created : String) : AList (fun _ : String => Disk) :=
  let metas := r.dir.metas.insert newHead ⟨name, false, false, created, none⟩
  if r.info.head = "" then metas else metas.erase r.info.head

/-- A revert to `name` gets as far as opening the directory again. -/
def Reverts (r : Replica) (sectorSize : Nat) (name newHead : String) : Prop :=
  ((r.dir.imgs.lookup name).isSome ∨ (r.info.backingFile.map BackingFile.path) = some name)
    ∧ (∃ disk, r.diskData.lookup name = some disk ∧ disk.removed = false)
    ∧ nextFile r.info.head = some newHead ∧ r.dir.imgs.lookup newHead = none
    ∧ r.info.size % sectorSize = 0

end Replica

/-- **The call returns**, for a replica in any state. -/
def Call.Safe (pick : Finset String → String) (r : Replica) : Call → Prop
  | .removeDiffDisk name force => name = r.info.head ∨ (r.ManyChildren name ∧ force = false)
      ∨ r.NodeRecorded pick name
  | .replaceDisk link target source => target = r.info.head ∨ (∀ i, link ≠ .linked i)
      ∨ r.ManyChildren source ∨ r.NodeRecorded pick source
  | .revert _ sectorSize name created => ∀ newHead, r.Reverts sectorSize name newHead →
      ∀ x, chain (r.revertedMetas newHead name created) newHead ≠ .error (.endless x)
  | .markDiskAsRemoved _ | .prepareRemoveDisk _ | .compareSnapshot _ _ _ => True

/-! ## Removing a node -/

namespace Replica

variable {r : Replica} {pick : Finset String → String} {name : String}

/-- **`removeDiskNode` returns** if it refuses, or if the records are there. -/
theorem removeDiskNode_returned_iff (force : Bool) :
    Ending.of ((r.removeDiskNode pick name force).2.mapError OpErr.replica) = .returned
      ↔ (r.ManyChildren name ∧ force = false) ∨ r.NodeRecorded pick name := by
  have hends := removeDiskNode_ends pick r name force
  generalize r.removeDiskNode pick name force = res at hends
  cases hends with
  | many hmany hforce => exact iff_of_true rfl (.inl ⟨hmany, hforce⟩)
  | missing hfew hno =>
    refine iff_of_false (by simp [Ending.of, OpErr.ending, Except.mapError]) ?_
    rintro (h | h)
    · exact hfew h
    · exact hno h
  | removed _ hrec _ _ => exact iff_of_true rfl (.inr hrec)

end Replica

/-! ## Opening a directory again -/

theorem isDigit_of_matchDigits {d : Char} : ∀ {l : List Char}, matchDigits l = some d →
    d.isDigit = true
  | [], h => absurd h (by simp [matchDigits])
  | c :: rest, h => by
    unfold matchDigits at h
    split at h
    · rename_i hc
      split at h
      · rename_i d' hd'
        exact Option.some.inj h ▸ isDigit_of_matchDigits hd'
      · split at h
        · split at h
          · simp at h
          · exact Option.some.inj h ▸ hc
        · simp at h
    · simp at h

theorem isDigit_of_matchDiskPattern {d : Char} : ∀ {l : List Char}, matchDiskPattern l = some d →
    d.isDigit = true
  | [], h => absurd h (by simp [matchDiskPattern])
  | c :: rest, h => by
    rw [matchDiskPattern] at h
    split at h
    · rename_i d' hd'
      obtain ⟨l, -, hl⟩ := Option.bind_eq_some_iff.mp hd'
      exact Option.some.inj h ▸ isDigit_of_matchDigits hl
    · exact isDigit_of_matchDiskPattern h

/-- The next head is another one, whatever the head is called. -/
theorem nextFile_ne {x y : String} (h : nextFile x = some y) : y ≠ x ∧ y ≠ "" := by
  unfold nextFile at h
  split at h
  · rename_i hx
    obtain rfl := Option.some.inj h
    rw [hx]
    exact ⟨volumeHeadDiskName_ne_empty 0 (by omega), volumeHeadDiskName_ne_empty 0 (by omega)⟩
  · rename_i hx
    obtain ⟨d, hd, rfl⟩ := Option.map_eq_some_iff.mp h
    have hdigit := isDigit_of_matchDiskPattern hd
    have hle : d.toNat - '0'.toNat + 1 ≤ 10 := by
      simp only [Char.isDigit, Bool.and_eq_true, decide_eq_true_eq] at hdigit
      have := hdigit.2
      have h9 : d.toNat ≤ 57 := this
      have h0 : '0'.toNat = 48 := rfl
      omega
    refine ⟨fun heq => ?_, volumeHeadDiskName_ne_empty _ hle⟩
    -- the digit that was captured is the last one of the name
    have hnext := nextFile_volumeHeadDiskName _ hle
    rw [heq, nextFile, if_neg hx, h] at hnext
    exact volumeHeadDiskName_next _ hle (Option.some.inj hnext).symm

theorem chainFrom_error {m : AList (fun _ : String => Disk)} {e : ReplicaErr} :
    ∀ {fuel : Nat} {x : String}, chainFrom m fuel x = .error e →
      (∃ y, e = .noMetadata y) ∨ ∃ y, e = .endless y
  | 0, x, h => by
    rw [chainFrom] at h
    split at h
    · simp at h
    · exact .inr ⟨x, (Except.error.inj h).symm⟩
  | fuel + 1, x, h => by
    rw [chainFrom] at h
    split at h
    · simp at h
    · split at h
      · exact .inl ⟨x, (Except.error.inj h).symm⟩
      · rename_i disk _
        cases hrest : chainFrom m fuel disk.parent with
        | error e' =>
          rw [hrest] at h
          obtain rfl := Except.error.inj h
          exact chainFrom_error hrest
        | ok rest =>
          rw [hrest] at h
          exact absurd h (by simp [Except.map])

theorem mapM_openFile_error {dir : Dir} {e : ReplicaErr} : ∀ {l : List String},
    l.mapM dir.openFile = .error e → ∃ x, e = .noFile x
  | [], h => absurd h (by simp [pure, Except.pure])
  | x :: l, h => by
    rw [List.mapM_cons] at h
    cases hx : dir.imgs.lookup x with
    | none =>
      rw [Dir.openFile, hx] at h
      exact ⟨x, (Except.error.inj h).symm⟩
    | some i =>
      rw [Dir.openFile, hx] at h
      cases hl : l.mapM dir.openFile with
      | error e' =>
        rw [hl] at h
        obtain rfl := Except.error.inj h
        exact mapM_openFile_error hl
      | ok is =>
        rw [hl] at h
        exact absurd h (by simp [bind, Except.bind, pure, Except.pure])

namespace Replica

/-- **Opening a directory returns** unless the chain of its head has no end. -/
theorem construct_returned_iff {dir : Dir} {a : OpenArgs} {disk : Disk}
    (hd : dir.metas.lookup dir.volumeMeta.head = some disk)
    (hexp : a.isExpandingEncryptedDevRequired = false) :
    Ending.of (construct dir a) = .returned ↔ (a.size % a.sectorSize = 0 →
      ∀ x, chain dir.metas dir.volumeMeta.head ≠ .error (.endless x)) := by
  have hlen : (unopened dir a).diskData.entries.length ≠ 0 := by
    have hmem : dir.volumeMeta.head ∈ dir.metas.keys :=
      AList.mem_keys.mpr (AList.lookup_isSome.mp (by rw [hd]; rfl))
    have hpos : 0 < dir.metas.keys.length := List.length_pos_of_mem hmem
    rw [AList.keys, List.keys, List.length_map] at hpos
    exact Nat.ne_of_gt hpos
  unfold construct
  by_cases hsize : a.size % a.sectorSize = 0
  swap
  · rw [if_pos hsize]
    exact iff_of_true rfl (fun h => absurd h hsize)
  rw [if_neg (not_not.mpr hsize), openOrCreate, if_pos hlen, openLiveChain]
  have hdata : (unopened dir a).diskData = dir.metas := rfl
  have hhead : (unopened dir a).info.head = dir.volumeMeta.head := rfl
  rw [hdata, hhead]
  cases hc : chain dir.metas dir.volumeMeta.head with
  | error e =>
    rcases chainFrom_error hc with ⟨y, rfl⟩ | ⟨y, rfl⟩
    · exact iff_of_true rfl (fun _ x h => absurd h (by simp))
    · exact iff_of_false (by simp [Ending.of, OpErr.ending]) (fun h => h hsize y rfl)
  | ok l =>
    refine iff_of_true ?_ (fun _ x h => absurd h (by simp))
    dsimp only
    by_cases hlong : maximumTotalSnapshotCount < l.length
    · rw [if_pos hlong]
      rfl
    rw [if_neg hlong]
    cases hm : l.reverse.mapM (unopened dir a).dir.openFile with
    | error e =>
      obtain ⟨y, rfl⟩ := mapM_openFile_error hm
      rfl
    | ok files =>
      dsimp only
      rw [if_neg (by rw [hexp]; exact Bool.false_ne_true)]
      dsimp only
      rw [hhead, hd]
      rfl

theorem ending_reload (snapshotMaxCount : Int) (sectorSize : Nat) (r : Replica) :
    Ending.of (reload snapshotMaxCount sectorSize r) = Ending.of (construct r.dir
      ⟨r.info.size, sectorSize, r.info.backingFile, r.unmapMarkDiskChainRemoved, snapshotMaxCount,
        false, false, false, r.info.size, ""⟩) := by
  unfold reload
  split
  · rename_i e he
    rw [he]
  · rename_i r' hr'
    rw [hr']
    rfl

theorem createNewHead_error {r : Replica} {oldHead parent created : String} {size : Nat} {e : OpErr}
    (h : r.createNewHead oldHead parent created size = .error e) : e.ending = .returned
      ∧ ∀ newHead, nextFile oldHead = some newHead → r.dir.imgs.lookup newHead ≠ none := by
  unfold createNewHead at h
  split at h
  · rename_i hnext
    obtain rfl := Except.error.inj h
    exact ⟨rfl, fun newHead hn => absurd (hnext.symm.trans hn) (by simp)⟩
  · rename_i newHead' hnext
    split at h
    · rename_i himg
      obtain rfl := Except.error.inj h
      refine ⟨rfl, fun newHead hn => ?_⟩
      rw [Option.some.inj (hn.symm.trans hnext)]
      exact Option.isSome_iff_ne_none.mp himg
    · simp at h

/-- **A revert returns** unless the chain it opens has no end. -/
theorem revert_returned_iff (r : Replica) (snapshotMaxCount : Int) (sectorSize : Nat)
    (name created : String) :
    Ending.of (r.revert snapshotMaxCount sectorSize name created) = .returned
      ↔ ∀ newHead, r.Reverts sectorSize name newHead →
        ∀ x, chain (r.revertedMetas newHead name created) newHead ≠ .error (.endless x) := by
  unfold revert
  by_cases hfile : (r.dir.imgs.lookup name).isNone
      ∧ (r.info.backingFile.map BackingFile.path) ≠ some name
  · rw [if_pos hfile]
    refine iff_of_true rfl (fun newHead h => ?_)
    rcases h.1 with himg | hpath
    · exact absurd (Option.isNone_iff_eq_none.mp hfile.1) (Option.isSome_iff_ne_none.mp himg)
    · exact absurd hpath hfile.2
  rw [if_neg hfile]
  cases hd : r.diskData.lookup name with
  | none =>
    refine iff_of_true rfl (fun newHead h => ?_)
    obtain ⟨-, ⟨disk, hdisk, -⟩, -⟩ := h
    exact absurd (hd.symm.trans hdisk) (by simp)
  | some diskInfo =>
    dsimp only
    by_cases hrem : diskInfo.removed = true
    · rw [if_pos hrem]
      refine iff_of_true rfl (fun newHead h => ?_)
      obtain ⟨-, ⟨disk, hdisk, hkept⟩, -⟩ := h
      rw [Option.some.inj (hd.symm.trans hdisk), hkept] at hrem
      exact absurd hrem Bool.false_ne_true
    rw [if_neg hrem]
    cases hnh : r.createNewHead r.info.head name created r.info.size with
    | error e =>
      obtain ⟨hout, hnone⟩ := createNewHead_error hnh
      refine iff_of_true hout (fun newHead h => ?_)
      obtain ⟨-, -, hnext, himg, -⟩ := h
      exact absurd himg (hnone newHead hnext)
    | ok h =>
      obtain ⟨hnext, himg, -, hdisk, hdir⟩ := createNewHead_ok hnh
      obtain ⟨hne, -⟩ := nextFile_ne hnext
      rw [ending_reload]
      generalize hafter : Dir.rmDisk _ r.info.head = dir
      have hvm : dir.volumeMeta.head = h.name := by
        rw [← hafter, Dir.rmDisk]
        split <;> rfl
      have hmetas : dir.metas = r.revertedMetas h.name name created := by
        rw [← hafter, Dir.rmDisk, revertedMetas]
        split
        · rw [hdir, hdisk]
        · rw [hdir, hdisk]
      have hrec : dir.metas.lookup dir.volumeMeta.head = some ⟨name, false, false, created, none⟩ := by
        rw [hmetas, hvm, revertedMetas]
        split
        · rw [lookup_insert_eq, if_pos rfl]
        · rw [lookup_erase_eq, if_neg hne, lookup_insert_eq, if_pos rfl]
      rw [construct_returned_iff hrec rfl, hmetas, hvm]
      constructor
      · intro hret newHead hrev
        obtain ⟨-, -, hnext', -, hsize⟩ := hrev
        rw [Option.some.inj (hnext'.symm.trans hnext)]
        exact hret hsize
      · intro hsafe hsize
        refine hsafe h.name ⟨?_, ⟨diskInfo, hd, by simpa using hrem⟩, hnext, himg, hsize⟩
        by_cases hi : (r.dir.imgs.lookup name).isSome
        · exact .inl hi
        · refine .inr ?_
          by_contra hpath
          exact hfile ⟨by simpa using hi, hpath⟩

/-! ## The other calls -/

theorem markAsRemoved_returned (r : Replica) (name : String) :
    Ending.of (r.markAsRemoved name).2 = .returned := by
  unfold markAsRemoved
  generalize (if (r.diskData.lookup name).isSome then name else generateSnapshotDiskName name) = disk
  dsimp only
  split
  · rfl
  split
  · rfl
  rw [markDiskAsRemoved]
  cases r.diskData.lookup disk with
  | none => rfl
  | some d =>
    dsimp only
    by_cases hfiles : (r.dir.imgs.lookup disk).isNone ∨ (r.dir.metas.lookup disk).isNone
    · rw [if_pos hfiles]
      rfl
    · rw [if_neg hfiles]
      rfl

theorem prepareRemoveDisk_returned (pick : Finset String → String) (r : Replica) (name : String) :
    Ending.of (r.prepareRemoveDisk pick name) = .returned := by
  unfold prepareRemoveDisk
  generalize (if (r.diskData.lookup name).isSome then name else generateSnapshotDiskName name) = disk
  dsimp only
  cases hd : r.diskData.lookup disk with
  | none => rfl
  | some data =>
    dsimp only
    split
    · rfl
    split
    · rfl
    rw [processPrepareRemoveDisks, hd]
    dsimp only
    split
    · rfl
    split
    · split <;> rfl
    · rfl

/-- **`ReplaceDisk` returns** if it stops before `removeDiskNode`, or if that returns. -/
theorem replaceDiskOn_returned_iff (pick : Finset String → String) (r : Replica) (link : Hardlink)
    (target source : String) :
    Ending.of (r.replaceDiskOn pick link target source).2 = .returned
      ↔ target = r.info.head ∨ (∀ i, link ≠ .linked i) ∨ r.ManyChildren source
        ∨ r.NodeRecorded pick source := by
  unfold replaceDiskOn
  by_cases hhead : target = r.info.head
  · rw [if_pos hhead]
    exact iff_of_true rfl (.inl hhead)
  rw [if_neg hhead, or_iff_right hhead]
  cases link with
  | refused => exact iff_of_true rfl (.inl (fun i => by simp))
  | removed => exact iff_of_true rfl (.inl (fun i => by simp))
  | linked i =>
    have hlink : ¬ ∀ j, Hardlink.linked i ≠ .linked j := fun h => h i rfl
    rw [or_iff_right hlink]
    dsimp only
    generalize hr1 : Replica.mk _ _ _ _ _ _ _ _ = r1
    have hnode := @removeDiskNode_returned_iff r1 pick source false
    have hsame : ((r1.ManyChildren source ∧ false = false) ∨ r1.NodeRecorded pick source)
        ↔ r.ManyChildren source ∨ r.NodeRecorded pick source := by
      rw [← hr1]
      exact or_congr (and_iff_left rfl) Iff.rfl
    rw [← hsame, ← hnode]
    generalize r1.removeDiskNode pick source false = res
    obtain ⟨r2, e | u⟩ := res
    · exact Iff.rfl
    · refine iff_of_true ?_ rfl
      dsimp only
      split
      · rfl
      · split
        · rename_i e he
          unfold Dir.openFile at he
          split at he
          · rw [← Except.error.inj he]
            rfl
          · simp at he
        · rfl

end Replica

/-! ## All calls -/

/-- **A call returns exactly if it is safe**, in any state and for any names. -/
theorem Call.ending_returned_iff (pick : Finset String → String) (r : Replica) (c : Call) :
    c.ending pick r = .returned ↔ c.Safe pick r := by
  cases c with
  | removeDiffDisk name force =>
    rw [ending, Safe, Replica.removeDiffDisk]
    by_cases hhead : name = r.info.head
    · rw [if_pos hhead]
      exact iff_of_true rfl (.inl hhead)
    · rw [if_neg hhead, or_iff_right hhead, ← Replica.removeDiskNode_returned_iff force]
      generalize r.removeDiskNode pick name force = res
      obtain ⟨r', e | u⟩ := res <;> exact Iff.rfl
  | markDiskAsRemoved name => exact iff_of_true (Replica.markAsRemoved_returned r name) trivial
  | prepareRemoveDisk name => exact iff_of_true (Replica.prepareRemoveDisk_returned pick r name) trivial
  | replaceDisk link target source =>
    exact Replica.replaceDiskOn_returned_iff pick r link target source
  | revert snapshotMaxCount sectorSize name created =>
    exact Replica.revert_returned_iff r snapshotMaxCount sectorSize name created
  | compareSnapshot name parent blockSize =>
    refine iff_of_true ?_ trivial
    rw [ending]
    split <;> rfl

/-- A new replica does not survive the removal of a disk that it does not have. -/
theorem Call.unknown_name_panics :
    ∃ r, Replica.construct (Dir.recovered (fun _ => File.empty 0) 4096) Replica.oneSector = .ok r
      ∧ ∀ pick, (removeDiffDisk "nosuch" false).ending pick r = .panicked "nosuch" := by
  have hall : (Replica.construct (Dir.recovered (fun _ => File.empty 0) 4096)
      Replica.oneSector).toOption.any (fun r => decide ("nosuch" ≠ r.info.head
        ∧ (r.diskData.lookup "nosuch").isNone = true
        ∧ (r.diskChildrenMap.lookup "nosuch").isNone = true)) = true := by decide +kernel
  obtain ⟨r, hr, hdec⟩ := (Option.any_eq_true _ _).mp hall
  obtain ⟨hhead, hd, hc⟩ := of_decide_eq_true hdec
  refine ⟨r, Replica.toOption_eq_some hr, fun pick => ?_⟩
  rw [ending, Replica.removeDiffDisk, if_neg hhead, Replica.removeDiskNode,
    Option.isNone_iff_eq_none.mp hd, Option.isNone_iff_eq_none.mp hc]
  rfl

end WeftBlock
