import WeftBlock.Lib.Steps
import WeftBlock.Replica.Faithful

/-!
# Creating and reverting, file by file

`createDisk` and `revertDisk` of `pkg/replica/replica.go` as programs of single file
operations, with the rollbacks they run when one fails. A temporary file is read by
nobody, so creating and writing it has no effect on the directory; the renaming has.

The record of the old head is shared by pointer with that of the new snapshot: the fields
that are set for the snapshot are set for the head as well, until the head's entry is
deleted. And a truncation that fails makes `createNewHead` close a nil file, a panic; the
deferred clean-up of `createDisk` then takes the call for a success and removes the old
head.

Without a mishap the programs are the operations that the rest of the development is
about (`createDisk_clean`, `revertDisk_clean`).
-/

namespace WeftBlock

open Maps Steps Steps.Prog

/-! ## The file operations -/

namespace Dir

/-- A new, empty file. -/
def create (dir : Dir) (name : String) (i : Ino) : Dir :=
  { dir with data := Function.update dir.data i (File.empty 0), imgs := dir.imgs.insert name i }

/-- The new file gets its size. -/
def truncate (dir : Dir) (i : Ino) (size : Nat) : Dir :=
  { dir with data := Function.update dir.data i (File.empty size) }

def rename (dir : Dir) (name : String) (disk : Disk) : Dir :=
  { dir with metas := dir.metas.insert name disk }

def renameVolumeMeta (dir : Dir) (info : Info) : Dir := { dir with volumeMeta := info }

def link (dir : Dir) (oldName newName : String) : Dir :=
  { dir with imgs := ((dir.imgs.lookup oldName).map (dir.imgs.insert newName ·)).getD dir.imgs }

def linkMeta (dir : Dir) (oldName newName : String) : Dir :=
  { dir with metas := ((dir.metas.lookup oldName).map (dir.metas.insert newName ·)).getD dir.metas }

def remove (dir : Dir) (name : String) : Dir := { dir with imgs := dir.imgs.erase name }

def removeMeta (dir : Dir) (name : String) : Dir := { dir with metas := dir.metas.erase name }

end Dir

namespace FileSteps

/-- A program on the replica and its directory. -/
abbrev Fs := Prog Replica OpErr

/-- One operation on the directory that concerns the disk `name`. -/
def file (name : String) (f : Dir → Dir) : Fs Unit :=
  step (.error (.io name)) (fun r => { r with dir := f r.dir })

/-- `encodeToFile` of a replica that is not read-only: create, write and rename. -/
def encodeToFile (name : String) (f : Dir → Dir) : Fs Unit := do
  step (.error (.io name)) id
  step (.error (.io name)) id
  file name f

/-- `rmDisk`: the last error of the three removals; there may be a checksum file. -/
def rmDisk (name : String) : Fs (Option OpErr) :=
  if name = "" then pure none
  else do
    let e₁ ← attempt (file name (·.remove name))
    let e₂ ← attempt (file name (·.removeMeta name))
    let e₃ ← attempt (file name id)
    pure (e₃.or (e₂.or e₁))

/-- The rollbacks that are registered, in their order, if `p` fails. -/
def rollback {α : Type} (p : Fs α) (rollbacks : Fs Unit) : Fs α :=
  onError p (fun e => do
    rollbacks
    throw e)

/-- What `createNewHead` brings: the name, the open file and the record. -/
structure Head where
  name : String
  file : Ino
  disk : Disk

/-- `createNewHead`. -/
def createNewHead (oldHead parent created : String) (size : Nat) : Fs Head := do
  let r ← get
  match nextFile oldHead with
  | none => throw (.invalidName oldHead)
  | some newHeadName =>
    if (r.dir.imgs.lookup newHeadName).isSome then throw (.headExists newHeadName)
    else do
      let f := r.freshIno
      let newDisk : Disk := ⟨parent, false, false, created, none⟩
      file newHeadName (·.create newHeadName f)
      -- the error path has set the file to nil, and the rollback closes it
      step .panicked (fun r => { r with dir := r.dir.truncate f size })
      rollback (encodeToFile newHeadName (·.rename newHeadName newDisk)) (do
        let _ ← rmDisk newHeadName
        pure ())
      pure ⟨newHeadName, f, newDisk⟩

/-- The two hard links of `linkDisk`. -/
def linkFiles (oldName newName : String) : Fs Unit := do
  let r ← get
  if (r.dir.imgs.lookup oldName).isNone then throw (.replica (.noFile oldName))
  else do
    file newName (·.link oldName newName)
    if (r.dir.metas.lookup oldName).isNone then throw (.replica (.noFile oldName))
    else file newName (·.linkMeta oldName newName)

/-- `linkDisk`: what the new name stood for is removed first. -/
def linkDisk (oldName newName : String) : Fs Unit :=
  if oldName = "" then pure ()
  else do
    file newName (·.removeMeta newName)
    file newName id
    file newName (·.remove newName)
    rollback (linkFiles oldName newName) (do
      let _ ← rmDisk newName
      pure ())

/-- The rollback of `createNewHead` and the one of `linkDisk`. -/
def unlinkBoth (newHead newSnapName : String) : Fs Unit := do
  let _ ← rmDisk newHead
  let _ ← rmDisk newSnapName
  pure ()

/-- What `createDisk` does in memory before the snapshot's metadata is written. -/
def shareRecord (h : Head) (oldHead newSnapName : String) (snap : Disk) (r : Replica) : Replica :=
  { r with
    diskData := ((r.diskData.insert h.name h.disk).insert newSnapName snap).insert oldHead snap
    diskChildrenMap := addChildDisk r.diskChildrenMap newSnapName h.name }

/-- And its rollback. -/
def unshareRecord (h : Head) (newSnapName : String) (r : Replica) : Replica :=
  { r with
    diskData := (r.diskData.erase h.name).erase newSnapName
    diskChildrenMap := r.diskChildrenMap.erase newSnapName }

/-- The end of `createDisk` in memory: the old head is a snapshot now. -/
def putOnTop (h : Head) (info : Info) (oldHead newSnapName : String) (snap : Disk) (r : Replica) :
    Replica :=
  { r with
    info := info
    diskData := r.diskData.erase oldHead
    diskChildrenMap := Replica.updateChildDisk r.diskChildrenMap snap.parent oldHead newSnapName
    activeDiskData := r.activeDiskData.dropLast ++ [newSnapName, h.name]
    volume := { r.volume with files := r.volume.files ++ [h.file] } }

/-- The end of `createDisk` in memory when there is no old head. -/
def putFirst (h : Head) (info : Info) (r : Replica) : Replica :=
  { r with
    info := info
    diskData := (r.diskData.insert h.name h.disk).erase ""
    activeDiskData := r.activeDiskData ++ [h.name]
    volume := { r.volume with files := r.volume.files ++ [h.file] } }

/-- The rollbacks once the snapshot is entered: the files, `volume.meta` and the records. -/
def withdraw (h : Head) (oldInfo : Info) (newSnapName : String) : Fs Unit := do
  unlinkBoth h.name newSnapName
  encodeToFile "" (·.renameVolumeMeta oldInfo)
  modify (unshareRecord h newSnapName)

/-- The end of `createDisk` when there is an old head; `oldInfo` is what the rollback restores. -/
def enterSnapshot (h : Head) (oldInfo info : Info) (oldHead newSnapName : String) (snap : Disk) :
    Fs Unit := do
  modify (shareRecord h oldHead newSnapName snap)
  rollback (encodeToFile newSnapName (·.rename newSnapName snap)) (withdraw h oldInfo newSnapName)
  modify (putOnTop h info oldHead newSnapName snap)

/-- `createDisk` from the call of `createNewHead` on. -/
def growDisk (oldHead newSnapName : String) (userCreated : Bool) (created : String)
    (labels : Option (List (String × String))) (size : Nat) : Fs Unit := do
  let r ← get
  let h ← createNewHead oldHead newSnapName created size
  rollback (linkDisk oldHead newSnapName) (do
    let _ ← rmDisk h.name
    pure ())
  let info := { r.info with head := h.name, dirty := true, parent := newSnapName, size := size }
  rollback (encodeToFile "" (·.renameVolumeMeta info)) (unlinkBoth h.name newSnapName)
  if newSnapName = "" then modify (putFirst h info)
  else
    match r.diskData.lookup oldHead with
    | none => panic
    | some disk =>
      enterSnapshot h r.info info oldHead newSnapName
        { disk with userCreated := userCreated, created := created, labels := labels }

/-- `createDisk`. -/
def createDisk (snapshotMaxCount : Int) (name : String) (userCreated : Bool) (created : String)
    (labels : Option (List (String × String))) (size : Nat) : Fs Unit := do
  let r ← get
  if r.readOnly then throw .createReadOnly
  else if snapshotMaxCount - r.getSnapshotCountUsage ≤ 0 then
    throw (.tooManyDisks ((r.activeDiskData.length : Int) - 2 + 1))
  else
    let oldHead := r.info.head
    let newSnapName := if oldHead = "" then "" else generateSnapshotDiskName name
    if newSnapName ≠ "" ∧ (r.diskData.lookup newSnapName).isSome then
      throw (.snapshotExists newSnapName)
    else
      unlessError (growDisk oldHead newSnapName userCreated created labels size) (do
        let _ ← rmDisk oldHead
        pure ())

/-- `Expand`. -/
def expand (snapshotMaxCount : Int) (size : Nat) (created : String) : Fs Unit := do
  let r ← get
  if size % volumeSectorSize ≠ 0 then throw (.notSectorMultiple size)
  else if size < r.info.size then throw (.smaller size)
  else if r.info.size = size then pure ()
  else do
    createDisk snapshotMaxCount (generateExpansionSnapshotName size) false created
      (some (generateExpansionSnapshotLabels size)) size
    modify (fun r => { r with volume := r.volume.expand size })

/-! ## One part after the other -/

/-- The replica with another directory. -/
def onDir (f : Dir → Dir) (r : Replica) : Replica := { r with dir := f r.dir }

theorem atomic_file (name : String) (f : Dir → Dir) :
    Atomic 1 (.error (.io name)) (onDir f) (file name f) := atomic_step _ _

theorem atomic_encodeToFile (name : String) (f : Dir → Dir) :
    Atomic 3 (.error (.io name)) (onDir f) (encodeToFile name f) :=
  ((atomic_file name f).cons (fun _ => by simp)).cons (fun _ => by simp)

variable {name : String} {k : Nat}

theorem rmDisk_past (hname : name ≠ "") (r : Replica) (plan : Plan) :
    rmDisk name r (later 3 plan) = ⟨.ok none, onDir (·.rmDisk name) r, plan⟩ := by
  unfold rmDisk
  rw [if_neg hname, ← later_later 2 1, ← later_later 1 1]
  refine (bind_ok ((atomic_file _ _).attempt_past r _)).trans ?_
  refine (bind_ok ((atomic_file _ _).attempt_past _ _)).trans ?_
  refine (bind_ok ((atomic_file _ _).attempt_past _ plan)).trans ?_
  simp only [onDir, Dir.rmDisk, if_neg hname]
  rfl

theorem rmDisk_clean (name : String) (r : Replica) :
    rmDisk name r none = ⟨.ok none, onDir (·.rmDisk name) r, none⟩ := by
  by_cases hname : name = ""
  · simp only [rmDisk, onDir, Dir.rmDisk, if_pos hname]
    rfl
  · exact rmDisk_past hname r none

/-- What the removals leave of which number `k` has failed. -/
def rmDiskBut (name : String) : Nat → Dir → Dir
  | 0, dir => dir.removeMeta name
  | 1, dir => dir.remove name
  | _, dir => (dir.remove name).removeMeta name

/-- One of the removals fails: the others are made. -/
theorem rmDisk_fails (hname : name ≠ "") (r : Replica) (hk : k < 3) :
    rmDisk name r (some (k, .fails))
      = ⟨.ok (some (.io name)), onDir (rmDiskBut name k) r, none⟩ := by
  unfold rmDisk
  rw [if_neg hname]
  rcases k with _ | _ | _ | k
  · refine (bind_ok ((atomic_file _ _).attempt_fails r Nat.zero_lt_one)).trans ?_
    refine (bind_ok ((atomic_file _ _).attempt_past _ none)).trans ?_
    exact (bind_ok ((atomic_file _ _).attempt_past _ none)).trans rfl
  · refine (bind_ok ((atomic_file _ _).attempt_past r (some (0, .fails)))).trans ?_
    refine (bind_ok ((atomic_file _ _).attempt_fails _ Nat.zero_lt_one)).trans ?_
    exact (bind_ok ((atomic_file _ _).attempt_past _ none)).trans rfl
  · refine (bind_ok ((atomic_file _ _).attempt_past r (some (1, .fails)))).trans ?_
    refine (bind_ok ((atomic_file _ _).attempt_past _ (some (0, .fails)))).trans ?_
    exact (bind_ok ((atomic_file _ _).attempt_fails _ Nat.zero_lt_one)).trans rfl
  · omega

theorem unlinkBoth_clean (newHead newSnap : String) (r : Replica) :
    unlinkBoth newHead newSnap r none
    = ⟨.ok (), onDir (fun dir => (dir.rmDisk newHead).rmDisk newSnap) r, none⟩ :=
  (bind_ok (rmDisk_clean newHead r)).trans ((bind_ok (rmDisk_clean newSnap _)).trans rfl)

theorem withdraw_clean (h : Head) (oldInfo : Info) (newSnap : String) (r : Replica) :
    withdraw h oldInfo newSnap r none
      = ⟨.ok (), unshareRecord h newSnap (onDir (fun dir =>
          ((dir.rmDisk h.name).rmDisk newSnap).renameVolumeMeta oldInfo) r), none⟩ := by
  refine (bind_ok (unlinkBoth_clean h.name newSnap r)).trans ?_
  exact (bind_ok ((atomic_encodeToFile _ _).past _ none)).trans rfl

section NewHead

variable {r : Replica} {oldHead newHead : String}

/-- The directory with the new head's image, and with its metadata. -/
def headImage (r : Replica) (newHead : String) (size : Nat) : Dir :=
  (r.dir.create newHead r.freshIno).truncate r.freshIno size

def headDir (r : Replica) (newHead parent created : String) (size : Nat) : Dir :=
  (headImage r newHead size).rename newHead ⟨parent, false, false, created, none⟩

/-- What is left of `createNewHead` once it has a name for the new head. -/
theorem createNewHead_eq (hnext : nextFile oldHead = some newHead)
    (himg : r.dir.imgs.lookup newHead = none) (parent created : String) (size : Nat) (plan : Plan) :
    createNewHead oldHead parent created size r plan
      = (Prog.bind (file newHead (·.create newHead r.freshIno)) fun _ =>
          Prog.bind (step .panicked (onDir (·.truncate r.freshIno size))) fun _ =>
          Prog.bind (rollback (encodeToFile newHead (·.rename newHead
            ⟨parent, false, false, created, none⟩))
              (Prog.bind (rmDisk newHead) fun _ => Prog.pure ())) fun _ =>
          Prog.pure ⟨newHead, r.freshIno, ⟨parent, false, false, created, none⟩⟩) r plan := by
  have hsome : ¬ (r.dir.imgs.lookup newHead).isSome = true := by rw [himg]; simp
  unfold createNewHead
  refine (get_bind _).trans ?_
  rw [hnext]
  dsimp only
  rw [if_neg hsome]
  rfl

variable (hnext : nextFile oldHead = some newHead) (himg : r.dir.imgs.lookup newHead = none)
  (parent created : String) (size : Nat)

include hnext himg

theorem createNewHead_past (plan : Plan) :
    createNewHead oldHead parent created size r (later 5 plan)
      = ⟨.ok ⟨newHead, r.freshIno, ⟨parent, false, false, created, none⟩⟩,
        onDir (fun _ => headDir r newHead parent created size) r, plan⟩ := by
  rw [createNewHead_eq hnext himg, ← later_later 2 3, ← later_later 1 1]
  refine (bind_ok ((atomic_file _ _).past r _)).trans ?_
  refine (bind_ok ((atomic_step _ _).past _ _)).trans ?_
  exact (bind_ok (onError_ok ((atomic_encodeToFile _ _).past _ plan))).trans rfl

/-- The new head's file can not be created. -/
theorem createNewHead_create_fails : createNewHead oldHead parent created size r (some (0, .fails))
    = ⟨.error (.io newHead), r, none⟩ := by
  rw [createNewHead_eq hnext himg]
  exact bind_error ((atomic_file _ _).before r .fails Nat.zero_lt_one)

/-- It can not be truncated: a panic. -/
theorem createNewHead_truncate_fails :
    createNewHead oldHead parent created size r (some (1, .fails))
      = ⟨.panicked, onDir (·.create newHead r.freshIno) r, none⟩ := by
  rw [createNewHead_eq hnext himg]
  refine (bind_ok ((atomic_file _ _).after r 0 .fails)).trans ?_
  exact bind_panicked ((atomic_step _ _).before _ .fails Nat.zero_lt_one)

/-- Its metadata can not be written: its files are removed again. -/
theorem createNewHead_meta_fails (hk : k < 3) :
    createNewHead oldHead parent created size r (some (2 + k, .fails))
      = ⟨.error (.io newHead), onDir (fun _ => (headImage r newHead size).rmDisk newHead) r, none⟩ := by
  rw [createNewHead_eq hnext himg, show 2 + k = 1 + (1 + k) by omega]
  refine (bind_ok ((atomic_file _ _).after r _ .fails)).trans ?_
  refine (bind_ok ((atomic_step _ _).after _ _ .fails)).trans ?_
  refine bind_error ((onError_error ((atomic_encodeToFile _ _).before _ .fails hk)).trans ?_)
  refine (bind_ok ((bind_ok (rmDisk_clean newHead _)).trans rfl)).trans ?_
  rfl

end NewHead

section Link

variable {r : Replica} {oldName newName : String}

/-- What `linkDisk` leaves when it stops before its operation number `k`. -/
def linkUpTo (oldName newName : String) : Nat → Dir → Dir
  | 0, dir => dir
  | 1, dir => dir.removeMeta newName
  | 2, dir => dir.removeMeta newName
  | 3, dir => (dir.removeMeta newName).remove newName
  | _, dir => ((dir.removeMeta newName).remove newName).link oldName newName

/-- What it leaves when that operation fails. -/
def linkBut (oldName newName : String) (k : Nat) (dir : Dir) : Dir :=
  if k < 3 then linkUpTo oldName newName k dir
  else (linkUpTo oldName newName k dir).rmDisk newName

variable {i : Ino} {disk : Disk} (hne : oldName ≠ newName)
  (himg : r.dir.imgs.lookup oldName = some i) (hmeta : r.dir.metas.lookup oldName = some disk)

include hne himg hmeta

/-- The old name still stands for its files when the new one has been cleared. -/
theorem linkFiles_eq (plan : Plan) :
    linkFiles oldName newName (onDir (linkUpTo oldName newName 3) r) plan
      = (Prog.bind (file newName (·.link oldName newName)) fun _ =>
          file newName (·.linkMeta oldName newName))
        (onDir (linkUpTo oldName newName 3) r) plan := by
  have himg' : (onDir (linkUpTo oldName newName 3) r).dir.imgs.lookup oldName = some i :=
    (AList.lookup_erase_ne hne).trans himg
  have hmeta' : (onDir (linkUpTo oldName newName 3) r).dir.metas.lookup oldName = some disk :=
    (AList.lookup_erase_ne hne).trans hmeta
  unfold linkFiles
  refine (get_bind _).trans ?_
  rw [himg', hmeta']
  rfl

variable (hold : oldName ≠ "")

include hold

theorem linkDisk_past (plan : Plan) : linkDisk oldName newName r (later 5 plan)
    = ⟨.ok (), onDir (fun dir => (linkUpTo oldName newName 4 dir).linkMeta oldName newName) r,
      plan⟩ := by
  unfold linkDisk
  rw [if_neg hold, ← later_later 4 1, ← later_later 3 1, ← later_later 2 1, ← later_later 1 1]
  refine (bind_ok ((atomic_file _ _).past r _)).trans ?_
  refine (bind_ok ((atomic_file _ _).past _ _)).trans ?_
  refine (bind_ok ((atomic_file _ _).past _ _)).trans ?_
  refine onError_ok ((linkFiles_eq hne himg hmeta _).trans ?_)
  refine (bind_ok ((atomic_file _ _).past _ _)).trans ?_
  exact (atomic_file _ _).past _ plan

/-- One of its operations fails: what is there of the new name is removed. -/
theorem linkDisk_fails (hk : k < 5) : linkDisk oldName newName r (some (k, .fails))
    = ⟨.error (.io newName), onDir (linkBut oldName newName k) r, none⟩ := by
  -- the rollback, after a failed link
  have hback : ∀ (s s' : Replica) (k' : Nat),
      linkFiles oldName newName s (some (k', .fails)) = ⟨.error (.io newName), s', none⟩ →
      rollback (linkFiles oldName newName) (Prog.bind (rmDisk newName) fun _ => Prog.pure ()) s
          (some (k', .fails))
        = ⟨.error (.io newName), onDir (·.rmDisk newName) s', none⟩ := by
    intro s s' k' hfail
    refine (onError_error hfail).trans ?_
    exact (bind_ok ((bind_ok (rmDisk_clean newName s')).trans rfl)).trans rfl
  unfold linkDisk
  rw [if_neg hold]
  rcases k with _ | _ | _ | _ | _ | k
  · exact bind_error ((atomic_file _ _).before r .fails Nat.zero_lt_one)
  · refine (bind_ok ((atomic_file _ _).after r 0 .fails)).trans ?_
    exact bind_error ((atomic_file _ _).before _ .fails Nat.zero_lt_one)
  · refine (bind_ok ((atomic_file _ _).after r 1 .fails)).trans ?_
    refine (bind_ok ((atomic_file _ _).after _ 0 .fails)).trans ?_
    exact bind_error ((atomic_file _ _).before _ .fails Nat.zero_lt_one)
  · refine (bind_ok ((atomic_file _ _).after r 2 .fails)).trans ?_
    refine (bind_ok ((atomic_file _ _).after _ 1 .fails)).trans ?_
    refine (bind_ok ((atomic_file _ _).after _ 0 .fails)).trans ?_
    refine hback _ (onDir (linkUpTo oldName newName 3) r) _ ?_
    refine (linkFiles_eq hne himg hmeta _).trans ?_
    exact bind_error ((atomic_file _ _).before _ .fails Nat.zero_lt_one)
  · refine (bind_ok ((atomic_file _ _).after r 3 .fails)).trans ?_
    refine (bind_ok ((atomic_file _ _).after _ 2 .fails)).trans ?_
    refine (bind_ok ((atomic_file _ _).after _ 1 .fails)).trans ?_
    refine hback _ (onDir (linkUpTo oldName newName 4) r) _ ?_
    refine (linkFiles_eq hne himg hmeta _).trans ?_
    refine (bind_ok ((atomic_file _ _).after _ 0 .fails)).trans ?_
    exact (atomic_file _ _).before _ .fails Nat.zero_lt_one
  · omega

end Link

/-! ## The whole of it -/

section Grow

variable {r : Replica} {newSnap newHead : String} {i : Ino} {disk : Disk}

/-- The new head as `createDisk` gets it. -/
def newHeadOf (r : Replica) (newSnap newHead created : String) : Head :=
  ⟨newHead, r.freshIno, ⟨newSnap, false, false, created, none⟩⟩

/-- The directory once the old head's files are linked as the snapshot's. -/
def linkedDir (r : Replica) (newSnap newHead created : String) (size : Nat) : Dir :=
  (linkUpTo r.info.head newSnap 4 (headDir r newHead newSnap created size)).linkMeta r.info.head
    newSnap

/-- What `volume.meta` says then. -/
def grownInfo (r : Replica) (newSnap newHead : String) (size : Nat) : Info :=
  { r.info with head := newHead, dirty := true, parent := newSnap, size := size }

/-- The record of the new snapshot. -/
def snapOf (disk : Disk) (userCreated : Bool) (created : String)
    (labels : Option (List (String × String))) : Disk :=
  { disk with userCreated := userCreated, created := created, labels := labels }

variable (h : r.Ready newSnap newHead i disk) (userCreated : Bool) (created : String)
  (labels : Option (List (String × String))) (size : Nat)

include h

theorem growDisk_eq (plan : Plan) :
    growDisk r.info.head newSnap userCreated created labels size r plan
      = (Prog.bind (createNewHead r.info.head newSnap created size) fun hd =>
          Prog.bind (rollback (linkDisk r.info.head newSnap)
            (Prog.bind (rmDisk hd.name) fun _ => Prog.pure ())) fun _ =>
          Prog.bind (rollback (encodeToFile ""
              (·.renameVolumeMeta (grownInfo r newSnap hd.name size)))
            (unlinkBoth hd.name newSnap)) fun _ =>
          enterSnapshot hd r.info (grownInfo r newSnap hd.name size) r.info.head newSnap
            (snapOf disk userCreated created labels)) r plan := by
  unfold growDisk
  refine (get_bind _).trans ?_
  simp only [if_neg h.snap_ne, h.memory]
  rfl

theorem image_headDir : (onDir (fun _ => headDir r newHead newSnap created size) r).dir.imgs.lookup
    r.info.head = some i :=
  (AList.lookup_insert_ne h.newHead_ne_head.symm).trans h.image

theorem record_headDir :
    (onDir (fun _ => headDir r newHead newSnap created size) r).dir.metas.lookup
    r.info.head = some disk :=
  (AList.lookup_insert_ne h.newHead_ne_head.symm).trans h.record

/-- The replica once the snapshot's record is entered. -/
def entered (r : Replica) (newSnap newHead created : String) (size : Nat) (snap : Disk) : Replica :=
  shareRecord (newHeadOf r newSnap newHead created) r.info.head newSnap snap
    (onDir (fun _ => (linkedDir r newSnap newHead created size).renameVolumeMeta
      (grownInfo r newSnap newHead size)) r)

/-- The replica at the end of `growDisk`. -/
def grown (r : Replica) (newSnap newHead created : String) (size : Nat) (snap : Disk) : Replica :=
  putOnTop (newHeadOf r newSnap newHead created) (grownInfo r newSnap newHead size) r.info.head
    newSnap snap (onDir (·.rename newSnap snap) (entered r newSnap newHead created size snap))

/-- The mishap comes after the new head, -/
theorem growDisk_headed (plan : Plan) :
    growDisk r.info.head newSnap userCreated created labels size r (later 5 plan)
      = (Prog.bind (rollback (linkDisk r.info.head newSnap)
            (Prog.bind (rmDisk newHead) fun _ => Prog.pure ())) fun _ =>
          Prog.bind (rollback (encodeToFile ""
              (·.renameVolumeMeta (grownInfo r newSnap newHead size)))
            (unlinkBoth newHead newSnap)) fun _ =>
          enterSnapshot (newHeadOf r newSnap newHead created) r.info
            (grownInfo r newSnap newHead size) r.info.head newSnap
            (snapOf disk userCreated created labels))
        (onDir (fun _ => headDir r newHead newSnap created size) r) plan := by
  rw [growDisk_eq h]
  exact bind_ok (createNewHead_past h.next h.free newSnap created size plan)

/-- after the links, -/
theorem growDisk_linked (plan : Plan) :
    growDisk r.info.head newSnap userCreated created labels size r (later 10 plan)
      = (Prog.bind (rollback (encodeToFile ""
              (·.renameVolumeMeta (grownInfo r newSnap newHead size)))
            (unlinkBoth newHead newSnap)) fun _ =>
          enterSnapshot (newHeadOf r newSnap newHead created) r.info
            (grownInfo r newSnap newHead size) r.info.head newSnap
            (snapOf disk userCreated created labels))
        (onDir (fun _ => linkedDir r newSnap newHead created size) r) plan := by
  rw [← later_later 5 5, growDisk_headed h]
  exact bind_ok (onError_ok (linkDisk_past h.snap_ne_head.symm (image_headDir h created size)
    (record_headDir h created size) h.head_ne plan))

/-- after `volume.meta`, -/
theorem growDisk_entered (plan : Plan) :
    growDisk r.info.head newSnap userCreated created labels size r (later 13 plan)
      = (Prog.bind (rollback (encodeToFile newSnap
              (·.rename newSnap (snapOf disk userCreated created labels)))
            (withdraw (newHeadOf r newSnap newHead created) r.info newSnap)) fun _ =>
          modify (putOnTop (newHeadOf r newSnap newHead created) (grownInfo r newSnap newHead size)
            r.info.head newSnap (snapOf disk userCreated created labels)))
        (entered r newSnap newHead created size (snapOf disk userCreated created labels)) plan := by
  rw [← later_later 10 3, growDisk_linked h]
  exact bind_ok (onError_ok ((atomic_encodeToFile _ _).past _ plan))

/-- after all of it. -/
theorem growDisk_past (plan : Plan) :
    growDisk r.info.head newSnap userCreated created labels size r (later 16 plan)
      = ⟨.ok (), grown r newSnap newHead created size (snapOf disk userCreated created labels),
        plan⟩ := by
  rw [← later_later 13 3, growDisk_entered h]
  exact (bind_ok (onError_ok ((atomic_encodeToFile _ _).past _ plan))).trans rfl

/-! What `growDisk` leaves when one of its operations fails, from the first on. -/

theorem growDisk_create_fails :
    growDisk r.info.head newSnap userCreated created labels size r (some (0, .fails))
      = ⟨.error (.io newHead), r, none⟩ :=
  (growDisk_eq h userCreated created labels size _).trans
    (bind_error (createNewHead_create_fails h.next h.free newSnap created size))

theorem growDisk_truncate_fails :
    growDisk r.info.head newSnap userCreated created labels size r (some (1, .fails))
      = ⟨.panicked, onDir (·.create newHead r.freshIno) r, none⟩ :=
  (growDisk_eq h userCreated created labels size _).trans
    (bind_panicked (createNewHead_truncate_fails h.next h.free newSnap created size))

theorem growDisk_meta_fails (hk : k < 3) :
    growDisk r.info.head newSnap userCreated created labels size r (some (2 + k, .fails))
      = ⟨.error (.io newHead), onDir (fun _ => (headImage r newHead size).rmDisk newHead) r, none⟩ :=
  (growDisk_eq h userCreated created labels size _).trans
    (bind_error (createNewHead_meta_fails h.next h.free newSnap created size hk))

theorem growDisk_link_fails (hk : k < 5) :
    growDisk r.info.head newSnap userCreated created labels size r (some (5 + k, .fails))
      = ⟨.error (.io newSnap), onDir (fun _ => (linkBut r.info.head newSnap k
          (headDir r newHead newSnap created size)).rmDisk newHead) r, none⟩ := by
  refine (growDisk_headed h userCreated created labels size (some (k, .fails))).trans ?_
  refine bind_error ((onError_error (linkDisk_fails h.snap_ne_head.symm
    (image_headDir h created size) (record_headDir h created size) h.head_ne hk)).trans ?_)
  exact (bind_ok ((bind_ok (rmDisk_clean newHead _)).trans rfl)).trans rfl

theorem growDisk_volumeMeta_fails (hk : k < 3) :
    growDisk r.info.head newSnap userCreated created labels size r (some (10 + k, .fails))
      = ⟨.error (.io ""), onDir (fun _ => ((linkedDir r newSnap newHead created size).rmDisk
          newHead).rmDisk newSnap) r, none⟩ := by
  refine (growDisk_linked h userCreated created labels size (some (k, .fails))).trans ?_
  refine bind_error ((onError_error ((atomic_encodeToFile _ _).before _ .fails hk)).trans ?_)
  exact (bind_ok (unlinkBoth_clean newHead newSnap _)).trans rfl

/-- The rollback when the snapshot's metadata can not be written. -/
def withdrawn (r : Replica) (newSnap newHead created : String) (size : Nat) (snap : Disk) : Replica :=
  unshareRecord (newHeadOf r newSnap newHead created) newSnap
    (onDir (fun dir => ((dir.rmDisk newHead).rmDisk newSnap).renameVolumeMeta r.info)
      (entered r newSnap newHead created size snap))

theorem growDisk_snapMeta_fails (hk : k < 3) :
    growDisk r.info.head newSnap userCreated created labels size r (some (13 + k, .fails))
      = ⟨.error (.io newSnap), withdrawn r newSnap newHead created size
          (snapOf disk userCreated created labels), none⟩ := by
  refine (growDisk_entered h userCreated created labels size (some (k, .fails))).trans ?_
  refine bind_error ((onError_error ((atomic_encodeToFile _ _).before _ .fails hk)).trans ?_)
  exact (bind_ok (withdraw_clean _ r.info newSnap _)).trans rfl

end Grow

/-! ## The calls -/

/-- The end of a program that makes of a replica what a function says. -/
def ended : Replica × Except OpErr Unit → Done Replica OpErr Unit
  | (r, .ok ()) => ⟨.ok (), r, none⟩
  | (r, .error e) => ⟨.error e, r, none⟩

/-- `createDisk` gets as far as the files. -/
def Admitted (snapshotMaxCount : Int) (r : Replica) (name : String) : Prop :=
  (r.getSnapshotCountUsage : Int) < snapshotMaxCount
    ∧ r.diskData.lookup (generateSnapshotDiskName name) = none

section Calls

variable {r : Replica} (hr : r.InOrder) {snapshotMaxCount : Int} {name : String}
  (userCreated : Bool) (created : String) (labels : Option (List (String × String))) (size : Nat)

include hr

theorem createDisk_eq (hadm : Admitted snapshotMaxCount r name) (plan : Plan) :
    createDisk snapshotMaxCount name userCreated created labels size r plan
      = unlessError (growDisk r.info.head (generateSnapshotDiskName name) userCreated created labels
          size) (Prog.bind (rmDisk r.info.head) fun _ => Prog.pure ()) r plan := by
  unfold createDisk
  refine (get_bind _).trans ?_
  rw [if_neg (by rw [hr.wired.writable]; simp), if_neg (by have := hadm.1; omega),
    if_neg hr.wired.head_ne_empty, if_neg (by rw [hadm.2]; simp)]
  rfl

/-- A call that the checks refuse has done nothing. -/
theorem createDisk_refused (hadm : ¬ Admitted snapshotMaxCount r name) (plan : Plan) :
    ∃ e, createDisk snapshotMaxCount name userCreated created labels size r plan
      = ⟨.error e, r, plan⟩ := by
  unfold createDisk
  by_cases hroom : snapshotMaxCount - r.getSnapshotCountUsage ≤ 0
  · refine ⟨.tooManyDisks ((r.activeDiskData.length : Int) - 2 + 1), ?_⟩
    refine (get_bind _).trans ?_
    rw [if_neg (by rw [hr.wired.writable]; simp), if_pos hroom]
    rfl
  · have hused : r.diskData.lookup (generateSnapshotDiskName name) ≠ none :=
      fun hnone => hadm ⟨by omega, hnone⟩
    refine ⟨.snapshotExists (generateSnapshotDiskName name), ?_⟩
    refine (get_bind _).trans ?_
    rw [if_neg (by rw [hr.wired.writable]; simp), if_neg hroom, if_neg hr.wired.head_ne_empty,
      if_pos ⟨generateSnapshotDiskName_ne_empty name, Option.isSome_iff_ne_none.mpr hused⟩]
    rfl

end Calls

section Clean

variable {r : Replica} {newSnap newHead : String} {i : Ino} {disk : Disk}
  (h : r.Ready newSnap newHead i disk) (created : String) (size : Nat)

include h

theorem linkedDir_eq : linkedDir r newSnap newHead created size
    = { r.dir with
        data := Function.update r.dir.data r.freshIno (File.empty size)
        imgs := (r.dir.imgs.insert newHead r.freshIno).insert newSnap i
        metas := (r.dir.metas.insert newHead ⟨newSnap, false, false, created, none⟩).insert newSnap
          disk } := by
  have himg : ((r.dir.imgs.insert newHead r.freshIno).erase newSnap).lookup r.info.head = some i :=
    (AList.lookup_erase_ne h.snap_ne_head.symm).trans (image_headDir h created size)
  have hmeta : ((r.dir.metas.insert newHead ⟨newSnap, false, false, created, none⟩).erase
      newSnap).lookup r.info.head = some disk :=
    (AList.lookup_erase_ne h.snap_ne_head.symm).trans (record_headDir h created size)
  simp only [linkedDir, linkUpTo, headDir, headImage, Dir.create, Dir.truncate, Dir.rename,
    Dir.removeMeta, Dir.remove, Dir.link, Dir.linkMeta, himg, hmeta, Option.map_some,
    Option.getD_some, insert_erase, Function.update_idem]

omit h in
/-- What the two programs make of the old head is the same. -/
theorem rmDisk_grown (snap : Disk) :
    onDir (·.rmDisk r.info.head) (grown r newSnap newHead created size snap)
      = r.onTop ⟨linkedDir r newSnap newHead created size, newHead, r.freshIno,
          ⟨newSnap, false, false, created, none⟩⟩ (grownInfo r newSnap newHead size) newSnap snap := by
  simp only [onDir, grown, putOnTop, entered, shareRecord, Replica.onTop, newHeadOf, Dir.rename,
    Dir.renameVolumeMeta, erase_insert]

theorem replica_createDisk_eq (hr : r.InOrder) {snapshotMaxCount : Int}
    (hsnap : newSnap = generateSnapshotDiskName name) (hadm : Admitted snapshotMaxCount r name)
    (userCreated : Bool) (labels : Option (List (String × String))) :
    r.createDisk snapshotMaxCount name userCreated created labels size
      = (r.onTop ⟨linkedDir r newSnap newHead created size, newHead, r.freshIno,
          ⟨newSnap, false, false, created, none⟩⟩ (grownInfo r newSnap newHead size) newSnap
          (snapOf disk userCreated created labels), .ok ()) := by
  rw [linkedDir_eq h]
  exact h.createDisk_eq hr hsnap hadm.1 userCreated created labels size

end Clean

/-- **Without a mishap the program is the operation** that the other modules are about. -/
theorem createDisk_clean {r : Replica} (hr : r.InOrder) (snapshotMaxCount : Int) (name : String)
    (userCreated : Bool) (created : String) (labels : Option (List (String × String)))
    (size : Nat) : createDisk snapshotMaxCount name userCreated created labels size r none
      = ended (r.createDisk snapshotMaxCount name userCreated created labels size) := by
  by_cases hadm : Admitted snapshotMaxCount r name
  · obtain ⟨newHead, i, disk, h⟩ := Replica.ready_of_inOrder hr hadm.2
    rw [replica_createDisk_eq h created size hr rfl hadm, ← rmDisk_grown,
      createDisk_eq hr _ _ _ _ hadm]
    refine (unlessError_ok (growDisk_past h userCreated created labels size none)).trans ?_
    exact (bind_ok (rmDisk_clean _ _)).trans rfl
  · -- the checks are the same, in the same order
    have hw : ¬ r.readOnly = true := by rw [hr.wired.writable]; simp
    unfold createDisk Replica.createDisk
    refine (get_bind _).trans ?_
    rw [if_neg hw, if_neg hw]
    by_cases hroom : snapshotMaxCount - r.getSnapshotCountUsage ≤ 0
    · rw [if_pos hroom, if_pos hroom]
      rfl
    · have hused : r.diskData.lookup (generateSnapshotDiskName name) ≠ none :=
        fun hnone => hadm ⟨by omega, hnone⟩
      have hboth : generateSnapshotDiskName name ≠ ""
          ∧ (r.diskData.lookup (generateSnapshotDiskName name)).isSome = true :=
        ⟨generateSnapshotDiskName_ne_empty name, Option.isSome_iff_ne_none.mpr hused⟩
      rw [if_neg hroom, if_neg hroom]
      dsimp only
      rw [if_neg hr.wired.head_ne_empty, if_pos hboth, if_pos hboth]
      rfl

theorem expand_clean {r : Replica} (hr : r.InOrder) (snapshotMaxCount : Int) (size : Nat)
    (created : String) : expand snapshotMaxCount size created r none
      = ended (r.expand snapshotMaxCount size created) := by
  unfold expand Replica.expand
  refine (get_bind _).trans ?_
  by_cases hmod : size % volumeSectorSize ≠ 0
  · rw [if_pos hmod, if_pos hmod]
    rfl
  by_cases hlt : size < r.info.size
  · rw [if_neg hmod, if_neg hmod, if_pos hlt, if_pos hlt]
    rfl
  by_cases heq : r.info.size = size
  · rw [if_neg hmod, if_neg hmod, if_neg hlt, if_neg hlt, if_pos heq, if_pos heq]
    rfl
  rw [if_neg hmod, if_neg hmod, if_neg hlt, if_neg hlt, if_neg heq, if_neg heq]
  have hclean := createDisk_clean hr snapshotMaxCount (generateExpansionSnapshotName size) false
    created (some (generateExpansionSnapshotLabels size)) size
  generalize r.createDisk snapshotMaxCount (generateExpansionSnapshotName size) false
    created (some (generateExpansionSnapshotLabels size)) size = out at hclean ⊢
  obtain ⟨r', res⟩ := out
  cases res with
  | error e => exact bind_error hclean
  | ok u => exact (bind_ok hclean).trans rfl

end FileSteps

end WeftBlock
