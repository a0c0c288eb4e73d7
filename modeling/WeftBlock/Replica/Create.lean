import WeftBlock.Replica.RemoveDisk

/-!
# Creating disks, opening and reverting

The operations of `pkg/replica/replica.go` that shape the tree of disks:
`createDisk`, which turns the head into a snapshot and puts a new head on top, with
its callers `Snapshot` and `Expand`; `construct`, which opens a directory or fills an
empty one; `revertDisk`, which starts a new head on a snapshot and opens the
directory again; and `ReplaceDisk`, which lets a disk take the place of its child.

A new image gets an inode that is in use nowhere. A failed `createDisk` is rolled
back. `snapshotMaxCount` can be set from outside at any time, so the operations that
read it take it as a parameter, and so they do the times they ask the clock for.
-/

namespace WeftBlock

/-! ## Names -/

/-- `diskutil.GenerateSnapshotDiskName`. -/
def generateSnapshotDiskName (name : String) : String := "volume-snap-" ++ name ++ ".img"

/-- `diskutil.VolumeHeadDiskName` with its `%03d` filled in. -/
def volumeHeadDiskName (index : Nat) : String :=
  "volume-head-" ++ String.ofList ((toString index).toList.leftpad 3 '0') ++ ".img"

/-- `diskutil.GenerateExpansionSnapshotName`. -/
def generateExpansionSnapshotName (size : Nat) : String := "expand-" ++ toString size

/-- `diskutil.GenerateExpansionSnapshotLabels`. -/
def generateExpansionSnapshotLabels (size : Nat) : List (String × String) :=
  [("replica-expansion", toString size)]

/-- The part `(\d)+.img` of `diskPattern` at the front, greedily: the digit it captures last. -/
def matchDigits : List Char → Option Char
  | [] => none
  | c :: rest =>
    if c.isDigit then
      match matchDigits rest with
      | some d => some d
      | none =>
        match rest with
        | any :: 'i' :: 'm' :: 'g' :: _ => if any = '\n' then none else some c
        | _ => none
    else none

/-- `diskPattern.FindStringSubmatch`: the leftmost match of `volume-head-(\d)+.img`. -/
def matchDiskPattern : List Char → Option Char
  | [] => none
  | c :: rest =>
    match ((c :: rest).dropPrefix? "volume-head-".toList).bind matchDigits with
    | some d => some d
    | none => matchDiskPattern rest

/-- `nextFile` for head disks: the digit after the one the pattern captured. -/
def nextFile (parent : String) : Option String :=
  if parent = "" then some (volumeHeadDiskName 0)
  else (matchDiskPattern parent.toList).map (fun d => volumeHeadDiskName (d.toNat - '0'.toNat + 1))

/-! ## Creating a disk -/

/-- What the operations of this module return as an error. -/
inductive OpErr
  /-- `cannot create disk on read-only replica`. -/
  | createReadOnly
  /-- `too many active disks: %v`. -/
  | tooManyDisks (n : Int)
  /-- `snapshot %v is already existing`. -/
  | snapshotExists (name : String)
  /-- `invalid name %s does not match pattern: %v`. -/
  | invalidName (name : String)
  /-- `%s already exists`. -/
  | headExists (name : String)
  /-- `failed to expend volume replica size %v, because it is not multiple of volume sector size %v`. -/
  | notSectorMultiple (size : Nat)
  /-- `cannot expand replica to a smaller size %v`. -/
  | smaller (size : Nat)
  /-- `size %d not a multiple of sector size %d`. -/
  | notMultiple (size sectorSize : Nat)
  /-- `os.ErrNotExist`. -/
  | notExist
  /-- `cannot revert to disk file %v since it's not in the disk chain`. -/
  | revertUnknown (name : String)
  /-- `cannot revert to disk file %v since it's already marked as removed`. -/
  | revertRemoved (name : String)
  /-- `cannot mark the active differencing disk as removed`. -/
  | markActive
  /-- `cannot replace the active differencing disk`. -/
  | replaceActive
  /-- `cannot write on read-only replica`. -/
  | writeReadOnly
  /-- `disk %v hasn't been marked as removed`. -/
  | notMarked (name : String)
  /-- `wrong disk %v doesn't exist`. -/
  | wrongDisk (name : String)
  /-- What the file system returned for a file of this disk. -/
  | io (name : String)
  | replica (e : ReplicaErr)
deriving DecidableEq

/-- `rmDisk` on the directory. -/
def Dir.rmDisk (dir : Dir) (name : String) : Dir :=
  if name = "" then dir
  else { dir with imgs := dir.imgs.erase name, metas := dir.metas.erase name }

/-- `linkDisk`: what the new name stood for is removed, then it gets the image and the record. -/
def Dir.linkDisk (dir : Dir) (oldName newName : String) : Dir × Except OpErr Unit :=
  if oldName = "" then (dir, .ok ())
  else
    match dir.imgs.lookup oldName, dir.metas.lookup oldName with
    | some i, some disk =>
      ({ dir with imgs := dir.imgs.insert newName i, metas := dir.metas.insert newName disk }, .ok ())
    | _, _ => (dir.rmDisk newName, .error (.replica (.noFile oldName)))

/-- `diffDisk.Expand`. -/
def Volume.expand (v : Volume) (size : Nat) : Volume :=
  let newLocationSize := size / v.sectorSize + if size % v.sectorSize ≠ 0 then 1 else 0
  { v with
    location := v.location ++ List.replicate (newLocationSize - v.location.length) 0
    size := size }

namespace Replica

/-- An inode that no image, open file or backing file has. -/
def freshIno (r : Replica) : Ino :=
  ((r.dir.imgs.entries.map (fun e => e.2) ++ r.volume.files
    ++ (r.info.backingFile.map BackingFile.disk).toList).foldr max 0) + 1

/-- `getSnapshotCountUsage`: the disks that are neither removed nor the head. -/
def getSnapshotCountUsage (r : Replica) : Nat :=
  r.diskData.entries.countP (fun e =>
    !(e.2.removed || e.1 == r.activeDiskData.getD 0 "" || e.1 == r.info.head))

/-- What `createNewHead` brings: the directory, the name, the open file and the record. -/
structure NewHead where
  dir : Dir
  name : String
  file : Ino
  disk : Disk

/-- `createNewHead`. -/
def createNewHead (r : Replica) (oldHead parent created : String) (size : Nat) :
    Except OpErr NewHead :=
  match nextFile oldHead with
  | none => .error (.invalidName oldHead)
  | some newHeadName =>
    if (r.dir.imgs.lookup newHeadName).isSome then .error (.headExists newHeadName)
    else
      let f := r.freshIno
      let newDisk : Disk := ⟨parent, false, false, created, none⟩
      .ok ⟨{ r.dir with
          data := Function.update r.dir.data f (File.empty size)
          imgs := r.dir.imgs.insert newHeadName f
          metas := r.dir.metas.insert newHeadName newDisk }, newHeadName, f, newDisk⟩

/-- The end of `createDisk`, once the files are in place: the old head is a snapshot now. -/
def onTop (r : Replica) (h : NewHead) (info : Info) (newSnapName : String) (snap : Disk) :
    Replica :=
  let oldHead := r.info.head
  { r with
    dir := { h.dir with metas := h.dir.metas.insert newSnapName snap, volumeMeta := info }.rmDisk
      oldHead
    info := info
    diskData := ((r.diskData.insert h.name h.disk).insert newSnapName snap).erase oldHead
    diskChildrenMap :=
      updateChildDisk (addChildDisk r.diskChildrenMap newSnapName h.name) snap.parent oldHead
        newSnapName
    activeDiskData := r.activeDiskData.dropLast ++ [newSnapName, h.name]
    volume := { r.volume with files := r.volume.files ++ [h.file] } }

/-- The end of `createDisk` in an empty directory: there is no old head. -/
def first (r : Replica) (h : NewHead) (info : Info) : Replica :=
  { r with
    dir := { h.dir with volumeMeta := info }
    info := info
    diskData := (r.diskData.insert h.name h.disk).erase ""
    activeDiskData := r.activeDiskData ++ [h.name]
    volume := { r.volume with files := r.volume.files ++ [h.file] } }

/-- `createDisk`. -/
def createDisk (snapshotMaxCount : Int) (r : Replica) (name : String) (userCreated : Bool)
    (created : String) (labels : Option (List (String × String))) (size : Nat) :
    Replica × Except OpErr Unit :=
  if r.readOnly then (r, .error .createReadOnly)
  else if snapshotMaxCount - r.getSnapshotCountUsage ≤ 0 then
    (r, .error (.tooManyDisks ((r.activeDiskData.length : Int) - 2 + 1)))
  else
    let oldHead := r.info.head
    let newSnapName := if oldHead = "" then "" else generateSnapshotDiskName name
    if newSnapName ≠ "" ∧ (r.diskData.lookup newSnapName).isSome then
      (r, .error (.snapshotExists newSnapName))
    else
      match r.createNewHead oldHead newSnapName created size with
      | .error e => (r, .error e)
      | .ok h =>
        match h.dir.linkDisk oldHead newSnapName with
        | (_, .error e) =>
          ({ r with dir := (r.dir.rmDisk newSnapName).rmDisk h.name }, .error e)
        | (dir, .ok ()) =>
          let info := { r.info with
            head := h.name, dirty := true, parent := newSnapName, size := size }
          if newSnapName = "" then (r.first { h with dir := dir } info, .ok ())
          else
            match r.diskData.lookup oldHead with
            | none => ({ r with dir := dir }, .error (.replica (.nilDisk oldHead)))
            | some disk =>
              (r.onTop { h with dir := dir } info newSnapName
                { disk with userCreated := userCreated, created := created, labels := labels },
                .ok ())

/-- `Snapshot`. -/
def snapshot (snapshotMaxCount : Int) (r : Replica) (name : String) (userCreated : Bool)
    (created : String) (labels : Option (List (String × String))) : Replica × Except OpErr Unit :=
  r.createDisk snapshotMaxCount name userCreated created labels r.info.size

/-- `Expand`. -/
def expand (snapshotMaxCount : Int) (r : Replica) (size : Nat) (created : String) :
    Replica × Except OpErr Unit :=
  if size % volumeSectorSize ≠ 0 then (r, .error (.notSectorMultiple size))
  else if size < r.info.size then (r, .error (.smaller size))
  else if r.info.size = size then (r, .ok ())
  else
    match r.createDisk snapshotMaxCount (generateExpansionSnapshotName size) false created
      (some (generateExpansionSnapshotLabels size)) size with
    | (r', .error e) => (r', .error e)
    | (r', .ok ()) => ({ r' with volume := r'.volume.expand size }, .ok ())

/-- `insertBackingFile`. -/
def insertBackingFile (r : Replica) : Replica :=
  match r.info.backingFile with
  | none => r
  | some b =>
    { r with
      activeDiskData := "" :: b.path :: r.activeDiskData.tail
      volume := { r.volume with files := 0 :: b.disk :: r.volume.files.tail }
      diskData := r.diskData.insert b.path ⟨"", false, false, "", none⟩ }

/-- `openLiveChain`. -/
def openLiveChain (r : Replica) : Except OpErr Replica :=
  match chain r.diskData r.info.head with
  | .error e => .error (.replica e)
  | .ok chain =>
    if maximumTotalSnapshotCount < chain.length then
      .error (.replica (.chainTooLong chain.length))
    else
      match chain.reverse.mapM r.dir.openFile with
      | .error e => .error (.replica e)
      | .ok files =>
        .ok { r with
          volume := { r.volume with files := r.volume.files ++ files }
          activeDiskData := r.activeDiskData ++ chain.reverse }

end Replica

/-! ## Opening a directory -/

/-- `lhtypes.Luks2EncryptionHeaderSize`. -/
def luks2EncryptionHeaderSize : Nat := 16 * 1024 * 1024

/-- The arguments of `New`; `created` is what `util.Now` answers. -/
structure OpenArgs where
  size : Nat
  sectorSize : Nat
  backingFile : Option BackingFile
  unmapMarkDiskChainRemoved : Bool
  snapshotMaxCount : Int
  encrypted : Bool
  isUpgrade : Bool
  /-- The state is `ReplicaStateClosed`. -/
  closed : Bool
  expectedBackendSize : Nat
  created : String

/-- `isExpandingEncryptedDevRequired`. -/
def OpenArgs.isExpandingEncryptedDevRequired (a : OpenArgs) : Bool :=
  a.closed && a.encrypted && !a.isUpgrade && a.expectedBackendSize ≠ 0 && a.size ≠ 0
    && a.expectedBackendSize = a.size + luks2EncryptionHeaderSize

/-- An empty directory once `tryRecoverVolumeMetaFile` has written `volume.meta`. -/
def Dir.recovered (data : Ino → File) (size : Nat) : Dir := ⟨data, ∅, ∅, ⟨size, "", true, "", none⟩⟩

namespace Replica

/-- The replica `construct` starts from: the metadata is read and no file is open. -/
def unopened (dir : Dir) (a : OpenArgs) : Replica where
  dir := dir
  volume := {
    location := List.replicate (dir.volumeMeta.size / volumeSectorSize
      + if a.size % volumeSectorSize ≠ 0 then 1 else 0) 0
    files := [0]
    sectorSize := volumeSectorSize
    size := dir.volumeMeta.size }
  info := { dir.volumeMeta with backingFile := a.backingFile }
  diskData := dir.metas
  diskChildrenMap := readChildren dir.metas
  activeDiskData := [""]
  readOnly := false
  unmapMarkDiskChainRemoved := a.unmapMarkDiskChainRemoved

/-- The middle of `construct`: open the live chain, or create the first head. -/
def openOrCreate (r : Replica) (a : OpenArgs) : Except OpErr Replica :=
  if r.diskData.entries.length ≠ 0 then
    match r.openLiveChain with
    | .error e => .error e
    | .ok r =>
      if a.isExpandingEncryptedDevRequired then
        match r.expand a.snapshotMaxCount a.expectedBackendSize a.created with
        | (_, .error e) => .error e
        | (r, .ok ()) => .ok r
      else .ok r
  else if a.size = 0 then .error .notExist
  else
    match r.createDisk a.snapshotMaxCount "000" false a.created none a.size with
    | (_, .error e) => .error e
    | (r, .ok ()) => .ok r

/-- `construct` of a replica that is not read-only. -/
def construct (dir : Dir) (a : OpenArgs) : Except OpErr Replica :=
  if a.size % a.sectorSize ≠ 0 then .error (.notMultiple a.size a.sectorSize)
  else
    match (unopened dir a).openOrCreate a with
    | .error e => .error e
    | .ok r =>
      match r.diskData.lookup r.info.head with
      | none => .error (.replica (.nilDisk r.info.head))
      | some disk =>
        let r := { r with info := { r.info with parent := disk.parent } }.insertBackingFile
        .ok { r with dir := { r.dir with volumeMeta := { r.info with dirty := true } } }

/-- `Reload`; the sector size is what `volume.meta` says. -/
def reload (snapshotMaxCount : Int) (sectorSize : Nat) (r : Replica) : Except OpErr Replica :=
  match construct r.dir ⟨r.info.size, sectorSize, r.info.backingFile, r.unmapMarkDiskChainRemoved,
    snapshotMaxCount, false, false, false, r.info.size, ""⟩ with
  | .error e => .error e
  | .ok r' => .ok { r' with info := { r'.info with dirty := r.info.dirty } }

/-! ## Reverting, marking and replacing -/

/-- `revertDisk`. -/
def revert (snapshotMaxCount : Int) (sectorSize : Nat) (r : Replica)
    (parentDiskFileName created : String) : Except OpErr Replica :=
  if (r.dir.imgs.lookup parentDiskFileName).isNone
      ∧ (r.info.backingFile.map BackingFile.path) ≠ some parentDiskFileName then
    .error (.replica (.noFile parentDiskFileName))
  else
    match r.diskData.lookup parentDiskFileName with
    | none => .error (.revertUnknown parentDiskFileName)
    | some diskInfo =>
      if diskInfo.removed then .error (.revertRemoved parentDiskFileName)
      else
        match r.createNewHead r.info.head parentDiskFileName created r.info.size with
        | .error e => .error e
        | .ok h =>
          let info := { r.info with head := h.name, dirty := true, parent := h.disk.parent }
          reload snapshotMaxCount sectorSize
            { r with dir := { h.dir with volumeMeta := info }.rmDisk r.info.head }

/-- `MarkDiskAsRemoved`: the name may be that of the disk or of the snapshot. -/
def markAsRemoved (r : Replica) (name : String) : Replica × Except OpErr Unit :=
  let disk := if (r.diskData.lookup name).isSome then name else generateSnapshotDiskName name
  if (r.diskData.lookup disk).isNone then (r, .ok ())
  else if disk = r.info.head then (r, .error .markActive)
  else
    match r.markDiskAsRemoved disk with
    | (r', .error e) => (r', .error (.replica e))
    | (r', .ok ()) => (r', .ok ())

end Replica

/-- What comes of the hard link that `ReplaceDisk` makes. -/
inductive Hardlink
  /-- There is no source, or the target can not be removed. -/
  | refused
  /-- The target's file was removed, and the link failed. -/
  | removed
  /-- The target stands for the source's file now. -/
  | linked (i : Ino)
deriving DecidableEq

/-- `hardlinkDisk` between the names of disks. -/
def Dir.hardlinkDisk (dir : Dir) (target source : String) : Hardlink :=
  match dir.imgs.lookup source with
  | none => .refused
  | some i => if target = source then .removed else .linked i

theorem Dir.lookup_of_hardlinkDisk {dir : Dir} {target source : String} {i : Ino}
    (h : dir.hardlinkDisk target source = .linked i) : dir.imgs.lookup source = some i := by
  unfold Dir.hardlinkDisk at h
  split at h
  · simp at h
  · rename_i j hj
    split at h
    · simp at h
    · rw [hj, Hardlink.linked.inj h]

namespace Replica

/-- `ReplaceDisk`, given what comes of the hard link: the source takes the place of the target. -/
def replaceDiskOn (pick : Finset String → String) (r : Replica) (link : Hardlink)
    (target source : String) : Replica × Except OpErr Unit :=
  if target = r.info.head then (r, .error .replaceActive)
  else
    match link with
    | .refused => (r, .error (.replica (.noFile source)))
    | .removed =>
      ({ r with dir := { r.dir with imgs := r.dir.imgs.erase target } },
        .error (.replica (.noFile source)))
    | .linked i =>
      let r := { r with dir := { r.dir with imgs := r.dir.imgs.insert target i } }
      match r.removeDiskNode pick source false with
      | (r, .error e) => (r, .error (.replica e))
      | (r, .ok ()) =>
        let r := r.rmDisk source
        let index := r.findDisk target
        if index = 0 then (r, .ok ())
        else
          match r.dir.openFile (r.activeDiskData.getD index "") with
          | .error e => (r, .error (.replica e))
          | .ok newFile =>
            ({ r with volume := { r.volume with files := r.volume.files.set index newFile } },
              .ok ())

/-- `ReplaceDisk` in a directory of disks. -/
def replaceDisk (pick : Finset String → String) (r : Replica) (target source : String) :
    Replica × Except OpErr Unit :=
  r.replaceDiskOn pick (r.dir.hardlinkDisk target source) target source

end Replica

end WeftBlock
