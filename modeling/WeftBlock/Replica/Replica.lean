import WeftBlock.Replica.Unmap
import WeftBlock.Replica.LayeredRead

/-!
# A replica and its directory

`Replica` of `pkg/replica/replica.go`. The directory holds images and metadata
under names; an image is an inode, because an image that is open, hard-linked or
unlinked is still one file. The volume holds open inodes, `view` is the diff disk
they make up.

The source keeps one record per disk and shares it by pointer between `diskData`
and `activeDiskData`. Here `activeDiskData` holds the names and the record is
looked up, and a record's own `Name` is its key. Go maps are association lists
without order: the places where the source ranges over one and the order matters
take what the range yields as a parameter.
-/

namespace WeftBlock

/-- A file of the file system, under whatever names. -/
abbrev Ino := Nat

/-- `disk`, the metadata of one disk; its `Name` is the key it is stored under. -/
structure Disk where
  parent : String
  removed : Bool
  userCreated : Bool
  created : String
  /-- `none` for a nil map. -/
  labels : Option (List (String × String))
deriving DecidableEq

/-- A backing file: an absolute path and the open disk. -/
structure BackingFile where
  path : String
  disk : Ino
deriving DecidableEq

/-- `Info`, the volume's metadata as far as the operations here read or write it. -/
structure Info where
  size : Nat
  head : String
  dirty : Bool
  parent : String
  backingFile : Option BackingFile
deriving DecidableEq

/-- The replica's directory: the images and the metadata files, by disk name. -/
structure Dir where
  /-- What each inode holds. -/
  data : Ino → File
  imgs : AList (fun _ : String => Ino)
  metas : AList (fun _ : String => Disk)
  /-- `volume.meta`. -/
  volumeMeta : Info

/-- The open volume: a diff disk over inodes. -/
structure Volume where
  location : List UInt8
  files : List Ino
  sectorSize : Nat
  size : Nat

/-- `Replica`. -/
structure Replica where
  dir : Dir
  volume : Volume
  info : Info
  diskData : AList (fun _ : String => Disk)
  diskChildrenMap : AList (fun _ : String => Finset String)
  /-- In grandparent, parent, child order; index 0 is nil. -/
  activeDiskData : List String
  readOnly : Bool
  unmapMarkDiskChainRemoved : Bool

/-- What the replica layer can return as an error. -/
inductive ReplicaErr
  /-- `cannot delete the active differencing disk`. -/
  | activeDisk
  /-- `cannot remove snapshot %v with %v children`. -/
  | manyChildren (name : String) (n : Nat)
  /-- `failed to find metadata for %s`. -/
  | noMetadata (name : String)
  /-- `live chain is too long: %v`. -/
  | chainTooLong (n : Nat)
  /-- The image or the metadata file of a disk is not there. -/
  | noFile (name : String)
  /-- `cannot find disk %v`. -/
  | noDisk (name : String)
  /-- `can not unmap on read-only replica`. -/
  | readOnly
  /-- Following the parents from this disk never ends. -/
  | endless (name : String)
  /-- A record that is not there was dereferenced, a runtime panic. -/
  | nilDisk (name : String)
  | disk (e : DiskErr)
deriving DecidableEq

/-- `types.MaximumTotalSnapshotCount`. -/
def maximumTotalSnapshotCount : Nat := 250

/-- `diskutil.VolumeSectorSize`. -/
def volumeSectorSize : Nat := 4096

namespace Volume

/-- The diff disk the open files make up. -/
def view (v : Volume) (data : Ino → File) : DiffDisk :=
  ⟨v.location, v.files.map data, v.sectorSize, v.size⟩

/-- What the inodes hold once the open files hold `contents`. -/
def writeBack : List Ino → List File → (Ino → File) → Ino → File
  | i :: is, f :: fs, data => Function.update (writeBack is fs data) i f
  | _, _, data => data

end Volume

namespace Replica

/-- The diff disk of the open volume. -/
def view (r : Replica) : DiffDisk := r.volume.view r.dir.data

/-- The replica after an operation turned its diff disk into `d`. -/
def store (r : Replica) (d : DiffDisk) : Replica :=
  { r with
    volume := { r.volume with location := d.location }
    dir := { r.dir with data := Volume.writeBack r.volume.files d.files r.dir.data } }

/-- `len(r.diskChildrenMap[name])`. -/
def childCount (r : Replica) (name : String) : Nat :=
  ((r.diskChildrenMap.lookup name).getD ∅).card

/-- The `Removed` flag of an active disk. -/
def removed (r : Replica) (name : String) : Bool :=
  ((r.diskData.lookup name).map Disk.removed).getD false

/-- `isBackingFile`. -/
def isBackingFile (r : Replica) (index : Nat) : Bool :=
  r.info.backingFile.isSome && index == 1

/-- `findDisk`: the index of an active disk, 0 when it is not one. -/
def findDisk (r : Replica) (name : String) : Nat :=
  if name ∈ r.activeDiskData.tail then r.activeDiskData.tail.idxOf name + 1 else 0

/-- `markDiskAsRemoved`: set the flag in the record and in the metadata file. -/
def markDiskAsRemoved (r : Replica) (name : String) : Replica × Except ReplicaErr Unit :=
  match r.diskData.lookup name with
  | none => (r, .error (.noDisk name))
  | some disk =>
    if (r.dir.imgs.lookup name).isNone ∨ (r.dir.metas.lookup name).isNone then
      (r, .error (.noFile name))
    else
      let disk' := { disk with removed := true }
      ({ r with
          diskData := r.diskData.insert name disk'
          dir := { r.dir with metas := r.dir.metas.insert name disk' } }, .ok ())

/-! ## Unmapping through the replica -/

/--
The loop of `UnmapAt` over the active disks from index `idx` down to `low`. It
stops at a disk with more than one child, and passes over one that is not marked
as removed.
-/
def unmappableLoop (low : Nat) : Nat → Replica → Replica × Except ReplicaErr (List String)
  | 0, r => (r, .ok [])
  | idx + 1, r =>
    let name := r.activeDiskData.getD (idx + 1) ""
    if idx + 1 < low then
      (r, .ok [])
    else if 1 < r.childCount name then
      (r, .ok [])
    else
      match (if r.unmapMarkDiskChainRemoved then r.markDiskAsRemoved name else (r, .ok ())) with
      | (r', .error e) => (r', .error e)
      | (r', .ok ()) =>
        match unmappableLoop low idx r' with
        | (r'', .error e) => (r'', .error e)
        | (r'', .ok rest) => (r'', .ok (if r'.removed name then name :: rest else rest))

/-- `UnmapAt`, up to the revision counter. -/
def unmapAt (actualSize : List File → String → Int) (r : Replica) (length : UInt32)
    (offset : Int64) : Replica × Except ReplicaErr Int :=
  if r.readOnly then
    (r, .error .readOnly)
  else
    let head := r.activeDiskData.getD (r.activeDiskData.length - 1) ""
    let low := if r.isBackingFile 1 then 2 else 1
    match unmappableLoop low (r.activeDiskData.length - 2) r with
    | (r', .error e) => (r', .error e)
    | (r', .ok disks) =>
      let (d, res) := r'.view.unmapAt actualSize (head :: disks) length offset
      ({ r'.store d with info := { r'.info with dirty := true } }, res.mapError .disk)

end Replica

end WeftBlock
