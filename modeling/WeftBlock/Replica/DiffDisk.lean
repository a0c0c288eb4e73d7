import WeftBlock.Replica.File

/-!
# The diff disk

`diffDisk` of `pkg/replica/diff_disk.go`: a stack of sparse files read as one
volume. `files` is in grandparent, parent, child order; index 0 is nil in the
source and is a placeholder here that no operation opens, index 1 is the base,
the last index is the head. `location` caches, sector by sector, which file a
sector is read from, with 0 for "not known yet". Its entries are bytes, as in the
source, so an index is stored modulo 256.

The functions are the source's, with the buffer and the disk passed along
explicitly. Offsets and sizes are naturals; counts are integers because the
source's arithmetic can take them below zero.
-/

namespace WeftBlock

open Slice

/-- What the disk layer can return as an error. -/
inductive DiskErr
  /-- `read not a multiple of %d`. -/
  | readNotMultiple (sectorSize : Nat)
  /-- `write len(%d), offset %d not a multiple of %d`. -/
  | writeNotMultiple (len offset sectorSize : Nat)
  /-- `io.ErrUnexpectedEOF`: the read ran past the volume. -/
  | unexpectedEOF
  /-- `BUG: replica files cannot be less than 2`. -/
  | tooFewFiles
  /-- The head file refused the rest of a write. -/
  | writeFailed
  /-- The location table was indexed out of range, a runtime panic. -/
  | indexOutOfRange
  /-- `final unmap length(%v) should not be larger than original length(%v)`. -/
  | unmapLength (final orig : UInt32)
  /-- `failed to do unmap with offset %v and length %v for the disk file %v`. -/
  | unmapFailed (offset : Int64) (length : UInt32) (path : String)
deriving DecidableEq

/-- `diffDisk`. -/
structure DiffDisk where
  /-- Sector to file index, 0 for unknown. -/
  location : List UInt8
  /-- The open files; index 0 is nil. -/
  files : List File
  sectorSize : Nat
  /-- The volume size. -/
  size : Nat

/-- The result of a read: the disk with its cache filled, the buffer, the count and the error. -/
structure ReadOut where
  disk : DiffDisk
  buf : List UInt8
  n : Int
  err : Option DiskErr

namespace DiffDisk

/-- `d.files[i]`. -/
def file (d : DiffDisk) (i : Nat) : File := d.files.getD i (File.empty 0)

/-- `d.location[sector]`. -/
def loc (d : DiffDisk) (sector : Nat) : UInt8 := d.location.getD sector 0

/-- `Fiemap` finds an extent of file `i` inside the sector. -/
def owns (d : DiffDisk) (i sector : Nat) : Bool :=
  (d.file i).hasExtent (sector * d.sectorSize) d.sectorSize

/-- The loop of `lookup` from file `i` down to file 2. -/
def scan (d : DiffDisk) (sector : Nat) : Nat → Option Nat
  | 0 => none
  | i + 1 => if i = 0 then none else if d.owns (i + 1) sector then some (i + 1) else d.scan sector i

/-- The table entry `lookup` leaves behind for an unknown sector. -/
def found (d : DiffDisk) (sector : Nat) : UInt8 :=
  match d.scan sector (d.files.length - 1) with
  | some i => if UInt8.ofNat i = 0 then 1 else UInt8.ofNat i
  | none => 1

/-- `lookup`: the file a sector is read from, resolved once and then cached. -/
def lookup (d : DiffDisk) (sector : Nat) : DiffDisk × Except DiskErr UInt8 :=
  if d.location.length ≤ sector then
    (d, .ok (UInt8.ofNat (d.files.length - 1)))
  else if d.files.length < 2 then
    (d, .error .tooFewFiles)
  else if d.loc sector = 0 then
    ({ d with location := d.location.set sector (d.found sector) }, .ok (d.found sector))
  else
    (d, .ok (d.loc sector))

/--
`read`: fill `sectors` sectors of `buf` from file `target`, starting `startSector`
sectors into the buffer. What lies past the end of the file is left as it is.
-/
def read (d : DiffDisk) (target : UInt8) (buf : List UInt8) (offset startSector sectors : Nat) :
    List UInt8 × Int × Option DiskErr :=
  let bufStart := startSector * d.sectorSize
  let bufLength := sectors * d.sectorSize
  let diskReadStart := offset + bufStart
  let diskReadEnd := diskReadStart + bufLength
  let f := d.file target.toNat
  let got := if diskReadStart < f.size then min bufLength (f.size - diskReadStart) else 0
  let buf' := copyAt buf bufStart (f.readAt diskReadStart got)
  if diskReadEnd ≤ f.size then
    (buf', got, none)
  else if diskReadEnd ≤ d.size then
    (buf', got + (diskReadEnd - max f.size diskReadStart : Int), none)
  else
    (buf', got + (d.size - max f.size diskReadStart : Int), some .unexpectedEOF)

/--
The loop of `fullReadAt`. `i` sectors have been looked up; the last `run` of them
come from `target` and have not been read yet; `rem` are still to be looked up.
-/
def fullReadLoop (offset startSector : Nat) :
    (rem i run : Nat) → (target : UInt8) → DiffDisk → List UInt8 → Int → ReadOut
  | 0, i, run, target, d, buf, count =>
    let (buf', c, err) := d.read target buf offset (i - run) run
    ⟨d, buf', count + c, err⟩
  | rem + 1, i, run, target, d, buf, count =>
    match d.lookup (startSector + i) with
    | (d', .error e) => ⟨d', buf, count, some e⟩
    | (d', .ok newTarget) =>
      if newTarget = target then
        fullReadLoop offset startSector rem (i + 1) (run + 1) target d' buf count
      else
        match d'.read target buf offset (i - run) run with
        | (buf', c, some e) => ⟨d', buf', count + c, some e⟩
        | (buf', c, none) =>
          fullReadLoop offset startSector rem (i + 1) 1 newTarget d' buf' (count + c)

/-- `fullReadAt`: read whole sectors, one `read` per run of sectors in the same file. -/
def fullReadAt (d : DiffDisk) (buf : List UInt8) (offset : Nat) : ReadOut :=
  if buf.length % d.sectorSize ≠ 0 ∨ offset % d.sectorSize ≠ 0 then
    ⟨d, buf, 0, some (.readNotMultiple d.sectorSize)⟩
  else if buf.length = 0 then
    ⟨d, buf, 0, none⟩
  else
    let sectors := buf.length / d.sectorSize
    let startSector := offset / d.sectorSize
    match d.lookup startSector with
    | (d', .error e) => ⟨d', buf, 0, some e⟩
    | (d', .ok target) => fullReadLoop offset startSector (sectors - 1) 1 1 target d' buf 0

/-- `startOffset`: how far into its sector a transfer starts. -/
def startOffset (d : DiffDisk) (offset : Nat) : Nat := offset % d.sectorSize

/-- `startCut`: what is left of the sector a transfer starts in. -/
def startCut (d : DiffDisk) (offset : Nat) : Nat := d.sectorSize - d.startOffset offset

/-- `endOffset`: how far into its last sector a transfer reaches. -/
def endOffset (d : DiffDisk) (len offset : Nat) : Nat := (len + offset) % d.sectorSize

/-- `ReadAt`: the unaligned ends go through one scratch sector, the middle is read in place. -/
def readAt (d : DiffDisk) (buf : List UInt8) (offset : Nat) : ReadOut :=
  let startOffset := d.startOffset offset
  let startCut := d.startCut offset
  let endOffset := d.endOffset buf.length offset
  if buf.length = 0 then
    ⟨d, buf, 0, none⟩
  else if startOffset = 0 ∧ endOffset = 0 then
    d.fullReadAt buf offset
  else
    let head := d.fullReadAt (List.replicate d.sectorSize 0) (offset - startOffset)
    match head.err with
    | some e => ⟨head.disk, buf, 0, some e⟩
    | none =>
      let buf₁ := copyAt buf 0 ((head.buf.drop startOffset).take buf.length)
      if buf.length ≤ startCut then
        ⟨head.disk, buf₁, buf.length, none⟩
      else
        let mid := head.disk.fullReadAt
          ((buf₁.drop startCut).take (buf.length - endOffset - startCut)) (offset + startCut)
        match mid.err with
        | some e => ⟨mid.disk, copyAt buf₁ startCut mid.buf, 0, some e⟩
        | none =>
          let buf₂ := copyAt buf₁ startCut mid.buf
          if 0 < endOffset then
            -- the scratch sector still holds what the head read left in it
            let tail := mid.disk.fullReadAt head.buf (offset + buf.length - endOffset)
            match tail.err with
            | some e => ⟨tail.disk, buf₂, 0, some e⟩
            | none =>
              ⟨tail.disk, copyAt buf₂ (buf.length - endOffset) (tail.buf.take endOffset),
                buf.length, none⟩
          else
            ⟨mid.disk, buf₂, buf.length, none⟩

end DiffDisk

end WeftBlock
