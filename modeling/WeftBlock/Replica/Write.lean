import WeftBlock.Replica.LayeredRead
import WeftBlock.Replica.Unmap

/-!
# Writing to the head

`WriteAt` of `pkg/replica/diff_disk.go`. Whole sectors go straight to the head
file, the sectors at the unaligned ends through a read-modify-write. Each head
write may be given a fault: it then persists the first `k` bytes it was handed and
fails. `fullWriteAt` marks *all* the sectors it was handed as the head's either
way, so what a failed write did not persist is read from the head from then on,
whatever the head holds there.
-/

namespace WeftBlock

open Slice

/-- `WriteAt` of the head file: with a fault it persists a part and fails. -/
def File.tryWriteAt (f : File) (data : List UInt8) (offset : Nat) :
    Option Nat → File × Nat × Option DiskErr
  | none => (f.writeAt data offset, data.length, none)
  | some k => (f.writeAt (data.take k) offset, min k data.length, some .writeFailed)

/-- The result of a write: the disk, the count and the error. -/
structure WriteOut where
  disk : DiffDisk
  n : Int
  err : Option DiskErr

namespace DiffDisk

/-- `fullWriteAt`: write whole sectors to the head and mark them as the head's. -/
def fullWriteAt (d : DiffDisk) (buf : List UInt8) (offset : Nat) (fault : Option Nat) : WriteOut :=
  if buf.length % d.sectorSize ≠ 0 ∨ offset % d.sectorSize ≠ 0 then
    ⟨d, 0, some (.writeNotMultiple buf.length offset d.sectorSize)⟩
  else
    let target := UInt8.ofNat (d.files.length - 1)
    let startSector := offset / d.sectorSize
    let sectors := buf.length / d.sectorSize
    let (f, c, err) := (d.file target.toNat).tryWriteAt buf offset fault
    let files := d.files.set target.toNat f
    if 0 < sectors ∧ d.location.length < startSector + sectors then
      ⟨{ d with files := files }, c, some .indexOutOfRange⟩
    else
      -- regardless of the error
      ⟨{ d with
          files := files
          location := copyAt d.location startSector (List.replicate sectors target) }, c, err⟩

/-- `computeNominalWrittenBytes`: how much of the caller's part of a sector was written. -/
def computeNominalWrittenBytes (bufSize writtenBytes offset readOffset : Int) : Int :=
  if offset < readOffset then 0
  else
    let nominalWrittenBytes := writtenBytes - (offset - readOffset)
    let nominalWrittenBytes := if nominalWrittenBytes < 0 then 0 else nominalWrittenBytes
    if bufSize < nominalWrittenBytes then bufSize else nominalWrittenBytes

/-- `readModifyWrite`: read the sector, put the caller's bytes into it, write it whole. -/
def readModifyWrite (d : DiffDisk) (buf : List UInt8) (offset : Nat) (fault : Option Nat) :
    WriteOut :=
  if buf.length = 0 then
    ⟨d, 0, none⟩
  else
    let readOffset := (offset / d.sectorSize) * d.sectorSize
    let readOut := d.fullReadAt (List.replicate d.sectorSize 0) readOffset
    match readOut.err with
    | some e => ⟨readOut.disk, 0, some e⟩
    | none =>
      let readBuf := copyAt readOut.buf (offset % d.sectorSize) buf
      let w := readOut.disk.fullWriteAt readBuf readOffset fault
      match w.err with
      | some e =>
        ⟨w.disk, computeNominalWrittenBytes buf.length w.n offset readOffset, some e⟩
      | none => ⟨w.disk, buf.length, none⟩

/-- `WriteAt`; `faults i` is what befalls its `i`-th head write. -/
def writeAt (d : DiffDisk) (buf : List UInt8) (offset : Nat) (faults : Nat → Option Nat) :
    WriteOut :=
  let startCut := d.startCut offset
  let endOffset := d.endOffset buf.length offset
  if buf.length = 0 then
    ⟨d, 0, none⟩
  else if d.startOffset offset = 0 ∧ endOffset = 0 then
    d.fullWriteAt buf offset (faults 0)
  else if buf.length ≤ startCut then
    d.readModifyWrite buf offset (faults 0)
  else
    let start := d.readModifyWrite (buf.take startCut) offset (faults 0)
    match start.err with
    | some e => ⟨start.disk, start.n, some e⟩
    | none =>
      let middle := start.disk.fullWriteAt
        ((buf.drop startCut).take (buf.length - endOffset - startCut)) (offset + startCut)
        (faults 1)
      match middle.err with
      | some e => ⟨middle.disk, middle.n + start.n, some e⟩
      | none =>
        let last := middle.disk.readModifyWrite (buf.drop (buf.length - endOffset))
          (offset + buf.length - endOffset) (faults 2)
        match last.err with
        | some e => ⟨last.disk, last.n + start.n + middle.n, some e⟩
        | none => ⟨last.disk, buf.length, none⟩

/-! ## One head write -/

/-- The index of the head. -/
def head (d : DiffDisk) : Nat := d.files.length - 1

/-- How much of a head write of `len` bytes reaches the file. -/
def kept (len : Nat) : Option Nat → Nat
  | none => len
  | some k => min k len

/-- The error of a head write. -/
def faultErr : Option Nat → Option DiskErr
  | none => none
  | some _ => some .writeFailed

theorem kept_le (len : Nat) (fault : Option Nat) : kept len fault ≤ len := by
  cases fault with
  | none => exact Nat.le_refl _
  | some k => exact Nat.min_le_right _ _

theorem tryWriteAt_eq (f : File) (data : List UInt8) (offset : Nat) (fault : Option Nat) :
    f.tryWriteAt data offset fault
      = (f.writeAt (data.take (kept data.length fault)) offset, kept data.length fault,
          faultErr fault) := by
  cases fault with
  | none => rw [File.tryWriteAt, kept, List.take_length]; rfl
  | some k =>
    rw [File.tryWriteAt, kept, List.take_eq_take_min]
    rfl

/--
`d'` is `d` after a write to the head inside `[start, stop)`: there the volume
shows `g`, elsewhere neither the volume nor the head changed.
-/
structure Wrote (d d' : DiffDisk) (start stop : Nat) (g : Nat → UInt8) : Prop where
  wf : d'.Wf
  sectorSize : d'.sectorSize = d.sectorSize
  size : d'.size = d.size
  length : d'.files.length = d.files.length
  head : ∀ p, ¬ (start ≤ p ∧ p < stop) → (d'.file d'.head).byteAt p = (d.file d.head).byteAt p
  content : ∀ p, d'.content p = if start ≤ p ∧ p < stop then g p else d.content p

variable {d : DiffDisk} {g : Nat → UInt8}

theorem head_toNat (h : d.Wf) :
    (UInt8.ofNat (d.files.length - 1)).toNat = d.head := by
  have := h.le_256
  have := h.two_le
  rw [UInt8.toNat_ofNat', head]
  exact Nat.mod_eq_of_lt (by omega)

/-- Data outside a sector does not decide who owns it. -/
theorem hasExtent_writeAt {f : File} {data : List UInt8} {offset start len : Nat}
    (h : start + len ≤ offset ∨ offset + data.length ≤ start) :
    (f.writeAt data offset).hasExtent start len = f.hasExtent start len := by
  rw [Bool.eq_iff_iff, File.hasExtent_iff, File.hasExtent_iff]
  refine exists_congr (fun p => and_congr_right (fun h1 => and_congr_right (fun h2 => ?_)))
  have hc : (f.writeAt data offset).cell p = f.cell p := if_neg (by omega)
  rw [hc]

/-- The disk `fullWriteAt` leaves behind. -/
def written (d : DiffDisk) (buf : List UInt8) (offset : Nat) (fault : Option Nat) : DiffDisk :=
  { d with
    files := d.files.set d.head
      ((d.file d.head).writeAt (buf.take (kept buf.length fault)) offset)
    location := copyAt d.location (offset / d.sectorSize)
      (List.replicate (buf.length / d.sectorSize) (UInt8.ofNat d.head)) }

section

variable {d : DiffDisk} (h : d.Wf) {offset len : Nat} (hl : len % d.sectorSize = 0)
  (ho : offset % d.sectorSize = 0)
include h hl ho

/-- An aligned range inside the volume, counted in sectors. -/
theorem sectors_le (hvol : offset + len ≤ d.size) :
    offset / d.sectorSize + len / d.sectorSize ≤ d.location.length := by
  have h1 := Nat.div_add_mod offset d.sectorSize
  have h2 := Nat.div_add_mod len d.sectorSize
  have h3 : (offset / d.sectorSize + len / d.sectorSize) * d.sectorSize
      ≤ d.location.length * d.sectorSize := by
    rw [h.table, Nat.add_mul, Nat.mul_comm, Nat.mul_comm (len / _)]
    omega
  exact Nat.le_of_mul_le_mul_right h3 h.sector_pos

/-- A position lies in an aligned range exactly when its sector does. -/
theorem sector_mem_iff (p : Nat) :
    (offset / d.sectorSize ≤ p / d.sectorSize
      ∧ p / d.sectorSize < offset / d.sectorSize + len / d.sectorSize)
      ↔ offset ≤ p ∧ p < offset + len := by
  have h1 := Nat.div_add_mod offset d.sectorSize
  have h2 := Nat.div_add_mod len d.sectorSize
  rw [Nat.le_div_iff_mul_le h.sector_pos, Nat.div_lt_iff_lt_mul h.sector_pos, Nat.add_mul,
    Nat.mul_comm, Nat.mul_comm (len / _)]
  constructor <;> omega

end

variable {buf : List UInt8} {fault : Option Nat}

section

variable {d : DiffDisk} (h : d.Wf)
include h

theorem loc_written {offset : Nat} (hl : buf.length % d.sectorSize = 0)
    (ho : offset % d.sectorSize = 0) (hvol : offset + buf.length ≤ d.size) (s : Nat) :
    (d.written buf offset fault).loc s
      = if offset / d.sectorSize ≤ s ∧ s < offset / d.sectorSize + buf.length / d.sectorSize
        then UInt8.ofNat d.head else d.loc s := by
  have hle := sectors_le h hl ho hvol
  show (copyAt d.location _ _).getD s 0 = _
  rw [List.getD_eq_getElem?_getD, getElem?_copyAt (by rw [List.length_replicate]; exact hle),
    List.length_replicate]
  split
  · rw [List.getElem?_replicate, if_pos (by omega)]; rfl
  · rw [loc, List.getD_eq_getElem?_getD]

theorem head_lt : d.head < d.files.length := by
  have := h.two_le
  rw [head]; omega

theorem head_ofNat_ne_zero : UInt8.ofNat d.head ≠ 0 := by
  intro he
  have h1 := head_toNat h
  have h2 := h.two_le
  rw [← head, he, head] at h1
  have : (0 : UInt8).toNat = 0 := rfl
  omega

theorem file_written (buf : List UInt8) (offset : Nat) (fault : Option Nat) (i : Nat) :
    (d.written buf offset fault).file i
      = if i = d.head then (d.file d.head).writeAt (buf.take (kept buf.length fault)) offset
        else d.file i :=
  file_set d (head_lt h) _ i

end

theorem head_written (d : DiffDisk) (buf : List UInt8) (offset : Nat) (fault : Option Nat) :
    (d.written buf offset fault).head = d.head := by
  rw [head, head]
  exact congrArg (· - 1) List.length_set

section

variable {d : DiffDisk} (h : d.Wf) {buf : List UInt8} {offset : Nat} {fault : Option Nat}
  (hl : buf.length % d.sectorSize = 0) (ho : offset % d.sectorSize = 0)
  (hvol : offset + buf.length ≤ d.size)
include h hl ho hvol

theorem wf_written : (d.written buf offset fault).Wf := by
  have hlen : (d.written buf offset fault).files.length = d.files.length := List.length_set
  have hle := sectors_le h hl ho hvol
  refine ⟨h.sector_pos, by rw [hlen]; exact h.two_le, by rw [hlen]; exact h.le_256, ?_,
    fun s => ?_⟩
  · show (copyAt d.location _ _).length * d.sectorSize = d.size
    rw [length_copyAt (Nat.le_trans (Nat.le_add_right _ _) hle), h.table]
  · rw [loc_written h hl ho hvol, hlen]
    split
    · rw [head, head_toNat h]; exact head_lt h
    · exact h.ranged s

/-- A sector outside the written range resolves as before. -/
theorem layer_written_of_not_mem {s : Nat} (hs : ¬ (offset / d.sectorSize ≤ s
      ∧ s < offset / d.sectorSize + buf.length / d.sectorSize)) :
    (d.written buf offset fault).layer s = d.layer s := by
  have howns : ∀ i, (d.written buf offset fault).owns i s = d.owns i s := by
    intro i
    show ((d.written buf offset fault).file i).hasExtent (s * d.sectorSize) d.sectorSize = _
    rw [file_written h, owns]
    by_cases hi : i = d.head
    · rw [if_pos hi, hi]
      refine hasExtent_writeAt ?_
      have h1 := Nat.div_add_mod offset d.sectorSize
      have h2 := Nat.div_add_mod buf.length d.sectorSize
      rw [List.length_take]
      rcases Nat.lt_or_ge s (offset / d.sectorSize) with hlt | hge
      · left
        have := Nat.mul_le_mul_right d.sectorSize (show s + 1 ≤ offset / d.sectorSize from hlt)
        rw [Nat.add_mul, Nat.one_mul, Nat.mul_comm (offset / _)] at this
        omega
      · right
        have := Nat.mul_le_mul_right d.sectorSize
          (show offset / d.sectorSize + buf.length / d.sectorSize ≤ s by omega)
        rw [Nat.add_mul, Nat.mul_comm, Nat.mul_comm (buf.length / _)] at this
        omega
    · rw [if_neg hi]
  have hfound : (d.written buf offset fault).found s = d.found s :=
    found_of_owns List.length_set howns
  rw [layer, layer, loc_written h hl ho hvol, if_neg hs, hfound]

theorem content_written (p : Nat) :
    (d.written buf offset fault).content p
      = if offset ≤ p ∧ p < offset + buf.length
        then (if p < offset + kept buf.length fault then buf.getD (p - offset) 0
          else (d.file d.head).byteAt p)
        else d.content p := by
  have hk := kept_le buf.length fault
  have hlen : (buf.take (kept buf.length fault)).length = kept buf.length fault := by
    rw [List.length_take]; omega
  show ((d.written buf offset fault).file
    ((d.written buf offset fault).layer (p / d.sectorSize))).byteAt p = _
  by_cases hp : offset ≤ p ∧ p < offset + buf.length
  · have hs := (sector_mem_iff h hl ho p).mpr hp
    have hlayer : (d.written buf offset fault).layer (p / d.sectorSize) = d.head := by
      rw [layer, loc_written h hl ho hvol, if_pos hs, if_neg (head_ofNat_ne_zero h), head,
        head_toNat h, head]
    rw [hlayer, file_written h, if_pos rfl, File.byteAt_writeAt, hlen, if_pos hp]
    by_cases hkp : p < offset + kept buf.length fault
    · rw [if_pos ⟨hp.1, hkp⟩, if_pos hkp, List.getElem?_take_of_lt (by omega),
        List.getD_eq_getElem?_getD]
    · rw [if_neg (fun hh => hkp hh.2), if_neg hkp]
  · have hs : ¬ (offset / d.sectorSize ≤ p / d.sectorSize
        ∧ p / d.sectorSize < offset / d.sectorSize + buf.length / d.sectorSize) :=
      fun hh => hp ((sector_mem_iff h hl ho p).mp hh)
    rw [layer_written_of_not_mem h hl ho hvol hs, file_written h, if_neg hp, content]
    by_cases hi : d.layer (p / d.sectorSize) = d.head
    · rw [if_pos hi, File.byteAt_writeAt, hlen, if_neg (by omega), hi]
    · rw [if_neg hi]

end

section

variable {d : DiffDisk} (h : d.Wf) (buf : List UInt8) (offset : Nat) (fault : Option Nat)
include h

theorem fullWriteAt_eq (hl : buf.length % d.sectorSize = 0) (ho : offset % d.sectorSize = 0)
    (hvol : offset + buf.length ≤ d.size) :
    d.fullWriteAt buf offset fault
      = ⟨d.written buf offset fault, (kept buf.length fault : Nat), faultErr fault⟩ := by
  have hle := sectors_le h hl ho hvol
  rw [fullWriteAt, if_neg (by omega)]
  dsimp only
  rw [if_neg (by omega), head_toNat h, tryWriteAt_eq]
  rfl

/-- The head after a head write: what was persisted, and around it what was there. -/
theorem byteAt_written (p : Nat) :
    ((d.written buf offset fault).file (d.written buf offset fault).head).byteAt p
      = if offset ≤ p ∧ p < offset + kept buf.length fault then buf.getD (p - offset) 0
        else (d.file d.head).byteAt p := by
  have hk := kept_le buf.length fault
  rw [head_written, file_written h, if_pos rfl, File.byteAt_writeAt, List.length_take,
    Nat.min_eq_left hk]
  by_cases hp : offset ≤ p ∧ p < offset + kept buf.length fault
  · rw [if_pos hp, if_pos hp, List.getElem?_take_of_lt (by omega), List.getD_eq_getElem?_getD]
  · rw [if_neg hp, if_neg hp]

end

/-- What a head write inside the volume comes to. -/
theorem wrote_written (h : d.Wf) {offset : Nat} (hl : buf.length % d.sectorSize = 0)
    (ho : offset % d.sectorSize = 0) (hvol : offset + buf.length ≤ d.size) :
    Wrote d (d.written buf offset fault) offset (offset + buf.length) (fun p =>
      if p < offset + kept buf.length fault then buf.getD (p - offset) 0
      else (d.file d.head).byteAt p) := by
  have hk := kept_le buf.length fault
  refine ⟨wf_written h hl ho hvol, rfl, rfl, List.length_set, fun p hp => ?_,
    content_written h hl ho hvol⟩
  rw [byteAt_written h, if_neg (by omega)]

/-! ## One sector, read and written back -/

theorem Wrote.of_caches {d d₁ d' : DiffDisk} {start stop : Nat} (hc : Caches d d₁)
    (h : Wrote d₁ d' start stop g) : Wrote d d' start stop g := by
  have hhead : d₁.head = d.head := by rw [DiffDisk.head, DiffDisk.head, hc.files]
  refine ⟨h.wf, h.sectorSize.trans hc.sectorSize, h.size.trans hc.size,
    by rw [h.length, hc.files], fun p hp => ?_, fun p => ?_⟩
  · rw [h.head p hp, hhead, hc.file]
  · rw [h.content, hc.content]

theorem Wrote.congr {d d' : DiffDisk} {start stop : Nat} (h : Wrote d d' start stop g)
    (g' : Nat → UInt8) (hg : ∀ p, start ≤ p → p < stop → g p = g' p) :
    Wrote d d' start stop g' := by
  refine ⟨h.wf, h.sectorSize, h.size, h.length, h.head, fun p => ?_⟩
  rw [h.content]
  split
  · rename_i hp; exact hg p hp.1 hp.2
  · rfl

/-- The volume with the caller's bytes laid over it. -/
def laid (d : DiffDisk) (buf : List UInt8) (offset p : Nat) : UInt8 :=
  if offset ≤ p ∧ p < offset + buf.length then buf.getD (p - offset) 0 else d.content p

/-- The head of `d'` is that of `d` with the values of `g` on `[start, stop)`. -/
def HeadHolds (d d' : DiffDisk) (start stop : Nat) (g : Nat → UInt8) : Prop :=
  ∀ p, (d'.file d'.head).byteAt p
    = if start ≤ p ∧ p < stop then g p else (d.file d.head).byteAt p

theorem HeadHolds.trans {d d₁ d₂ : DiffDisk} {start mid stop : Nat} (h : HeadHolds d d₁ start mid g)
    (h' : HeadHolds d₁ d₂ mid stop g) (h1 : start ≤ mid) (h2 : mid ≤ stop) :
    HeadHolds d d₂ start stop g := by
  intro p
  rw [h' p, h p]
  by_cases hp : mid ≤ p ∧ p < stop
  · rw [if_pos hp, if_pos (by omega)]
  · rw [if_neg hp]
    by_cases hq : start ≤ p ∧ p < mid
    · rw [if_pos hq, if_pos (by omega)]
    · rw [if_neg hq, if_neg (by omega)]

theorem HeadHolds.congr {d d' : DiffDisk} {start stop : Nat} (h : HeadHolds d d' start stop g)
    (g' : Nat → UInt8) (hg : ∀ p, start ≤ p → p < stop → g p = g' p) :
    HeadHolds d d' start stop g' := by
  intro p
  rw [h p]
  split
  · rename_i hp; exact hg p hp.1 hp.2
  · rfl

theorem nominal_eq {bufSize writtenBytes offset readOffset : Nat} (h : readOffset ≤ offset) :
    computeNominalWrittenBytes bufSize writtenBytes offset readOffset
      = (min bufSize (writtenBytes - (offset - readOffset)) : Nat) := by
  unfold computeNominalWrittenBytes
  rw [if_neg (by omega)]
  dsimp only
  split
  · split <;> omega
  · split <;> omega

/-- **`readModifyWrite` inside one sector of the volume.** -/
theorem readModifyWrite_spec (h : d.Wf) (buf : List UInt8) (offset : Nat) (fault : Option Nat)
    (hpos : 0 < buf.length) (hone : d.startOffset offset + buf.length ≤ d.sectorSize)
    (hvol : offset + buf.length ≤ d.size) :
    ∃ d', d.readModifyWrite buf offset fault
        = ⟨d', (min buf.length (kept d.sectorSize fault - d.startOffset offset) : Nat),
          faultErr fault⟩
      ∧ HeadHolds d d' (offset - d.startOffset offset)
          (offset - d.startOffset offset + kept d.sectorSize fault) (d.laid buf offset)
      ∧ Wrote d d' (offset - d.startOffset offset)
          (offset - d.startOffset offset + d.sectorSize) (fun p =>
            if p < offset - d.startOffset offset + kept d.sectorSize fault
            then d.laid buf offset p else (d.file d.head).byteAt p) := by
  have hread : offset / d.sectorSize * d.sectorSize = offset - d.startOffset offset := by
    have := Nat.div_add_mod offset d.sectorSize
    rw [startOffset, Nat.mul_comm]; omega
  obtain ⟨d₁, scratch, hr, hw, hc, hl, hs⟩ := fullReadAt_sector h (p := offset) (by omega)
  have hle := startOffset_le d offset
  have hlen : (copyAt scratch (d.startOffset offset) buf).length = d.sectorSize := by
    rw [length_copyAt (by omega), hl]
  have hsec := sector_in_volume h (p := offset) (by omega)
  have hk := kept_le d.sectorSize fault
  have hlm : (copyAt scratch (d.startOffset offset) buf).length % d₁.sectorSize = 0 := by
    rw [hlen, hc.sectorSize, Nat.mod_self]
  have hom : (offset - d.startOffset offset) % d₁.sectorSize = 0 := by
    rw [hc.sectorSize]; exact startSector_mod d offset
  have hin : offset - d.startOffset offset + (copyAt scratch (d.startOffset offset) buf).length
      ≤ d₁.size := by
    rw [hlen, hc.size]; exact hsec
  have hwr := fullWriteAt_eq hw (copyAt scratch (d.startOffset offset) buf)
    (offset - d.startOffset offset) fault hlm hom hin
  have hwrote := @wrote_written _ _ fault hw _ hlm hom hin
  rw [hlen] at hwr hwrote
  have hhead : (d₁.file d₁.head) = d.file d.head := by
    rw [hc.file, DiffDisk.head, hc.files, DiffDisk.head]
  -- the scratch sector: the caller's bytes inside, the old content around them
  have hdata : ∀ p, offset - d.startOffset offset ≤ p →
      p < offset - d.startOffset offset + d.sectorSize →
      (copyAt scratch (d.startOffset offset) buf).getD (p - (offset - d.startOffset offset)) 0
        = d.laid buf offset p := by
    intro p h1 h2
    rw [List.getD_eq_getElem?_getD, getElem?_copyAt (by rw [hl]; exact hone), laid]
    by_cases hp : offset ≤ p ∧ p < offset + buf.length
    · rw [if_pos (by omega), if_pos hp, List.getD_eq_getElem?_getD]
      congr 2
      omega
    · rw [if_neg (by omega), if_neg hp, hs _ (by omega)]
      show d.content _ = _
      congr 1
      omega
  refine ⟨d₁.written (copyAt scratch (d.startOffset offset) buf) (offset - d.startOffset offset)
    fault, ?_, fun p => ?_, ?_⟩
  · unfold readModifyWrite
    rw [if_neg (by omega)]
    dsimp only
    rw [hread, hr]
    dsimp only
    rw [show offset % d.sectorSize = d.startOffset offset from rfl, hwr]
    dsimp only
    have hnominal := @nominal_eq buf.length (kept d.sectorSize fault) offset
      (offset - d.startOffset offset) (by omega)
    rw [show offset - (offset - d.startOffset offset) = d.startOffset offset by omega] at hnominal
    cases fault with
    | none =>
      have hall : min buf.length (kept d.sectorSize none - d.startOffset offset) = buf.length :=
        Nat.min_eq_left (show buf.length ≤ d.sectorSize - d.startOffset offset by omega)
      rw [hall]
      rfl
    | some k =>
      rw [← hnominal]
      rfl
  · rw [byteAt_written hw, hlen, hhead]
    by_cases hp : offset - d.startOffset offset ≤ p
        ∧ p < offset - d.startOffset offset + kept d.sectorSize fault
    · rw [if_pos hp, if_pos hp, hdata p hp.1 (by omega)]
    · rw [if_neg hp, if_neg hp]
  · refine (hwrote.of_caches hc).congr _ (fun p h1 h2 => ?_)
    rw [hhead, hdata p h1 h2]

/-! ## The three phases -/

/--
A write of `buf` at `offset` that has got as far as its first `m` bytes: the
volume shows those, and the head is untouched from `a` on.
-/
structure Upto (d d' : DiffDisk) (buf : List UInt8) (offset m a : Nat) : Prop where
  wf : d'.Wf
  sectorSize : d'.sectorSize = d.sectorSize
  size : d'.size = d.size
  head : ∀ p, a ≤ p → (d'.file d'.head).byteAt p = (d.file d.head).byteAt p
  content : ∀ p, d'.content p
    = if offset ≤ p ∧ p < offset + m then buf.getD (p - offset) 0 else d.content p

theorem Upto.start (h : d.Wf) (buf : List UInt8) (offset a : Nat) :
    Upto d d buf offset 0 a :=
  ⟨h, rfl, rfl, fun _ _ => rfl, fun p => (if_neg (by omega)).symm⟩

/-- What the volume shows after a write that was stopped in a head write, or not at all. -/
def shown (d : DiffDisk) (buf : List UInt8) (offset : Nat) : Option (Nat × Nat × Nat) → Nat → UInt8
  | none, p => if offset ≤ p ∧ p < offset + buf.length then buf.getD (p - offset) 0 else d.content p
  | some (a, len, k), p =>
    if a + min k len ≤ p ∧ p < a + len then (d.file d.head).byteAt p
    else if offset ≤ p ∧ p < offset + buf.length ∧ p < a + min k len then buf.getD (p - offset) 0
    else d.content p

/-- The head write of the next phase, over `[a, a + len)`, taking the write from `m` to `m'`. -/
structure Phase (d d₁ d₂ : DiffDisk) (buf : List UInt8) (offset m m' a len : Nat)
    (fault : Option Nat) : Prop where
  upto : Upto d d₁ buf offset m a
  wrote : Wrote d₁ d₂ a (a + len) (fun p =>
    if p < a + kept len fault
    then (if offset ≤ p ∧ p < offset + m' then buf.getD (p - offset) 0 else d.content p)
    else (d₁.file d₁.head).byteAt p)
  /-- What was written before lies below the range. -/
  before : offset + m ≤ a ∨ m = 0
  start_le : a ≤ offset + m
  mono : m ≤ m'
  /-- The range holds everything up to `m'`, and ends there or at the end of the buffer. -/
  stop_le : offset + m' ≤ a + len
  stop : m' = buf.length ∨ a + len ≤ offset + m'
  in_buf : m' ≤ buf.length

theorem Phase.done {d d₁ d₂ : DiffDisk} {offset m m' a len : Nat}
    (h : Phase d d₁ d₂ buf offset m m' a len none) : Upto d d₂ buf offset m' (a + len) := by
  have h2 := h.start_le
  have h3 := h.mono
  have h4 := h.stop_le
  refine ⟨h.wrote.wf, h.wrote.sectorSize.trans h.upto.sectorSize,
    h.wrote.size.trans h.upto.size, fun p hp => ?_, fun p => ?_⟩
  · rw [h.wrote.head p (by omega), h.upto.head p (by omega)]
  · rw [h.wrote.content]
    by_cases hp : a ≤ p ∧ p < a + len
    · rw [if_pos hp, if_pos (show p < a + kept len none from hp.2)]
    · rw [if_neg hp, h.upto.content]
      by_cases hin : offset ≤ p ∧ p < offset + m
      · rw [if_pos hin, if_pos (by omega)]
      · rw [if_neg hin, if_neg (by omega)]

theorem Phase.failed {d d₁ d₂ : DiffDisk} {offset m m' a len k : Nat}
    (h : Phase d d₁ d₂ buf offset m m' a len (some k)) (p : Nat) :
    d₂.content p = d.shown buf offset (some (a, len, k)) p := by
  have h2 := h.start_le
  have h3 := h.mono
  have h4 := h.stop_le
  have h5 := h.stop
  have h6 := h.in_buf
  rw [h.wrote.content, shown]
  have hk : kept len (some k) = min k len := rfl
  by_cases hp : a ≤ p ∧ p < a + len
  · rw [if_pos hp, hk]
    by_cases hkp : p < a + min k len
    · have hlost : ¬ (a + min k len ≤ p ∧ p < a + len) := by omega
      rw [if_pos hkp, if_neg hlost]
      by_cases hin : offset ≤ p ∧ p < offset + m'
      · rw [if_pos hin, if_pos (by omega)]
      · rw [if_neg hin, if_neg (by omega)]
    · rw [if_neg hkp, if_pos (by omega), h.upto.head p hp.1]
  · have hlost : ¬ (a + min k len ≤ p ∧ p < a + len) := by omega
    rw [if_neg hp, if_neg hlost, h.upto.content]
    by_cases hin : offset ≤ p ∧ p < offset + m
    · rw [if_pos hin, if_pos (by omega)]
    · rw [if_neg hin, if_neg (by omega)]

end DiffDisk

end WeftBlock
