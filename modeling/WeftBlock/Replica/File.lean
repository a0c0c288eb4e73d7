import WeftBlock.Lib.Slice

/-!
# Sparse files

A disk of the chain is a sparse file: a size, and at each position below it
either a byte that was written or a hole. Holes read as zero, and the file system
can tell them apart from written zeros — `Fiemap` lists exactly the written part.
That distinction is what the whole layering scheme rests on, so it is kept here
position by position rather than rounded to file-system blocks.
-/

namespace WeftBlock

open Slice

/-- A sparse file; nothing is written at or past its size. -/
structure File where
  /-- The apparent size, what `Size()` returns. -/
  size : Nat
  /-- The written byte at a position, `none` for a hole. -/
  cell : Nat → Option UInt8
  /-- Data lies inside the file. -/
  cell_eq_none : ∀ p, size ≤ p → cell p = none

namespace File

/-- A file of the given size that has never been written: `Truncate` on a fresh file. -/
def empty (size : Nat) : File := ⟨size, fun _ => none, fun _ _ => rfl⟩

/-- A file written with one byte throughout. -/
def filled (size : Nat) (b : UInt8) : File where
  size := size
  cell := fun p => if p < size then some b else none
  cell_eq_none := fun p hp => if_neg (Nat.not_lt.mpr hp)

/-- The byte a read returns at `p`; holes and positions past the end are zero. -/
def byteAt (f : File) (p : Nat) : UInt8 := (f.cell p).getD 0

/-- `Fiemap` over `[start, start + len)` reports at least one extent. -/
def hasExtent (f : File) (start len : Nat) : Bool :=
  (List.range' start len).any (fun p => (f.cell p).isSome)

/-- `ReadAt` inside the file. -/
def readAt (f : File) (start len : Nat) : List UInt8 := span f.byteAt start len

/-- The cells after `data` reached the file at `offset`. -/
def putCell (f : File) (data : List UInt8) (offset p : Nat) : Option UInt8 :=
  if offset ≤ p ∧ p < offset + data.length then data[p - offset]? else f.cell p

/-- `WriteAt` of `data`; a write past the end grows the file. -/
def writeAt (f : File) (data : List UInt8) (offset : Nat) : File where
  size := if data.length = 0 then f.size else max f.size (offset + data.length)
  cell := f.putCell data offset
  cell_eq_none := by
    intro p hp
    unfold putCell
    split at hp
    · rw [if_neg (by omega)]
      exact f.cell_eq_none p hp
    · rw [if_neg (by omega)]
      exact f.cell_eq_none p (by omega)

/-- Punch a hole into `[offset, offset + len)`, keeping the size. -/
def punch (f : File) (len offset : Nat) : File where
  size := f.size
  cell := fun p => if offset ≤ p ∧ p < offset + len then none else f.cell p
  cell_eq_none := by
    intro p hp
    split
    · rfl
    · exact f.cell_eq_none p hp

/--
`UnmapAt` of an open disk file: `fallocate` with `PUNCH_HOLE | KEEP_SIZE`, which
refuses a negative offset, an empty range and one that ends past the largest offset.
-/
def unmapAt (f : File) (len : Nat) (offset : Int) : Option File :=
  if offset < 0 ∨ len = 0 ∨ 2 ^ 63 ≤ offset + len then none else some (f.punch len offset.toNat)

/-- A file is its size and its cells. -/
theorem ext_cell {f g : File} (hs : f.size = g.size) (hc : ∀ p, f.cell p = g.cell p) : f = g := by
  cases f with
  | mk s c h =>
    cases g with
    | mk s' c' h' =>
      have hc' : c = c' := funext hc
      subst hc'
      have hs' : s = s' := hs
      subst hs'
      rfl

/-- Punching a hole changes the file exactly when there is data in the range. -/
theorem punch_eq_self_iff {f : File} {len offset : Nat} :
    f.punch len offset = f ↔ ∀ p, offset ≤ p → p < offset + len → f.cell p = none := by
  constructor
  · intro h p h1 h2
    have hc : (f.punch len offset).cell p = none := if_pos ⟨h1, h2⟩
    rw [h] at hc
    exact hc
  · intro h
    refine ext_cell rfl (fun p => ?_)
    show (if offset ≤ p ∧ p < offset + len then none else f.cell p) = f.cell p
    split
    · rename_i hp; exact (h p hp.1 hp.2).symm
    · rfl

theorem byteAt_of_size_le {f : File} {p : Nat} (h : f.size ≤ p) : f.byteAt p = 0 := by
  rw [byteAt, f.cell_eq_none p h]; rfl

theorem hasExtent_iff {f : File} {start len : Nat} :
    f.hasExtent start len = true ↔ ∃ p, start ≤ p ∧ p < start + len ∧ (f.cell p).isSome := by
  simp only [hasExtent, List.any_eq_true, List.mem_range'_1]
  constructor
  · intro hex
    obtain ⟨p, ⟨h1, h2⟩, h3⟩ := hex
    exact ⟨p, h1, h2, h3⟩
  · intro hex
    obtain ⟨p, h1, h2, h3⟩ := hex
    exact ⟨p, ⟨h1, h2⟩, h3⟩

/-- A range without extents reads as zeros. -/
theorem byteAt_of_not_hasExtent {f : File} {start len p : Nat}
    (h : f.hasExtent start len = false) (h1 : start ≤ p) (h2 : p < start + len) :
    f.byteAt p = 0 := by
  have hn : f.cell p = none := by
    cases hc : f.cell p with
    | none => rfl
    | some b =>
      have : f.hasExtent start len = true := hasExtent_iff.mpr ⟨p, h1, h2, by rw [hc]; rfl⟩
      rw [h] at this; exact Bool.noConfusion this
  rw [byteAt, hn]; rfl

theorem byteAt_filled (size : Nat) (b : UInt8) (p : Nat) :
    (filled size b).byteAt p = if p < size then b else 0 := by
  show (if p < size then some b else none).getD 0 = _
  split <;> rfl

theorem byteAt_writeAt (f : File) (data : List UInt8) (offset p : Nat) :
    (f.writeAt data offset).byteAt p
      = if offset ≤ p ∧ p < offset + data.length then (data[p - offset]?).getD 0 else f.byteAt p := by
  show (f.putCell data offset p).getD 0 = _
  unfold putCell byteAt
  split <;> rfl

end File

end WeftBlock
