import WeftBlock.Replica.DiffDisk

/-!
# Unmapping

`diffDisk.UnmapAt`: trim the request to whole sectors, then punch the same range
into the head and into the files below it, one for each entry of the list it was
handed. The list holds paths, but the files are taken by position: entry `k` of
the list stands for the `k`-th file from the top, whatever its path says.

Lengths are `uint32` and offsets `int64` in the source, and the trimming relies on
a wrapped-around length being noticed afterwards, so both keep their width here.
-/

namespace WeftBlock.DiffDisk

/--
The request cut down to whole sectors: nothing is left, the length wrapped
around, or this length and offset remain.
-/
def trim (d : DiffDisk) (length : UInt32) (offset : Int64) :
    Except DiskErr (Option (UInt32 × Int64)) :=
  let startSectorOffset := offset.toInt.tmod d.sectorSize
  let endSectorOffset := (Int64.ofInt (length.toNat + offset.toInt)).toInt.tmod d.sectorSize
  let offset' := if startSectorOffset ≠ 0
    then Int64.ofInt (offset.toInt + (d.sectorSize - startSectorOffset)) else offset
  let length₁ := if startSectorOffset ≠ 0
    then length - UInt32.ofInt (d.sectorSize - startSectorOffset) else length
  let length' := if endSectorOffset ≠ 0 then length₁ - UInt32.ofInt endSectorOffset else length₁
  if length < UInt32.ofNat d.sectorSize then
    .ok none
  else if length' = 0 then
    .ok none
  else if length < length' then
    .error (.unmapLength length' length)
  else
    .ok (some (length', offset'))

/-- The part of the trimmed length that lies inside the file. -/
def curLength (f : File) (length : UInt32) (offset : Int64) : UInt32 :=
  if (f.size : Int) < (Int64.ofInt (offset.toInt + length.toNat)).toInt
    then UInt32.ofInt (f.size - offset.toInt) else length

/-- What the loop of `UnmapAt` keeps to report the space it freed. -/
structure Tally where
  /-- `unmappedSizeErr` is set. -/
  failed : Bool
  before : Int
  unmappedSize : Int

namespace Tally

/-- The actual size is taken before a file is punched; a negative answer spoils the count. -/
def start (t : Tally) (actualSize : Int) : Tally :=
  if t.failed then t else { t with before := actualSize, failed := decide (actualSize < 0) }

/-- The actual size is taken again after, and the difference counted. -/
def stop (t : Tally) (actualSize : Int) : Tally :=
  if t.failed then t
  else if actualSize < 0 then { t with failed := true }
  else { t with unmappedSize := t.unmappedSize + (t.before - actualSize) }

def result (t : Tally) : Int := if t.failed then 0 else t.unmappedSize

end Tally

/--
The loop of `UnmapAt` from file `idx` down. `actualSize` answers
`GetFileActualSize` for a path, given what the files hold at that moment.
-/
def unmapLoop (actualSize : List File → String → Int) (unmappableDisks : List String)
    (length : UInt32) (offset : Int64) : Nat → DiffDisk → Tally → DiffDisk × Except DiskErr Int
  | 0, d, t => (d, .ok t.result)
  | idx + 1, d, t =>
    let k := d.files.length - 1 - (idx + 1)
    if unmappableDisks.length ≤ k then
      (d, .ok t.result)
    else
      let path := unmappableDisks.getD k ""
      let f := d.file (idx + 1)
      let t₁ := t.start (actualSize d.files path)
      if (f.size : Int) < offset.toInt then
        unmapLoop actualSize unmappableDisks length offset idx d t₁
      else if curLength f length offset = 0 then
        unmapLoop actualSize unmappableDisks length offset idx d t₁
      else
        match f.unmapAt (curLength f length offset).toNat offset.toInt with
        | none => (d, .error (.unmapFailed offset (curLength f length offset) path))
        | some f' =>
          let d' := { d with files := d.files.set (idx + 1) f' }
          unmapLoop actualSize unmappableDisks length offset idx d'
            (t₁.stop (actualSize d'.files path))

/-- `UnmapAt`. -/
def unmapAt (actualSize : List File → String → Int) (d : DiffDisk)
    (unmappableDisks : List String) (length : UInt32) (offset : Int64) :
    DiffDisk × Except DiskErr Int :=
  match d.trim length offset with
  | .error e => (d, .error e)
  | .ok none => (d, .ok 0)
  | .ok (some (length', offset')) =>
    unmapLoop actualSize unmappableDisks length' offset' (d.files.length - 1) d ⟨false, 0, 0⟩

/-! ## What is punched -/

/-- The range `UnmapAt` punches, when there is one and the file system accepts it. -/
def hole (d : DiffDisk) (length : UInt32) (offset : Int64) : Option (UInt32 × Int64) :=
  match d.trim length offset with
  | .ok (some (l, o)) => if 0 ≤ o.toInt ∧ o.toInt + l.toNat < 2 ^ 63 then some (l, o) else none
  | _ => none

/-- One file after the range was punched into it. -/
def punched (f : File) (length : UInt32) (offset : Int64) : File :=
  if (f.size : Int) < offset.toInt then f
  else f.punch (curLength f length offset).toNat offset.toInt.toNat

/-- The file at index `i` after the range was punched into the top `count` files. -/
def unmappedFile (d : DiffDisk) (count : Nat) (length : UInt32) (offset : Int64) (i : Nat) : File :=
  match d.hole length offset with
  | none => d.file i
  | some (l, o) =>
    if 0 < i ∧ i < d.files.length ∧ d.files.length - 1 - i < count then punched (d.file i) l o
    else d.file i

/-- `d'` has the files `g` and is otherwise `d`. -/
structure WithFiles (d d' : DiffDisk) (g : Nat → File) : Prop where
  location : d'.location = d.location
  sectorSize : d'.sectorSize = d.sectorSize
  size : d'.size = d.size
  length : d'.files.length = d.files.length
  file : ∀ i, d'.file i = g i

theorem file_set (d : DiffDisk) {idx : Nat} (h : idx < d.files.length) (f : File) (i : Nat) :
    file { d with files := d.files.set idx f } i = if i = idx then f else d.file i := by
  rw [file, List.getD_eq_getElem?_getD, List.getElem?_set]
  by_cases hi : idx = i
  · subst hi
    rw [if_pos rfl, if_pos h, if_pos rfl]; rfl
  · rw [if_neg hi, if_neg (Ne.symm hi), file, List.getD_eq_getElem?_getD]

theorem toNat_ofInt {i : Int} (h0 : 0 ≤ i) (hlt : i < 2 ^ 32) :
    ((UInt32.ofInt i).toNat : Int) = i := by
  rw [UInt32.ofInt, UInt32.toNat_ofNat', Int.emod_eq_of_lt h0 (by omega), Nat.mod_eq_of_lt (by omega)]
  omega

variable {length : UInt32} {offset : Int64} {f : File}

section

variable (h0 : 0 ≤ offset.toInt) (hfit : offset.toInt + length.toNat < 2 ^ 63)
  (hin : offset.toInt ≤ f.size)
include h0 hfit hin

/-- The clipped length ends with the trimmed range or with the file, whichever comes first. -/
theorem curLength_toNat :
    ((curLength f length offset).toNat : Int) = min (length.toNat : Int) (f.size - offset.toInt) := by
  have hl := UInt32.toNat_lt length
  unfold curLength
  rw [Int64.toInt_ofInt_of_le (by omega) hfit]
  split
  · rw [toNat_ofInt (by omega) (by omega)]
    omega
  · omega

theorem curLength_le : (curLength f length offset).toNat ≤ length.toNat := by
  have hcur := curLength_toNat h0 hfit hin
  omega

/-- Inside the accepted range every file of the loop is punched. -/
theorem unmapAt_of_fits (hne : curLength f length offset ≠ 0) :
    f.unmapAt (curLength f length offset).toNat offset.toInt
      = some (f.punch (curLength f length offset).toNat offset.toInt.toNat) := by
  have hle := curLength_le h0 hfit hin
  have hpos : (curLength f length offset).toNat ≠ 0 := fun h => hne (UInt32.toNat_inj.mp h)
  rw [File.unmapAt, if_neg]
  intro hor
  rcases hor with h | h | h
  · omega
  · exact hpos h
  · omega

end

/-- Outside it the first file the loop tries is refused. -/
theorem unmapAt_of_not_fits (hno : ¬ (0 ≤ offset.toInt ∧ offset.toInt + length.toNat < 2 ^ 63)) :
    f.unmapAt (curLength f length offset).toNat offset.toInt = none := by
  rw [File.unmapAt]
  by_cases h0 : offset.toInt < 0
  · rw [if_pos (Or.inl h0)]
  · -- the end wraps around to a negative number, so nothing is clipped
    have hlt := Int64.toInt_lt offset
    have hl := UInt32.toNat_lt length
    have hge : 2 ^ 63 ≤ offset.toInt + length.toNat := by omega
    have hsize : (Int64.size : Int) = 2 ^ 64 := rfl
    have hend : (Int64.ofInt (offset.toInt + length.toNat)).toInt < 0 := by
      rw [Int64.toInt_ofInt, Int.bmod_def, hsize, Int.emod_eq_of_lt (by omega) (by omega),
        if_neg (by omega)]
      omega
    have hcur : curLength f length offset = length := by
      rw [curLength, if_neg (by omega)]
    rw [hcur, if_pos (Or.inr (Or.inr hge))]

theorem punched_of_zero (h : curLength f length offset = 0) : punched f length offset = f := by
  unfold punched
  split
  · rfl
  · rw [h]
    exact File.punch_eq_self_iff.mpr (fun p h1 h2 => absurd h2 (by
      have : (0 : UInt32).toNat = 0 := rfl
      omega))

section

variable (actualSize : List File → String → Int)

/-- A refused range leaves every file alone. -/
theorem unmapLoop_of_not_fits (disks : List String)
    (hno : ¬ (0 ≤ offset.toInt ∧ offset.toInt + length.toNat < 2 ^ 63)) :
    ∀ (idx : Nat) (d : DiffDisk) (t : Tally),
      (unmapLoop actualSize disks length offset idx d t).1 = d
  | 0, _, _ => rfl
  | idx + 1, d, t => by
    rw [unmapLoop]
    dsimp only
    split
    · rfl
    · split
      · exact unmapLoop_of_not_fits disks hno idx d _
      · split
        · exact unmapLoop_of_not_fits disks hno idx d _
        · rw [unmapAt_of_not_fits hno]

/--
**The loop of `UnmapAt`.** An accepted range is punched into file `idx` and the
files below it, as far as the list of disks reaches. The induction is on the index.
-/
theorem unmapLoop_of_fits (disks : List String)
    (h0 : 0 ≤ offset.toInt)
    (hfit : offset.toInt + length.toNat < 2 ^ 63) :
    ∀ (idx : Nat) (d : DiffDisk) (t : Tally), idx < d.files.length →
      WithFiles d (unmapLoop actualSize disks length offset idx d t).1 (fun i =>
        if 0 < i ∧ i ≤ idx ∧ d.files.length - 1 - i < disks.length
          then punched (d.file i) length offset else d.file i) := by
  intro idx
  induction idx with
  | zero =>
    intro d t _
    exact ⟨rfl, rfl, rfl, rfl, fun i => (if_neg (by omega)).symm⟩
  | succ idx ih =>
    intro d t hidx
    rw [unmapLoop]
    dsimp only
    split
    · rename_i hk
      exact ⟨rfl, rfl, rfl, rfl, fun i => (if_neg (by omega)).symm⟩
    rename_i hk
    -- what is left to do when file `idx + 1` comes out as `punched` says
    have hstep : ∀ (d₁ : DiffDisk) (t₁ : Tally),
        WithFiles d d₁ (fun i => if i = idx + 1 then punched (d.file i) length offset
          else d.file i) →
        WithFiles d (unmapLoop actualSize disks length offset idx d₁ t₁).1 (fun i =>
          if 0 < i ∧ i ≤ idx + 1 ∧ d.files.length - 1 - i < disks.length
            then punched (d.file i) length offset else d.file i) := by
      intro d₁ t₁ hd₁
      have hr := ih d₁ t₁ (by rw [hd₁.length]; omega)
      refine ⟨hr.location.trans hd₁.location, hr.sectorSize.trans hd₁.sectorSize,
        hr.size.trans hd₁.size, hr.length.trans hd₁.length, fun i => ?_⟩
      rw [hr.file, hd₁.file, hd₁.length]
      by_cases hi : i = idx + 1
      · subst hi
        rw [if_neg (by omega), if_pos rfl, if_pos (by omega)]
      · rw [if_neg hi]
        by_cases hin : 0 < i ∧ i ≤ idx ∧ d.files.length - 1 - i < disks.length
        · rw [if_pos hin, if_pos (by omega)]
        · rw [if_neg hin, if_neg (by omega)]
    have hsame : punched (d.file (idx + 1)) length offset = d.file (idx + 1) →
        WithFiles d d (fun i => if i = idx + 1 then punched (d.file i) length offset
          else d.file i) := by
      intro he
      refine ⟨rfl, rfl, rfl, rfl, fun i => ?_⟩
      by_cases hi : i = idx + 1
      · rw [if_pos hi, hi, he]
      · rw [if_neg hi]
    split
    · rename_i hlt
      exact hstep d _ (hsame (if_pos hlt))
    · rename_i hlt
      split
      · rename_i hz
        exact hstep d _ (hsame (punched_of_zero hz))
      · rename_i hne
        rw [unmapAt_of_fits h0 hfit (by omega) hne]
        refine hstep _ _ ⟨rfl, rfl, rfl, List.length_set, fun i => ?_⟩
        rw [file_set d hidx]
        by_cases hi : i = idx + 1
        · rw [if_pos hi, if_pos hi, hi, punched, if_neg hlt]
        · rw [if_neg hi, if_neg hi]

/-- **What `UnmapAt` does to the files**, whatever it returns. -/
theorem unmapAt_spec (d : DiffDisk)
    (disks : List String) (length : UInt32) (offset : Int64) :
    WithFiles d (d.unmapAt actualSize disks length offset).1
      (d.unmappedFile disks.length length offset) := by
  have hrefl : WithFiles d d d.file := ⟨rfl, rfl, rfl, rfl, fun _ => rfl⟩
  unfold unmapAt unmappedFile hole
  cases ht : d.trim length offset with
  | error e => exact hrefl
  | ok o =>
    cases o with
    | none => exact hrefl
    | some lo =>
      obtain ⟨l, o⟩ := lo
      dsimp only
      by_cases hfit : 0 ≤ o.toInt ∧ o.toInt + l.toNat < 2 ^ 63
      · rw [if_pos hfit]
        dsimp only
        rcases Nat.eq_zero_or_pos d.files.length with hn | hn
        · rw [show d.files.length - 1 = 0 by omega]
          refine ⟨rfl, rfl, rfl, rfl, fun i => (if_neg (by omega)).symm⟩
        · have hw := unmapLoop_of_fits actualSize disks hfit.1 hfit.2 (d.files.length - 1) d
            ⟨false, 0, 0⟩ (by omega)
          refine ⟨hw.location, hw.sectorSize, hw.size, hw.length, fun i => ?_⟩
          rw [hw.file]
          by_cases hi : 0 < i ∧ i < d.files.length ∧ d.files.length - 1 - i < disks.length
          · rw [if_pos hi, if_pos (by omega)]
          · rw [if_neg hi, if_neg (by omega)]
      · rw [if_neg hfit, unmapLoop_of_not_fits actualSize disks hfit]
        exact hrefl

end

end WeftBlock.DiffDisk
