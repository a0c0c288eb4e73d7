import WeftBlock.Replica.Unmap

/-!
# An unmap request cut down to whole sectors

`UnmapAt` subtracts the unaligned ends of a request from its 32-bit length, one after the other, and
notices afterwards whether that wrapped around. It never does: a request of at least one sector is
longer than both ends together, so what is left is the union of the sectors it contains, and each file
gets the part of that union which it has.
-/

namespace WeftBlock.DiffDisk

/-- The byte at `p` is in a sector that lies inside the request. -/
def InWhole (length : UInt32) (offset : Int64) (p : Nat) : Prop :=
  offset.toInt ≤ (p / 4096 * 4096 : Nat) ∧
    ((p / 4096 + 1) * 4096 : Nat) ≤ offset.toInt + length.toNat

/-- What is subtracted from the length for an unaligned start. -/
def startTrim (d : DiffDisk) (offset : Int64) : UInt32 :=
  if offset.toInt.tmod d.sectorSize ≠ 0
    then UInt32.ofInt (d.sectorSize - offset.toInt.tmod d.sectorSize) else 0

/-- What is subtracted after that for an unaligned end. -/
def endTrim (d : DiffDisk) (length : UInt32) (offset : Int64) : UInt32 :=
  if (Int64.ofInt (length.toNat + offset.toInt)).toInt.tmod d.sectorSize ≠ 0
    then UInt32.ofInt ((Int64.ofInt (length.toNat + offset.toInt)).toInt.tmod d.sectorSize) else 0

/-- Where the trimmed request starts. -/
def trimmedOffset (d : DiffDisk) (offset : Int64) : Int64 :=
  if offset.toInt.tmod d.sectorSize ≠ 0
    then Int64.ofInt (offset.toInt + (d.sectorSize - offset.toInt.tmod d.sectorSize)) else offset

/-- The two subtractions of `UnmapAt`. -/
theorem trim_eq (d : DiffDisk) (length : UInt32) (offset : Int64) :
    d.trim length offset =
      if length < UInt32.ofNat d.sectorSize then .ok none
      else if length - d.startTrim offset - d.endTrim length offset = 0 then .ok none
      else if length < length - d.startTrim offset - d.endTrim length offset then
        .error (.unmapLength (length - d.startTrim offset - d.endTrim length offset) length)
      else .ok (some (length - d.startTrim offset - d.endTrim length offset,
        d.trimmedOffset offset)) := by
  have hsub : ∀ (c : Prop) [Decidable c] (a b : UInt32),
      (if c then a - b else a) = a - (if c then b else 0) := by
    intro c _ a b
    split
    · rfl
    · rw [UInt32.sub_zero]
  unfold trim
  dsimp only
  rw [hsub, hsub]
  rfl

section Request

variable {d : DiffDisk} {length : UInt32} {offset : Int64}

section

variable (hs : d.sectorSize = 4096) (h0 : 0 ≤ offset.toInt)
include hs h0

theorem startTrim_toNat :
    ((d.startTrim offset).toNat : Int) = -offset.toInt % 4096 := by
  unfold startTrim
  rw [hs, Int.tmod_eq_emod_of_nonneg h0]
  split
  · rw [toNat_ofInt (by omega) (by omega)]
    omega
  · have hz : (0 : UInt32).toNat = 0 := rfl
    omega

theorem endTrim_toNat (hfit : offset.toInt + length.toNat < 2 ^ 63) :
    ((d.endTrim length offset).toNat : Int) = (offset.toInt + length.toNat) % 4096 := by
  unfold endTrim
  rw [Int64.toInt_ofInt_of_le (by omega) (by omega), hs, Int.tmod_eq_emod_of_nonneg (by omega)]
  split
  · rw [toNat_ofInt (by omega) (by omega)]
    omega
  · have hz : (0 : UInt32).toNat = 0 := rfl
    omega

theorem trimmedOffset_toInt (hle : offset.toInt + 4096 < 2 ^ 63) :
    (d.trimmedOffset offset).toInt = offset.toInt + -offset.toInt % 4096 := by
  unfold trimmedOffset
  rw [hs, Int.tmod_eq_emod_of_nonneg h0]
  split
  · rw [Int64.toInt_ofInt_of_le (by omega) (by omega)]
    omega
  · omega

/-- **Neither subtraction wraps around.** -/
theorem trim_no_wrap (hfit : offset.toInt + length.toNat < 2 ^ 63) (hlen : 4096 ≤ length.toNat) :
    d.startTrim offset ≤ length ∧ d.endTrim length offset ≤ length - d.startTrim offset := by
  have h1 := startTrim_toNat hs h0
  have h2 := endTrim_toNat hs h0 hfit
  have hle : d.startTrim offset ≤ length := UInt32.le_iff_toNat_le.mpr (by omega)
  refine ⟨hle, UInt32.le_iff_toNat_le.mpr ?_⟩
  rw [UInt32.toNat_sub_of_le _ _ hle]
  omega

/-- **What trimming leaves** is the whole sectors of the request. -/
theorem trim_whole (hfit : offset.toInt + length.toNat < 2 ^ 63) :
    (d.trim length offset = .ok none ∧ ∀ p, ¬ InWhole length offset p) ∨
      ∃ l o, d.trim length offset = .ok (some (l, o)) ∧ 0 ≤ o.toInt ∧ o.toInt + l.toNat < 2 ^ 63 ∧
        0 < l.toNat ∧ ∀ p : Nat, InWhole length offset p ↔ o.toInt ≤ p ∧ (p : Int) < o.toInt + l.toNat := by
  rw [trim_eq]
  have hsize : (UInt32.ofNat d.sectorSize).toNat = 4096 := by rw [hs]; rfl
  by_cases hshort : length < UInt32.ofNat d.sectorSize
  · rw [UInt32.lt_iff_toNat_lt, hsize] at hshort
    rw [if_pos (UInt32.lt_iff_toNat_lt.mpr (by omega))]
    exact Or.inl ⟨rfl, fun p hp => by have := hp.1; have := hp.2; omega⟩
  rw [if_neg hshort]
  rw [UInt32.lt_iff_toNat_lt, hsize, Nat.not_lt] at hshort
  have h1 := startTrim_toNat hs h0
  have h2 := endTrim_toNat hs h0 hfit
  have ho := trimmedOffset_toInt hs h0 (by omega)
  obtain ⟨hle₁, hle₂⟩ := trim_no_wrap hs h0 hfit hshort
  have hl := UInt32.toNat_sub_of_le _ _ hle₂
  rw [UInt32.toNat_sub_of_le _ _ hle₁] at hl
  rw [UInt32.le_iff_toNat_le, UInt32.toNat_sub_of_le _ _ hle₁] at hle₂
  rw [UInt32.le_iff_toNat_le] at hle₁
  generalize length - d.startTrim offset - d.endTrim length offset = l at hl ⊢
  have hin : ∀ p : Nat, InWhole length offset p ↔
      (d.trimmedOffset offset).toInt ≤ p ∧ (p : Int) < (d.trimmedOffset offset).toInt + l.toNat := by
    intro p
    rw [InWhole, ho]
    omega
  by_cases hzero : l = 0
  · rw [if_pos hzero]
    refine Or.inl ⟨rfl, fun p hp => ?_⟩
    have := (hin p).mp hp
    rw [hzero, UInt32.toNat_zero] at this
    omega
  · rw [if_neg hzero, if_neg (fun hlt => by rw [UInt32.lt_iff_toNat_lt] at hlt; omega)]
    have hpos : l.toNat ≠ 0 := fun h => hzero (UInt32.toNat_inj.mp h)
    exact Or.inr ⟨l, _, rfl, by omega, by omega, by omega, hin⟩

end

end Request

/-! ## The files -/

/-- `f'` is `f` with a hole at exactly the positions of `range` inside the file. -/
def PunchedAt (f f' : File) (range : Nat → Prop) : Prop :=
  ∃ len offset, f' = f.punch len offset ∧
    ∀ p, (offset ≤ p ∧ p < offset + len) ↔ (range p ∧ p < f.size)

theorem punched_whole {f : File} {l length : UInt32} {o offset : Int64}
    (h0 : 0 ≤ o.toInt) (hfit : o.toInt + l.toNat < 2 ^ 63)
    (hin : ∀ p : Nat, InWhole length offset p ↔ o.toInt ≤ p ∧ (p : Int) < o.toInt + l.toNat) :
    PunchedAt f (punched f l o) (InWhole length offset) := by
  unfold punched
  split
  · -- the range starts behind the file
    refine ⟨0, 0, (File.punch_eq_self_iff.mpr (fun p h1 h2 => by omega)).symm, fun p => ?_⟩
    rw [hin]
    omega
  · have hcur := @curLength_toNat l o f h0 hfit (by omega)
    refine ⟨_, _, rfl, fun p => ?_⟩
    rw [hin]
    omega

/-- No file refuses an accepted range. -/
theorem unmapLoop_ok (actualSize : List File → String → Int) (disks : List String)
    {length : UInt32} {offset : Int64} (h0 : 0 ≤ offset.toInt)
    (hfit : offset.toInt + length.toNat < 2 ^ 63) :
    ∀ (idx : Nat) (d : DiffDisk) (t : Tally),
      ∃ n, (unmapLoop actualSize disks length offset idx d t).2 = .ok n := by
  intro idx
  induction idx with
  | zero => exact fun d t => ⟨_, rfl⟩
  | succ idx ih =>
    intro d t
    rw [unmapLoop]
    dsimp only
    split
    · exact ⟨_, rfl⟩
    · split
      · exact ih _ _
      · rename_i hlt
        split
        · exact ih _ _
        · rename_i hne
          rw [unmapAt_of_fits h0 hfit (by omega) hne]
          exact ih _ _

/-- What `UnmapAt` is expected to do with any request. -/
structure Unmaps (d d' : DiffDisk) (disks : List String) (length : UInt32) (offset : Int64) : Prop where
  /-- Without a whole sector nothing is touched. -/
  untouched : (∀ p, ¬ InWhole length offset p) → d' = d
  shape : d'.location = d.location ∧ d'.size = d.size ∧ d'.files.length = d.files.length
  /-- The files from the head down that the list is long enough for. -/
  listed : ∀ i, 0 < i → i < d.files.length → d.files.length - 1 - i < disks.length →
    PunchedAt (d.file i) (d'.file i) (InWhole length offset)
  other : ∀ i, ¬ (0 < i ∧ i < d.files.length ∧ d.files.length - 1 - i < disks.length) →
    d'.file i = d.file i

/-- **`UnmapAt` punches whole sectors**, without an error and without wrapping around. -/
theorem unmapAt_whole_sectors (actualSize : List File → String → Int) (d : DiffDisk)
    (hs : d.sectorSize = 4096) (disks : List String) (length : UInt32) (offset : Int64)
    (h0 : 0 ≤ offset.toInt) (hfit : offset.toInt + length.toNat < 2 ^ 63) :
    (4096 ≤ length.toNat →
        d.startTrim offset ≤ length ∧ d.endTrim length offset ≤ length - d.startTrim offset) ∧
      (∃ n, (d.unmapAt actualSize disks length offset).2 = .ok n) ∧
      Unmaps d (d.unmapAt actualSize disks length offset).1 disks length offset := by
  refine ⟨trim_no_wrap hs h0 hfit, ?_⟩
  have hspec := unmapAt_spec actualSize d disks length offset
  rcases trim_whole hs h0 hfit with ⟨htrim, hnone⟩ | ⟨l, o, htrim, h0', hfit', hpos, hin⟩
  · have hd : d.unmapAt actualSize disks length offset = (d, .ok 0) := by rw [unmapAt, htrim]
    rw [hd]
    refine ⟨⟨0, rfl⟩, fun _ => rfl, ⟨rfl, rfl, rfl⟩, fun i _ _ _ => ?_, fun _ _ => rfl⟩
    exact ⟨0, 0, (File.punch_eq_self_iff.mpr (fun p h1 h2 => by omega)).symm,
      fun p => iff_of_false (by omega) (fun h => hnone p h.1)⟩
  · have hhole : d.hole length offset = some (l, o) := by
      rw [hole, htrim]
      exact if_pos ⟨h0', hfit'⟩
    refine ⟨?_, ?_, ⟨hspec.location, hspec.size, hspec.length⟩, fun i hi hlt hk => ?_,
      fun i hno => ?_⟩
    · rw [unmapAt, htrim]
      exact unmapLoop_ok actualSize disks h0' hfit' _ _ _
    · exact fun hnone => absurd ((hin o.toInt.toNat).mpr (by omega)) (hnone _)
    · rw [hspec.file, unmappedFile, hhole]
      dsimp only
      rw [if_pos ⟨hi, hlt, hk⟩]
      exact punched_whole h0' hfit' hin
    · rw [hspec.file, unmappedFile, hhole]
      exact if_neg hno

/-- Two files of two sectors, open below the nil entry. -/
def twoFiles : DiffDisk := ⟨[0, 0], [File.empty 0, File.filled 8192 1, File.filled 8192 2], 4096, 8192⟩

/-- A request with an unaligned start. -/
theorem twoFiles_unmaps :
    (∃ n, (twoFiles.unmapAt (fun _ _ => 0) ["head"] 8092 100).2 = .ok n) ∧
      Unmaps twoFiles (twoFiles.unmapAt (fun _ _ => 0) ["head"] 8092 100).1 ["head"] 8092 100 :=
  (unmapAt_whole_sectors (fun _ _ => 0) twoFiles rfl ["head"] 8092 100 (by decide) (by decide)).2

end WeftBlock.DiffDisk
