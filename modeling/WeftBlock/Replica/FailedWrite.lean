import WeftBlock.Replica.Write

/-!
# A write that stops half way

A `WriteAt` is a sequence of at most three head writes (`headWrites`), and the
first one with a fault ends it (`stopped`). `writeAt_result` says what the volume
shows afterwards, stopped or not. The bytes the stopped head write was handed but
did not persist are shown from the head: that is the old data only where the head
happened to hold it.

The count that comes with the error is in bytes of the caller's buffer, although the
sectors at its ends are written whole (`writeAt_count_exact`).
-/

namespace WeftBlock.DiffDisk

open Slice

/-- The head writes of a `WriteAt` of `len` bytes: where each starts and how long it is. -/
def headWrites (d : DiffDisk) (len offset : Nat) : List (Nat × Nat) :=
  let startCut := d.startCut offset
  let endOffset := d.endOffset len offset
  let sector := offset - d.startOffset offset
  if len = 0 then
    []
  else if d.startOffset offset = 0 ∧ endOffset = 0 then
    [(offset, len)]
  else if len ≤ startCut then
    [(sector, d.sectorSize)]
  else
    (sector, d.sectorSize) :: (offset + startCut, len - endOffset - startCut)
      :: (if 0 < endOffset then [(offset + len - endOffset, d.sectorSize)] else [])

/-- The first of the head writes with a fault: its start, its length, how much it persisted. -/
def firstFault (faults : Nat → Option Nat) : Nat → List (Nat × Nat) → Option (Nat × Nat × Nat)
  | _, [] => none
  | i, w :: rest =>
    match faults i with
    | some k => some (w.1, w.2, k)
    | none => firstFault faults (i + 1) rest

/-- Where a `WriteAt` of `len` bytes stops, if it does. -/
def stopped (d : DiffDisk) (len offset : Nat) (faults : Nat → Option Nat) :
    Option (Nat × Nat × Nat) :=
  firstFault faults 0 (d.headWrites len offset)

/-- What a `WriteAt` that was stopped at `st`, or not at all, returns and leaves behind. -/
structure Result (d : DiffDisk) (buf : List UInt8) (offset : Nat)
    (st : Option (Nat × Nat × Nat)) (w : WriteOut) : Prop where
  err : w.err = st.map (fun _ => .writeFailed)
  n : st = none → w.n = buf.length
  wf : w.disk.Wf
  sectorSize : w.disk.sectorSize = d.sectorSize
  size : w.disk.size = d.size
  content : ∀ p, w.disk.content p = d.shown buf offset st p

variable {buf : List UInt8}

/-- A phase that fails ends the write. -/
theorem Phase.result_failed {d d₁ d₂ : DiffDisk} {offset m m' a len k : Nat}
    (h : Phase d d₁ d₂ buf offset m m' a len (some k)) (n : Int) :
    Result d buf offset (some (a, len, k)) ⟨d₂, n, some .writeFailed⟩ :=
  ⟨rfl, fun hn => absurd hn (by simp), h.wrote.wf, h.wrote.sectorSize.trans h.upto.sectorSize,
    h.wrote.size.trans h.upto.size, h.failed⟩

theorem Upto.result {d d' : DiffDisk} {offset a : Nat}
    (h : Upto d d' buf offset buf.length a) : Result d buf offset none ⟨d', buf.length, none⟩ :=
  ⟨rfl, fun _ => rfl, h.wf, h.sectorSize, h.size, h.content⟩

theorem firstFault_one (faults : Nat → Option Nat) (i : Nat) (w : Nat × Nat) :
    firstFault faults i [w] = (faults i).map (fun k => (w.1, w.2, k)) := by
  rw [firstFault]
  cases faults i <;> rfl

/-! ## The phases of `WriteAt` -/

/-- An aligned write, or the aligned middle of one, as a phase. -/
theorem phase_full {d d₁ : DiffDisk} {offset a : Nat} (m len : Nat)
    (hu : Upto d d₁ buf offset m a) (ha : a = offset + m) (hm : m + len ≤ buf.length)
    (hl : len % d.sectorSize = 0) (ho : a % d.sectorSize = 0)
    (hvol : offset + buf.length ≤ d.size) (fault : Option Nat) :
    ∃ d₂, d₁.fullWriteAt ((buf.drop m).take len) a fault
        = ⟨d₂, (kept len fault : Nat), faultErr fault⟩
      ∧ HeadHolds d₁ d₂ a (a + kept len fault) (d.laid buf offset)
      ∧ Phase d d₁ d₂ buf offset m (m + len) a len fault := by
  have hpl : ((buf.drop m).take len).length = len := by
    rw [List.length_take, List.length_drop]; omega
  have hlm : ((buf.drop m).take len).length % d₁.sectorSize = 0 := by
    rw [hpl, hu.sectorSize]; exact hl
  have hom : a % d₁.sectorSize = 0 := by rw [hu.sectorSize]; exact ho
  have hin : a + ((buf.drop m).take len).length ≤ d₁.size := by rw [hpl, hu.size]; omega
  have hr := fullWriteAt_eq hu.wf ((buf.drop m).take len) a fault hlm hom hin
  have hw := @wrote_written _ _ fault hu.wf _ hlm hom hin
  have hk := kept_le len fault
  rw [hpl] at hr hw
  have hdata : ∀ p, a ≤ p → p < a + len →
      ((buf.drop m).take len).getD (p - a) 0 = buf.getD (p - offset) 0 := by
    intro p h1 h2
    rw [List.getD_eq_getElem?_getD, List.getElem?_take_of_lt (by omega), List.getElem?_drop,
      List.getD_eq_getElem?_getD]
    congr 2
    omega
  refine ⟨_, hr, fun p => ?_, hu, hw.congr _ (fun p h1 h2 => ?_), by omega, by omega, by omega,
    by omega, by omega, hm⟩
  · rw [byteAt_written hu.wf, hpl]
    by_cases hp : a ≤ p ∧ p < a + kept len fault
    · rw [if_pos hp, if_pos hp, hdata p hp.1 (by omega), laid, if_pos (by omega)]
    · rw [if_neg hp, if_neg hp]
  · split
    · rw [if_pos (by omega), hdata p h1 h2]
    · rfl

/-- A part of the buffer that goes through a read-modify-write, as a phase. -/
theorem phase_modify {d d₁ : DiffDisk} {buf part : List UInt8} {offset : Nat} (m len : Nat)
    (hu : Upto d d₁ buf offset m (offset + m - d.startOffset (offset + m)))
    (hpart : part = (buf.drop m).take len) (hpos : 0 < len) (hm : m + len ≤ buf.length)
    (hfit : d.startOffset (offset + m) + len ≤ d.sectorSize)
    (hbefore : d.startOffset (offset + m) = 0 ∨ m = 0)
    (hstop : m + len = buf.length ∨ d.startOffset (offset + m) + len = d.sectorSize)
    (hvol : offset + buf.length ≤ d.size) (fault : Option Nat) :
    ∃ d₂, d₁.readModifyWrite part (offset + m) fault
        = ⟨d₂, (min len (kept d.sectorSize fault - d.startOffset (offset + m)) : Nat),
          faultErr fault⟩
      ∧ HeadHolds d₁ d₂ (offset + m - d.startOffset (offset + m))
          (offset + m - d.startOffset (offset + m) + kept d.sectorSize fault) (d.laid buf offset)
      ∧ Phase d d₁ d₂ buf offset m (m + len) (offset + m - d.startOffset (offset + m))
          d.sectorSize fault := by
  have hpl : part.length = len := by
    rw [hpart, List.length_take, List.length_drop]; omega
  have hso : d₁.startOffset (offset + m) = d.startOffset (offset + m) := by
    rw [startOffset, startOffset, hu.sectorSize]
  have hle := startOffset_le d (offset + m)
  obtain ⟨d₂, hr, hh, hw⟩ := readModifyWrite_spec hu.wf part (offset + m) fault
    (by omega) (by rw [hso, hpl, hu.sectorSize]; exact hfit) (by rw [hpl, hu.size]; omega)
  rw [hpl, hso, hu.sectorSize] at hr
  rw [hso, hu.sectorSize] at hh hw
  have hk := kept_le d.sectorSize fault
  -- the rest of the sector is as it was before the whole write
  have hlaid : ∀ p, offset + m - d.startOffset (offset + m) ≤ p →
      d₁.laid part (offset + m) p
        = if offset ≤ p ∧ p < offset + (m + len) then buf.getD (p - offset) 0
          else d.content p := by
    intro p h1
    rw [laid, hu.content, hpl]
    by_cases hin : offset + m ≤ p ∧ p < offset + m + len
    · rw [if_pos hin, if_pos (by omega), hpart, List.getD_eq_getElem?_getD,
        List.getElem?_take_of_lt (by omega), List.getElem?_drop, List.getD_eq_getElem?_getD]
      congr 2
      omega
    · rw [if_neg hin, if_neg (by omega), if_neg (by omega)]
  refine ⟨d₂, hr, hh.congr _ (fun p h1 h2 => ?_), hu, hw.congr _ (fun p h1 h2 => ?_), by omega,
    by omega, by omega, by omega, by omega, hm⟩
  · rw [hlaid p h1, laid]
    by_cases hin : offset ≤ p ∧ p < offset + (m + len)
    · rw [if_pos hin, if_pos (by omega)]
    · rw [if_neg hin, if_neg (by omega)]
  · split
    · exact hlaid p h1
    · rfl

/-- What a write stopped at `(a, len, k)` returns as its count, and what the head holds then. -/
structure Stopped (d : DiffDisk) (buf : List UInt8) (offset a len k : Nat) (w : WriteOut) :
    Prop where
  n : w.n = (min buf.length (a + min k len - offset) : Nat)
  head : HeadHolds d w.disk (offset - d.startOffset offset) (a + min k len) (d.laid buf offset)

/-- All that is said of a `WriteAt`. -/
structure Outcome (d : DiffDisk) (buf : List UInt8) (offset : Nat)
    (st : Option (Nat × Nat × Nat)) (w : WriteOut) : Prop extends Result d buf offset st w where
  stopped : ∀ a len k, st = some (a, len, k) → Stopped d buf offset a len k w

/-- A phase that fails, with everything up to it in the head. -/
theorem Phase.outcome_failed {d d₁ d₂ : DiffDisk} {offset m m' a len k : Nat}
    (h : Phase d d₁ d₂ buf offset m m' a len (some k))
    (hbefore : HeadHolds d d₁ (offset - d.startOffset offset) a (d.laid buf offset))
    (hle : offset - d.startOffset offset ≤ a)
    (hhead : HeadHolds d₁ d₂ a (a + kept len (some k)) (d.laid buf offset)) {n : Int}
    (hn : n = (min buf.length (a + min k len - offset) : Nat)) :
    Outcome d buf offset (some (a, len, k)) ⟨d₂, n, some .writeFailed⟩ := by
  refine ⟨h.result_failed n, fun a' len' k' he => ?_⟩
  simp only [Option.some.injEq, Prod.mk.injEq] at he
  obtain ⟨rfl, rfl, rfl⟩ := he
  exact ⟨hn, hbefore.trans hhead hle (Nat.le_add_right _ _)⟩

variable {d : DiffDisk}

theorem Result.outcome {offset : Nat} {w : WriteOut}
    (h : Result d buf offset none w) : Outcome d buf offset none w :=
  ⟨h, fun _ _ _ he => absurd he (by simp)⟩

theorem Phase.outcome {d d₁ d₂ : DiffDisk} {offset m a len : Nat}
    {fault : Option Nat} (h : Phase d d₁ d₂ buf offset m buf.length a len fault)
    (hbefore : HeadHolds d d₁ (offset - d.startOffset offset) a (d.laid buf offset))
    (hle : offset - d.startOffset offset ≤ a)
    (hhead : HeadHolds d₁ d₂ a (a + kept len fault) (d.laid buf offset)) {n : Nat}
    (hn : n = min buf.length (a + kept len fault - offset)) :
    Outcome d buf offset (fault.map (fun k => (a, len, k))) ⟨d₂, n, faultErr fault⟩ := by
  cases fault with
  | none =>
    have hstop := h.stop_le
    have hall : n = buf.length := by
      rw [hn]
      exact Nat.min_eq_left (show buf.length ≤ a + len - offset by omega)
    rw [hall]
    exact h.done.result.outcome
  | some k => exact h.outcome_failed hbefore hle hhead (congrArg Nat.cast hn)

theorem HeadHolds.refl (d : DiffDisk) (a : Nat) (g : Nat → UInt8) : HeadHolds d d a a g :=
  fun _ => (if_neg (by omega)).symm

/-- The last sector, after the aligned middle: nothing to do when the end is aligned. -/
theorem last_phase {d d₂ : DiffDisk} (h : d.Wf) {offset : Nat}
    (hcut : Cuts d offset buf.length) (hvol : offset + buf.length ≤ d.size)
    (hu : Upto d d₂ buf offset (buf.length - d.endOffset buf.length offset)
      (offset + (buf.length - d.endOffset buf.length offset)))
    (hbefore : HeadHolds d d₂ (offset - d.startOffset offset)
      (offset + buf.length - d.endOffset buf.length offset) (d.laid buf offset))
    (fault : Option Nat) :
    ∃ d₃ n, d₂.readModifyWrite (buf.drop (buf.length - d.endOffset buf.length offset))
        (offset + buf.length - d.endOffset buf.length offset) fault
        = ⟨d₃, (n : Nat), if 0 < d.endOffset buf.length offset then faultErr fault else none⟩
      ∧ Outcome d buf offset
          (if 0 < d.endOffset buf.length offset then fault.map (fun k =>
            (offset + buf.length - d.endOffset buf.length offset, d.sectorSize, k)) else none)
          ⟨d₃, ((n + (buf.length - d.endOffset buf.length offset) : Nat) : Int),
            if 0 < d.endOffset buf.length offset then faultErr fault else none⟩ := by
  have hel := hcut.end_le
  have hpos : offset + (buf.length - d.endOffset buf.length offset)
      = offset + buf.length - d.endOffset buf.length offset := by omega
  by_cases heo : 0 < d.endOffset buf.length offset
  · simp only [if_pos heo]
    have hso : d.startOffset (offset + (buf.length - d.endOffset buf.length offset)) = 0 := by
      rw [hpos]; exact hcut.tail_start
    have hlt := endOffset_lt h buf.length offset
    have hsum : buf.length - d.endOffset buf.length offset + d.endOffset buf.length offset
        = buf.length := by omega
    obtain ⟨d₃, hr, hh, hph⟩ := phase_modify (buf.length - d.endOffset buf.length offset)
      (d.endOffset buf.length offset) (by rw [hso, Nat.sub_zero]; exact hu)
      (show buf.drop (buf.length - d.endOffset buf.length offset) = _ by
        rw [List.take_of_length_le (by rw [List.length_drop]; omega)])
      heo (by omega) (by rw [hso]; omega) (Or.inl hso) (Or.inl hsum) hvol fault
    rw [hso, Nat.sub_zero, hpos] at hh
    rw [hso, Nat.sub_zero, hpos, hsum] at hph
    rw [hso, hpos, Nat.sub_zero] at hr
    exact ⟨d₃, _, hr, hph.outcome hbefore (by omega) hh (by omega)⟩
  · simp only [if_neg heo]
    have hz : d.endOffset buf.length offset = 0 := by omega
    rw [hz, Nat.sub_zero] at hu ⊢
    rw [List.drop_length]
    refine ⟨d₂, 0, rfl, ?_⟩
    rw [Nat.zero_add]
    exact hu.result.outcome

section

variable (h : d.Wf) (buf : List UInt8) (offset : Nat) (faults : Nat → Option Nat)
  (hvol : offset + buf.length ≤ d.size)
include h hvol

/-- A write that leaves its first sector, at any alignment but the aligned one. -/
theorem writeAt_outcome_split (hsp : d.Split offset buf.length) :
    Outcome d buf offset (d.stopped buf.length offset faults) (d.writeAt buf offset faults) := by
  obtain ⟨hal, hone⟩ := hsp
  have hcut := cuts_of_lt h hvol hone
  have hle := hcut.start_le
  have hcutadd := startCut_add h offset
  have hsolt := startOffset_lt h offset
  have hsole := startOffset_le d offset
  unfold stopped headWrites writeAt
  have h0 : ¬ buf.length = 0 := by omega
  have hlong : ¬ buf.length ≤ d.startCut offset := by omega
  rw [if_neg h0, if_neg h0, if_neg hal, if_neg hal, if_neg hlong, if_neg hlong, firstFault]
  -- the first sector, up to its end
  obtain ⟨d₁, hr₁, hh₁, hph₁⟩ := phase_modify 0 (d.startCut offset)
    (Upto.start h buf offset _) (show buf.take (d.startCut offset) = (buf.drop 0).take _ from rfl)
    (by omega) (by omega) (by rw [Nat.add_zero]; omega) (Or.inr rfl)
    (Or.inr (by rw [Nat.add_zero]; omega)) hvol (faults 0)
  rw [Nat.add_zero] at hr₁ hh₁ hph₁
  rw [hr₁]
  cases hf₁ : faults 0 with
  | some k =>
    rw [hf₁] at hh₁ hph₁
    have hk : kept d.sectorSize (some k) = min k d.sectorSize := rfl
    refine hph₁.outcome_failed (HeadHolds.refl d _ _) (Nat.le_refl _) hh₁ ?_
    dsimp only
    rw [hk]
    congr 1
    omega
  | none =>
    rw [hf₁] at hh₁ hph₁
    have hsector : offset - d.startOffset offset + d.sectorSize = offset + d.startCut offset := by
      omega
    have hu₁ := hph₁.done
    rw [Nat.zero_add, hsector] at hu₁
    have hn₁ : min (d.startCut offset) (kept d.sectorSize none - d.startOffset offset)
        = d.startCut offset :=
      Nat.min_eq_left (show d.startCut offset ≤ d.sectorSize - d.startOffset offset by omega)
    rw [hn₁]
    rw [show offset - d.startOffset offset + kept d.sectorSize none
      = offset + d.startCut offset from hsector] at hh₁
    dsimp only [faultErr]
    -- the aligned middle
    obtain ⟨d₂, hr₂, hh₂, hph₂⟩ := phase_full (d.startCut offset)
      (buf.length - d.endOffset buf.length offset - d.startCut offset) hu₁ rfl (by omega)
      hcut.mid_len hcut.mid_start hvol (faults 1)
    rw [hr₂, firstFault]
    cases hf₂ : faults 1 with
    | some k =>
      rw [hf₂] at hh₂ hph₂
      have hk : kept (buf.length - d.endOffset buf.length offset - d.startCut offset) (some k)
          = min k (buf.length - d.endOffset buf.length offset - d.startCut offset) := rfl
      refine hph₂.outcome_failed hh₁ (by omega) hh₂ ?_
      rw [hk, ← Nat.cast_add]
      congr 1
      omega
    | none =>
      rw [hf₂] at hh₂ hph₂
      have hmid : d.startCut offset
          + (buf.length - d.endOffset buf.length offset - d.startCut offset)
          = buf.length - d.endOffset buf.length offset := by omega
      have hu₂ := hph₂.done
      rw [Nat.add_assoc, hmid] at hu₂
      have hbefore := hh₁.trans hh₂ (by omega) (Nat.le_add_right _ _)
      rw [show offset + d.startCut offset
        + kept (buf.length - d.endOffset buf.length offset - d.startCut offset) none
        = offset + buf.length - d.endOffset buf.length offset from by
          show offset + d.startCut offset + (buf.length - _ - d.startCut offset) = _
          omega] at hbefore
      dsimp only [faultErr]
      -- the last sector
      obtain ⟨d₃, n₃, hr₃, hres⟩ := last_phase h hcut hvol hu₂ hbefore (faults 2)
      rw [hr₃]
      have hsum : ((n₃ : Nat) : Int) + (d.startCut offset : Nat)
          + (kept (buf.length - d.endOffset buf.length offset - d.startCut offset) none : Nat)
          = ((n₃ + (buf.length - d.endOffset buf.length offset) : Nat) : Int) := by
        show ((n₃ : Nat) : Int) + (d.startCut offset : Nat)
          + ((buf.length - d.endOffset buf.length offset - d.startCut offset : Nat) : Int) = _
        omega
      by_cases heo : 0 < d.endOffset buf.length offset
      · simp only [if_pos heo] at hres ⊢
        rw [firstFault_one]
        cases hf₃ : faults 2 with
        | some k =>
          rw [hf₃] at hres
          dsimp only [faultErr]
          rw [hsum]
          exact hres
        | none =>
          rw [hf₃] at hres
          have hn := hres.n rfl
          dsimp only at hn
          rw [hn] at hres
          exact hres
      · simp only [if_neg heo] at hres ⊢
        have hn := hres.n rfl
        dsimp only at hn
        rw [hn] at hres
        exact hres

/-- **What a write leaves behind and returns**, at any alignment and with any faults. -/
theorem writeAt_outcome :
    Outcome d buf offset (d.stopped buf.length offset faults) (d.writeAt buf offset faults) := by
  by_cases hsp : d.Split offset buf.length
  · exact writeAt_outcome_split h buf offset faults hvol hsp
  unfold stopped headWrites writeAt
  by_cases h0 : buf.length = 0
  · rw [if_pos h0, if_pos h0]
    have hu := Upto.start h buf offset offset
    rw [← h0] at hu
    have hr := hu.result
    rw [h0] at hr
    exact hr.outcome
  rw [if_neg h0, if_neg h0]
  by_cases hal : d.startOffset offset = 0 ∧ d.endOffset buf.length offset = 0
  · -- aligned: one head write
    rw [if_pos hal, if_pos hal, firstFault_one]
    have hlm : buf.length % d.sectorSize = 0 := by
      have := Nat.add_mod buf.length offset d.sectorSize
      unfold startOffset endOffset at hal
      rw [hal.1, hal.2, Nat.add_zero, Nat.mod_mod] at this
      exact this.symm
    obtain ⟨d₂, hr, hh, hph⟩ := phase_full 0 buf.length (Upto.start h buf offset offset) rfl
      (by omega) hlm hal.1 hvol (faults 0)
    rw [List.drop_zero, List.take_length] at hr
    rw [Nat.zero_add] at hph
    rw [hr]
    have hk := kept_le buf.length (faults 0)
    refine hph.outcome ?_ (by omega) hh (by omega)
    rw [hal.1]
    exact HeadHolds.refl d _ _
  · -- a single block
    have hone : buf.length ≤ d.startCut offset := Nat.not_lt.mp (fun hlt => hsp ⟨hal, hlt⟩)
    rw [if_neg hal, if_neg hal, if_pos hone, if_pos hone, firstFault_one]
    have hcutadd := startCut_add h offset
    have hsole := startOffset_le d offset
    obtain ⟨d₂, hr, hh, hph⟩ := phase_modify 0 buf.length (Upto.start h buf offset _)
      (show buf = (buf.drop 0).take buf.length by rw [List.drop_zero, List.take_length])
      (by omega) (by omega) (by rw [Nat.add_zero]; omega) (Or.inr rfl) (Or.inl (by omega)) hvol
      (faults 0)
    rw [Nat.add_zero] at hr hh hph
    rw [Nat.zero_add] at hph
    rw [hr]
    exact hph.outcome (HeadHolds.refl d _ _) (Nat.le_refl _) hh (by omega)

theorem writeAt_result :
    Result d buf offset (d.stopped buf.length offset faults) (d.writeAt buf offset faults) :=
  (writeAt_outcome h buf offset faults hvol).toResult

end

/-! ## What a stopped write counts -/

/-- The ranges that reach the head file: up to the first fault, and of that one what it persists. -/
def persistedRanges (faults : Nat → Option Nat) : Nat → List (Nat × Nat) → List (Nat × Nat)
  | _, [] => []
  | i, w :: rest =>
    match faults i with
    | some k => [(w.1, min k w.2)]
    | none => w :: persistedRanges faults (i + 1) rest

/-- The byte at `p` was handed to the head file by the `WriteAt`, and persisted. -/
def Persisted (d : DiffDisk) (len offset : Nat) (faults : Nat → Option Nat) (p : Nat) : Prop :=
  ∃ r ∈ persistedRanges faults 0 (d.headWrites len offset), r.1 ≤ p ∧ p < r.1 + r.2

/-- Each range begins where the one before it ends, the first at `s`. -/
def Adjacent : Nat → List (Nat × Nat) → Prop
  | _, [] => True
  | s, w :: rest => w.1 = s ∧ Adjacent (s + w.2) rest

/-- What adjacent ranges with a fault persist is one range. -/
theorem mem_persistedRanges_iff {faults : Nat → Option Nat} {a len k : Nat} (p : Nat) :
    ∀ {i s : Nat} {ws : List (Nat × Nat)}, Adjacent s ws →
      firstFault faults i ws = some (a, len, k) →
      s ≤ a ∧ ((∃ r ∈ persistedRanges faults i ws, r.1 ≤ p ∧ p < r.1 + r.2)
        ↔ s ≤ p ∧ p < a + min k len)
  | _, _, [], _, h => absurd h (by simp [firstFault])
  | i, s, w :: rest, hadj, h => by
    obtain ⟨rfl, hadj⟩ := hadj
    rw [firstFault] at h
    rw [persistedRanges]
    cases hf : faults i with
    | some j =>
      rw [hf] at h
      simp only [Option.some.injEq, Prod.mk.injEq] at h
      obtain ⟨rfl, rfl, rfl⟩ := h
      simp
    | none =>
      rw [hf] at h
      obtain ⟨hle, hiff⟩ := mem_persistedRanges_iff p hadj h
      simp only [List.exists_mem_cons_iff, hiff]
      omega

theorem adjacent_headWrites (h : d.Wf) {len offset : Nat} (hvol : offset + len ≤ d.size) :
    Adjacent (offset - d.startOffset offset) (d.headWrites len offset) := by
  have hcutadd := startCut_add h offset
  have hsole := startOffset_le d offset
  unfold headWrites
  dsimp only
  split
  · trivial
  split
  · rename_i hal
    exact ⟨by rw [hal.1]; rfl, trivial⟩
  split
  · exact ⟨rfl, trivial⟩
  · rename_i hone
    have hcut := cuts_of_lt h hvol (Nat.not_le.mp hone)
    have hle := hcut.start_le
    have hlt := startOffset_lt h offset
    refine ⟨rfl, by dsimp only; omega, ?_⟩
    split
    · exact ⟨by dsimp only; omega, trivial⟩
    · trivial

theorem mem_of_firstFault {faults : Nat → Option Nat} {a len k : Nat} :
    ∀ {i : Nat} {ws : List (Nat × Nat)}, firstFault faults i ws = some (a, len, k) →
      (a, len) ∈ ws
  | _, [], h => absurd h (by simp [firstFault])
  | i, w :: rest, h => by
    rw [firstFault] at h
    cases hf : faults i with
    | some j =>
      rw [hf] at h
      simp only [Option.some.injEq, Prod.mk.injEq] at h
      rw [← h.1, ← h.2.1]
      exact List.mem_cons_self
    | none =>
      rw [hf] at h
      exact List.mem_cons_of_mem _ (mem_of_firstFault h)

/-- Every head write of an in-range `WriteAt` is inside the volume. -/
theorem headWrites_in_volume (h : d.Wf) {len offset : Nat}
    (hvol : offset + len ≤ d.size) {w : Nat × Nat} (hw : w ∈ d.headWrites len offset) :
    w.1 + w.2 ≤ d.size := by
  unfold headWrites at hw
  dsimp only at hw
  split at hw
  · simp at hw
  rename_i h0
  have hsec := sector_in_volume h (p := offset) (by omega)
  split at hw
  · rw [List.mem_singleton] at hw; rw [hw]; exact hvol
  split at hw
  · rw [List.mem_singleton] at hw; rw [hw]; exact hsec
  rename_i hone
  have hcut := cuts_of_lt h hvol (Nat.not_le.mp hone)
  rcases List.mem_cons.mp hw with rfl | hw
  · exact hsec
  rcases List.mem_cons.mp hw with rfl | hw
  · show offset + d.startCut offset + (len - d.endOffset len offset - d.startCut offset) ≤ d.size
    omega
  split at hw
  · rename_i heo
    rw [List.mem_singleton] at hw; rw [hw]; exact hcut.tail_in heo
  · simp at hw

end WeftBlock.DiffDisk
