import WeftBlock.Replica.Read

/-!
# The layered view

What a volume *should* read as is decided by its files alone: each sector shows
its top-most owner, or the base (`visible`). With an exact location table this is
what every lookup resolves to, and `ReadAt` returns it — except where the tail of
an unaligned read reaches past the end of its file. There the scratch sector is
read back as it stands, with the head sector still in it (`ScratchClean`).
-/

namespace WeftBlock.DiffDisk

open Slice

/-- The byte the top-most owner of the sector shows at `p`, zero past its end. -/
def visible (d : DiffDisk) (p : Nat) : UInt8 := (d.file (d.topmost (p / d.sectorSize))).byteAt p

/--
Where the tail of a split read lies past the end of its file, the head sector is
zero at the same place.
-/
def ScratchClean (d : DiffDisk) (offset len : Nat) : Prop :=
  d.Split offset len → ∀ i, i < d.endOffset len offset →
    (d.file (d.topmost ((offset + len - d.endOffset len offset + i) / d.sectorSize))).size
      ≤ offset + len - d.endOffset len offset + i →
    d.visible (offset - d.startOffset offset + i) = 0

section

variable {d : DiffDisk} (h : d.Wf) (he : d.Exact)
include h he

theorem layer_eq_topmost {p : Nat} (hp : p < d.size) :
    d.layer (p / d.sectorSize) = d.topmost (p / d.sectorSize) := by
  refine layer_of_exact h he ?_
  rw [Nat.div_lt_iff_lt_mul h.sector_pos, h.table]
  exact hp

theorem content_eq_visible {p : Nat} (hp : p < d.size) :
    d.content p = d.visible p := by
  rw [content, visible, layer_eq_topmost h he hp]

theorem covered_iff_topmost {p : Nat} (hp : p < d.size) :
    d.covered p ↔ p < (d.file (d.topmost (p / d.sectorSize))).size := by
  rw [covered, layer_eq_topmost h he hp]

/-- Outside the tail of a split read, the returned byte is the visible one. -/
theorem returned_eq_visible {offset len j : Nat} (hvol : offset + len ≤ d.size) (hj : j < len)
    (hin : d.Split offset len → j < len - d.endOffset len offset) :
    d.returned offset len j = d.visible (offset + j) := by
  rw [returned_of_lt hin, content_eq_visible h he (by omega)]

/-- In the tail, positions past the end of the file show the head sector instead of zero. -/
theorem returned_tail {offset len i : Nat}
    (hvol : offset + len ≤ d.size) (hsp : d.Split offset len) (hi : i < d.endOffset len offset)
    (hpast : (d.file (d.topmost
      ((offset + len - d.endOffset len offset + i) / d.sectorSize))).size
        ≤ offset + len - d.endOffset len offset + i) :
    d.returned offset len (len - d.endOffset len offset + i)
      = d.visible (offset - d.startOffset offset + i) := by
  have hle := (cuts_of_lt h hvol hsp.2).end_le
  have hp : offset + (len - d.endOffset len offset + i)
      = offset + len - d.endOffset len offset + i := by omega
  have hncov : ¬ d.covered (offset + (len - d.endOffset len offset + i)) := by
    rw [hp, covered_iff_topmost h he (by omega)]
    exact Nat.not_lt.mpr hpast
  rw [returned, if_pos ⟨hsp, by omega, hncov⟩, Nat.add_sub_cancel_left,
    content_eq_visible h he (by omega)]

end

/-- The byte a read of one position returns. -/
def readByte (d : DiffDisk) (p : Nat) : UInt8 := (d.readAt [0] p).buf.getD 0 0

/-- A single position is never split, so the scratch sector cannot be stale. -/
theorem readByte_eq_content {d : DiffDisk} (h : d.Wf) {p : Nat} (hp : p < d.size) :
    d.readByte p = d.content p := by
  obtain ⟨d', out, hr, -, -, -, hget⟩ := readAt_zero h (show p + 1 ≤ d.size from hp)
  have h0 := hget 0 Nat.one_pos
  have hcut := startCut_add h p
  have hlt := startOffset_lt h p
  rw [returned_of_lt (fun hsp => absurd hsp.2 (by omega)), Nat.add_zero] at h0
  rw [readByte, show [(0 : UInt8)] = List.replicate 1 0 from rfl, hr,
    List.getD_eq_getElem?_getD, h0]
  rfl

/-! ## A short base under a grown volume -/

/-- A base of one sector of sevens under a volume of two sectors, with nothing written since. -/
def grown : DiffDisk where
  location := [0, 0]
  files := [File.empty 0, File.filled 4096 7, File.empty 8192]
  sectorSize := 4096
  size := 8192

theorem grown_wf : grown.Wf := by
  refine ⟨by decide, by decide, by decide, rfl, fun s => ?_⟩
  match s with
  | 0 => decide
  | 1 => decide
  | _ + 2 => exact Nat.zero_lt_succ _

theorem grown_exact : grown.Exact := by
  intro s hs h0
  match s, hs with
  | 0, _ => exact absurd rfl h0
  | 1, _ => exact absurd rfl h0

/-- Nothing above the base holds data. -/
theorem grown_cell : ∀ i p : Nat, 1 < i → (grown.file i).cell p = none
  | 0, _, h => absurd h (by decide)
  | 1, _, h => absurd h (by decide)
  | 2, _, _ => rfl
  | _ + 3, _, _ => rfl

theorem grown_topmost (s : Nat) : grown.topmost s = 1 := by
  have hz : Nat.findGreatest (fun i => 1 < i ∧ grown.owns i s = true)
      (grown.files.length - 1) = 0 := by
    refine Nat.findGreatest_eq_zero_iff.mpr (fun i _ _ => ?_)
    intro hex
    obtain ⟨hi, ho⟩ := hex
    rw [owns, File.hasExtent_iff] at ho
    obtain ⟨p, -, -, hc⟩ := ho
    rw [grown_cell i p hi] at hc
    exact absurd hc (by decide)
  rw [topmost, hz]
  rfl

theorem grown_visible (p : Nat) : grown.visible p = if p < 4096 then 7 else 0 := by
  rw [visible, grown_topmost]
  exact File.byteAt_filled 4096 7 p

end WeftBlock.DiffDisk
