import WeftBlock.Replica.Write
import WeftBlock.Lib.Layers

/-!
# Taking a file out of the stack

`diffDisk.RemoveIndex`: the file array loses one entry, and the location table is
renumbered: entries above the index move down by one, entries *at* the index go
back to unknown. Sectors that were read from another file are read from the same
file afterwards; sectors that were read from the removed one are resolved afresh,
to whatever shows without it.
-/

namespace WeftBlock.DiffDisk

open Slice Layers

/-- An entry of the location table after file `index` was taken out. -/
def renumber (index : Nat) (l : UInt8) : UInt8 :=
  if l = UInt8.ofNat index then 0 else if UInt8.ofNat index < l then l - 1 else l

/-- `RemoveIndex`. -/
def removeIndex (d : DiffDisk) (index : Nat) : DiffDisk :=
  { d with
    location := d.location.map (renumber index)
    files := d.files.eraseIdx index }

/-- The stack of files with one of them left out; the table is as it was. -/
def without (d : DiffDisk) (index : Nat) : DiffDisk := { d with files := d.files.eraseIdx index }

/-- What is visible depends on the files alone. -/
theorem visible_removeIndex (d : DiffDisk) (index p : Nat) :
    (d.removeIndex index).visible p = (d.without index).visible p := rfl

/-! ## The top-most owner, as a stack of layers -/

/-- What a file holds for the sector of `p`: nothing, or the byte at `p`. -/
def holds (sectorSize p : Nat) (f : File) : Option UInt8 :=
  if f.hasExtent (p / sectorSize * sectorSize) sectorSize then some (f.byteAt p) else none

/-- The files of the stack, top first. -/
def layers (d : DiffDisk) : List File := d.files.tail.reverse

theorem holds_getD {sectorSize p : Nat} (hs : 0 < sectorSize) (f : File) :
    (holds sectorSize p f).getD 0 = f.byteAt p := by
  unfold holds
  split
  · rfl
  · rename_i ho
    have h1 := Nat.div_add_mod p sectorSize
    have h2 := Nat.mod_lt p hs
    rw [Nat.mul_comm] at h1
    exact (File.byteAt_of_not_hasExtent (by simpa using ho) (by omega) (by omega)).symm

variable {d : DiffDisk}

theorem holds_eq_none_iff {i p : Nat} :
    holds d.sectorSize p (d.file i) = none ↔ d.owns i (p / d.sectorSize) = false := by
  unfold holds owns
  cases (d.file i).hasExtent (p / d.sectorSize * d.sectorSize) d.sectorSize <;> simp

/-- The top-most owner is the one that owns the sector with no owner above it. -/
theorem topmost_eq {s t : Nat} (h1 : 1 ≤ t) (hlt : t < d.files.length)
    (ho : t ≠ 1 → d.owns t s = true)
    (hup : ∀ i, t < i → i < d.files.length → d.owns i s = false) : d.topmost s = t := by
  have hge := one_le_topmost d s
  have htl : d.topmost s < d.files.length := by
    have := Nat.findGreatest_le (P := fun i => 1 < i ∧ d.owns i s = true) (d.files.length - 1)
    rw [topmost]; omega
  rcases Nat.lt_trichotomy (d.topmost s) t with hlt' | heq | hgt
  · have := le_topmost (d := d) (s := s) (i := t) (by omega) hlt (ho (by omega))
    omega
  · exact heq
  · have h2 := owns_topmost (d := d) (s := s) (by omega)
    rw [hup _ hgt htl] at h2
    exact absurd h2 (by decide)

theorem owns_above_topmost {i s : Nat} (h : d.topmost s < i)
    (hlt : i < d.files.length) : d.owns i s = false := by
  have h1 := one_le_topmost d s
  cases ho : d.owns i s with
  | false => rfl
  | true =>
    have := le_topmost (by omega) hlt ho
    omega

/-- **The visible byte is what shows through the files.** -/
theorem visible_eq_through (hs : 0 < d.sectorSize) (h2 : 2 ≤ d.files.length)
    (p : Nat) : d.visible p = through (holds d.sectorSize p) 0 d.layers := by
  -- the files from index `m` down, by induction on `m`
  have hdown : ∀ m, 1 ≤ m →
      (d.file (max 1 (Nat.findGreatest
        (fun i => 1 < i ∧ d.owns i (p / d.sectorSize) = true) m))).byteAt p
        = through (holds d.sectorSize p) 0 ((List.range' 1 m).reverse.map d.file) := by
    intro m hm
    induction m, hm using Nat.le_induction with
    | base =>
      show (d.file 1).byteAt p = through _ 0 [d.file 1]
      rw [through_singleton, holds_getD hs]
    | succ m hm ih =>
      rw [List.range'_1_concat, List.reverse_append, List.map_append, Nat.findGreatest_succ,
        Nat.add_comm 1 m]
      show _ = through _ 0 (d.file (m + 1) :: (List.range' 1 m).reverse.map d.file)
      by_cases ho : d.owns (m + 1) (p / d.sectorSize) = true
      · have hh : holds d.sectorSize p (d.file (m + 1)) = some ((d.file (m + 1)).byteAt p) :=
          if_pos ho
        have hP : 1 < m + 1 ∧ d.owns (m + 1) (p / d.sectorSize) = true := ⟨by omega, ho⟩
        rw [if_pos hP, through_cons_of_some hh, Nat.max_eq_right (by omega)]
      · have hP : ¬ (1 < m + 1 ∧ d.owns (m + 1) (p / d.sectorSize) = true) := fun hh => ho hh.2
        rw [if_neg hP, ih, through_cons_of_none (holds_eq_none_iff.mpr (by simpa using ho))]
  have hlist : d.layers = (List.range' 1 (d.files.length - 1)).reverse.map d.file := by
    rw [layers, List.map_reverse]
    congr 1
    refine List.ext_getElem? (fun i => ?_)
    rw [List.getElem?_tail, List.getElem?_map]
    rcases Nat.lt_or_ge i (d.files.length - 1) with hi | hi
    · rw [List.getElem?_range' hi, List.getElem?_eq_getElem (by omega)]
      show some _ = some (d.files.getD (1 + 1 * i) _)
      rw [List.getD_eq_getElem?_getD, show 1 + 1 * i = i + 1 by omega,
        List.getElem?_eq_getElem (by omega)]
      rfl
    · rw [List.getElem?_eq_none (by omega), List.getElem?_eq_none (by simp; omega)]
      rfl
  rw [visible, topmost, hdown _ (by omega), hlist]

/-! ## Renumbering -/

theorem file_removeIndex (d : DiffDisk) (index i : Nat) :
    (d.removeIndex index).file i = if i < index then d.file i else d.file (i + 1) := by
  show (d.files.eraseIdx index).getD i _ = _
  rw [List.getD_eq_getElem?_getD, List.getElem?_eraseIdx]
  split
  · rw [file, List.getD_eq_getElem?_getD]
  · rw [file, List.getD_eq_getElem?_getD]

theorem owns_removeIndex (d : DiffDisk) (index i s : Nat) :
    (d.removeIndex index).owns i s = if i < index then d.owns i s else d.owns (i + 1) s := by
  rw [owns, file_removeIndex]
  split <;> rfl

variable {index : Nat}

theorem length_removeIndex (h : index < d.files.length) :
    (d.removeIndex index).files.length = d.files.length - 1 := by
  show (d.files.eraseIdx index).length = _
  rw [List.length_eraseIdx, if_pos h]

/-- A sector owned by another file is still owned by it, under its new number. -/
theorem topmost_removeIndex (h : d.Wf) {index s : Nat} (h1 : 1 ≤ index)
    (hlt : index < d.head) (hne : d.topmost s ≠ index) :
    (d.removeIndex index).topmost s
      = if d.topmost s < index then d.topmost s else d.topmost s - 1 := by
  have hge := one_le_topmost d s
  have htl := topmost_lt h s
  rw [head] at hlt
  have hlen : (d.removeIndex index).files.length = d.files.length - 1 :=
    length_removeIndex (by omega)
  by_cases hcmp : d.topmost s < index
  · rw [if_pos hcmp]
    refine topmost_eq hge (by omega) (fun hn1 => ?_) (fun i hi hin => ?_)
    · rw [owns_removeIndex, if_pos hcmp]; exact owns_topmost hn1
    · rw [owns_removeIndex]
      split
      · exact owns_above_topmost hi (by omega)
      · exact owns_above_topmost (by omega) (by omega)
  · rw [if_neg hcmp]
    refine topmost_eq (by omega) (by omega) (fun _ => ?_) (fun i hi hin => ?_)
    · rw [owns_removeIndex, if_neg (by omega), show d.topmost s - 1 + 1 = d.topmost s by omega]
      exact owns_topmost (by omega)
    · rw [owns_removeIndex, if_neg (by omega)]
      exact owns_above_topmost (by omega) (by omega)

theorem loc_removeIndex (d : DiffDisk) (h1 : 1 ≤ index) (h256 : index < 256) (s : Nat) :
    (d.removeIndex index).loc s = if d.loc s = UInt8.ofNat index then 0
      else if UInt8.ofNat index < d.loc s then d.loc s - 1 else d.loc s := by
  have hz : UInt8.ofNat index ≠ 0 := by
    intro he
    have : (UInt8.ofNat index).toNat = 0 := by rw [he]; rfl
    rw [UInt8.toNat_ofNat', Nat.mod_eq_of_lt h256] at this
    omega
  rw [loc, loc, List.getD_eq_getElem?_getD, List.getD_eq_getElem?_getD]
  show ((d.location.map _)[s]?).getD 0 = _
  rw [List.getElem?_map]
  cases d.location[s]? with
  | some l => rfl
  | none =>
    show (0 : UInt8) = if (0 : UInt8) = UInt8.ofNat index then 0 else
      if UInt8.ofNat index < 0 then 0 - 1 else 0
    rw [if_neg (Ne.symm hz), if_neg (UInt8.not_lt.mpr (UInt8.zero_le))]

/-- Where an entry of the table is after the renumbering, as a number. -/
theorem loc_removeIndex_toNat (d : DiffDisk) (h1 : 1 ≤ index) (h256 : index < 256) (s : Nat) :
    ((d.removeIndex index).loc s).toNat = if (d.loc s).toNat = index then 0
      else if index < (d.loc s).toNat then (d.loc s).toNat - 1 else (d.loc s).toNat := by
  have hi : (UInt8.ofNat index).toNat = index := by
    rw [UInt8.toNat_ofNat', Nat.mod_eq_of_lt h256]
  rw [loc_removeIndex d h1 h256]
  by_cases he : d.loc s = UInt8.ofNat index
  · rw [if_pos he, if_pos (by rw [he, hi])]; rfl
  · have he' : ¬ (d.loc s).toNat = index := fun hh => he (UInt8.toNat_inj.mp (by rw [hi, hh]))
    rw [if_neg he, if_neg he']
    by_cases hlt : UInt8.ofNat index < d.loc s
    · have hlt' : index < (d.loc s).toNat := by rw [← hi]; exact UInt8.lt_iff_toNat_lt.mp hlt
      rw [if_pos hlt, if_pos hlt', UInt8.toNat_sub_of_le _ _ (UInt8.le_iff_toNat_le.mpr (by
        show 1 ≤ _
        omega))]
      rfl
    · rw [if_neg hlt, if_neg (fun hh => hlt (UInt8.lt_iff_toNat_lt.mpr (by rw [hi]; exact hh)))]

theorem wf_removeIndex (h : d.Wf) (h1 : 1 ≤ index)
    (hlt : index < d.head) : (d.removeIndex index).Wf := by
  have h256 := h.le_256
  rw [head] at hlt
  have hlen : (d.removeIndex index).files.length = d.files.length - 1 :=
    length_removeIndex (by omega)
  refine ⟨h.sector_pos, by omega, by omega, ?_, fun s => ?_⟩
  · show (d.location.map _).length * d.sectorSize = d.size
    rw [List.length_map, h.table]
  · have hr := h.ranged s
    rw [loc_removeIndex_toNat d h1 (by omega), hlen]
    split
    · omega
    · split <;> omega

/--
**Taking a file out of the stack**: what was read from another file stays, and what
was read from this one is whatever shows without it.
-/
theorem content_removeIndex (h : d.Wf) (h1 : 1 ≤ index) (hlt : index < d.head) (p : Nat) :
    (d.removeIndex index).content p = if d.layer (p / d.sectorSize) = index
      then (d.removeIndex index).visible p else d.content p := by
  have hw := wf_removeIndex h h1 hlt
  have h256 := h.le_256
  have hidx : index < 256 := by rw [head] at hlt; omega
  have hloc := loc_removeIndex_toNat d h1 hidx (p / d.sectorSize)
  have hzero : ∀ x : UInt8, x = 0 ↔ x.toNat = 0 := fun x => (UInt8.toNat_inj (b := 0)).symm
  show ((d.removeIndex index).file ((d.removeIndex index).layer (p / d.sectorSize))).byteAt p = _
  rw [content, layer, layer, found_toNat hw, found_toNat h]
  by_cases h0 : d.loc (p / d.sectorSize) = 0
  · -- unknown before and after: resolved from the files both times
    have h0' : (d.removeIndex index).loc (p / d.sectorSize) = 0 := by
      rw [hzero, hloc, (hzero _).mp h0, if_neg (by omega), if_neg (by omega)]
    rw [if_pos h0, if_pos h0']
    by_cases ht : d.topmost (p / d.sectorSize) = index
    · rw [if_pos ht]; rfl
    · rw [if_neg ht, topmost_removeIndex h h1 hlt ht, file_removeIndex]
      by_cases hcmp : d.topmost (p / d.sectorSize) < index
      · rw [if_pos hcmp, if_pos hcmp]
      · rw [if_neg hcmp, if_neg (by omega),
          show d.topmost (p / d.sectorSize) - 1 + 1 = d.topmost (p / d.sectorSize) by omega]
  · rw [if_neg h0]
    have hne : (d.loc (p / d.sectorSize)).toNat ≠ 0 := fun hh => h0 ((hzero _).mpr hh)
    by_cases he : (d.loc (p / d.sectorSize)).toNat = index
    · -- back to unknown
      rw [if_pos he] at hloc
      rw [if_pos he, if_pos ((hzero _).mpr hloc)]
      rfl
    · rw [if_neg he] at hloc
      rw [if_neg he]
      by_cases hgt : index < (d.loc (p / d.sectorSize)).toNat
      · rw [if_pos hgt] at hloc
        rw [if_neg (fun hh => by rw [hzero, hloc] at hh; omega), hloc, file_removeIndex,
          if_neg (by omega), show (d.loc (p / d.sectorSize)).toNat - 1 + 1
            = (d.loc (p / d.sectorSize)).toNat by omega]
      · rw [if_neg hgt] at hloc
        rw [if_neg (fun hh => by rw [hzero, hloc] at hh; omega), hloc, file_removeIndex,
          if_pos (by omega)]

end WeftBlock.DiffDisk
