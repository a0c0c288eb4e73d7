import WeftBlock.Replica.HeadWrites

/-!
# What a read past the end counts

The count and the error of `ReadAt` for ranges that need not lie inside the volume. A sector past
the table is looked up in the head, so what decides there is the size of the head file: a transfer
that ends inside the head or inside the volume is complete, and any other one is counted as the
distance from its start to the end of the volume. That distance is negative for a transfer that
starts past the end.
-/

namespace WeftBlock.DiffDisk

/-- Where the last sector ends that a range reaches into. -/
def lastSectorEnd (d : DiffDisk) (len offset : Nat) : Nat :=
  if d.endOffset len offset = 0 then offset + len
  else offset + len - d.endOffset len offset + d.sectorSize

/-- The range consists of whole sectors. -/
def Aligned (d : DiffDisk) (len offset : Nat) : Prop :=
  d.startOffset offset = 0 ∧ d.endOffset len offset = 0

instance (d : DiffDisk) (len offset : Nat) : Decidable (d.Aligned len offset) :=
  inferInstanceAs (Decidable (_ ∧ _))

/-! ## Whole sectors -/

variable {d : DiffDisk}

theorem counted_err {fileSize start len : Nat} :
    (d.counted fileSize start len).2 = none ↔ start + len ≤ max fileSize d.size := by
  unfold counted
  split <;> simp_all

theorem fullReadAt_err (h : d.Wf) (buf : List UInt8) (offset : Nat)
    (hlen : buf.length % d.sectorSize = 0) (hoff : offset % d.sectorSize = 0) :
    (d.fullReadAt buf offset).err = none ↔
      (0 < buf.length → offset + buf.length ≤ max d.headSize d.size) := by
  rcases Nat.eq_zero_or_pos buf.length with hzero | hpos
  · have hout : d.fullReadAt buf offset = ⟨d, buf, 0, none⟩ := by
      rw [fullReadAt, if_neg (by omega), if_pos hzero]
    rw [hout]
    exact iff_of_true rfl (fun hpos => by omega)
  · rw [imp_iff_right hpos, ← counted_err, ← (fullReadAt_out h hpos hlen hoff).2.1]

/-! ## Any range -/

/-- A range inside one sector. -/
theorem lastSectorEnd_of_le (hw : 0 < d.sectorSize) {len offset : Nat} (hpos : 0 < len)
    (hle : len ≤ d.startCut offset) :
    d.lastSectorEnd len offset = offset - d.startOffset offset + d.sectorSize := by
  have h1 := Nat.div_add_mod offset d.sectorSize
  have hm := Nat.mod_lt offset hw
  unfold startCut startOffset at hle
  unfold lastSectorEnd endOffset startOffset
  generalize offset / d.sectorSize = q at h1
  have hsum : len + offset = d.sectorSize * q + (offset % d.sectorSize + len) := by omega
  rcases Nat.lt_or_ge (offset % d.sectorSize + len) d.sectorSize with hlt | hge
  · rw [hsum, Nat.mul_add_mod, Nat.mod_eq_of_lt hlt, if_neg (by omega)]
    omega
  · rw [hsum, show offset % d.sectorSize + len = d.sectorSize by omega, Nat.mul_add_mod,
      Nat.mod_self, if_pos rfl]
    omega

theorem le_lastSectorEnd (hw : 0 < d.sectorSize) {len offset : Nat} (hpos : 0 < len) :
    offset - d.startOffset offset + d.sectorSize ≤ d.lastSectorEnd len offset := by
  rcases Nat.lt_or_ge (d.startCut offset) len with hlt | hge
  · obtain ⟨-, -, -, hle, hend⟩ := cuts_mod hw hlt
    have h1 := startOffset_le d offset
    rw [startCut, startOffset] at hle
    rw [startOffset] at h1 ⊢
    rw [lastSectorEnd]
    split <;> omega
  · rw [lastSectorEnd_of_le hw hpos hge]

section

variable {d : DiffDisk} (h : d.Wf) {buf : List UInt8} {offset : Nat} (hpos : 0 < buf.length)
include h hpos

/-- **An aligned `ReadAt`** is one transfer. -/
theorem readAt_whole (hal : d.Aligned buf.length offset) :
    ((d.readAt buf offset).n, (d.readAt buf offset).err)
      = d.counted d.headSize offset buf.length := by
  obtain ⟨hstart, hend⟩ := hal
  have hlen : buf.length % d.sectorSize = 0 := Nat.mod_eq_zero_of_dvd
    ((Nat.dvd_add_left (Nat.dvd_of_mod_eq_zero hstart)).mp (Nat.dvd_of_mod_eq_zero hend))
  have hread : d.readAt buf offset = d.fullReadAt buf offset := by
    rw [readAt, if_neg (by omega), if_pos ⟨hstart, hend⟩]
  rw [hread, (fullReadAt_out h hpos hlen hstart).2.1]

/-- **An unaligned `ReadAt`** reads everything or counts nothing. -/
theorem readAt_unaligned (hal : ¬ d.Aligned buf.length offset) :
    ((d.readAt buf offset).n = 0 ∨ (d.readAt buf offset).n = buf.length)
      ∧ ((d.readAt buf offset).err = none ↔
        d.lastSectorEnd buf.length offset ≤ max d.headSize d.size) := by
  have hss := h.sector_pos
  have hfirst := @le_lastSectorEnd d hss _ offset hpos
  unfold readAt
  dsimp only
  rw [if_neg (by omega), if_neg (show ¬ (_ ∧ _) from hal)]
  have hr₁ := fullReadAt_readFrom h (List.replicate d.sectorSize 0) (offset - d.startOffset offset)
  have herr₁ := fullReadAt_err h (List.replicate d.sectorSize 0)
    (offset - d.startOffset offset) (by simp) (startSector_mod d offset)
  rw [List.length_replicate, imp_iff_right hss] at herr₁
  generalize d.fullReadAt (List.replicate d.sectorSize 0) (offset - d.startOffset offset) = head
    at hr₁ herr₁ ⊢
  have hc₁ := hr₁.caches
  have hl₁ := hr₁.length.trans List.length_replicate
  cases hhead : head.err with
  | some e =>
    rw [hhead] at herr₁
    exact ⟨Or.inl rfl, iff_of_false (by simp) (fun hle => absurd (herr₁.mpr (by omega)) (by simp))⟩
  | none =>
    have hbuf₁ : (Slice.copyAt buf 0 ((head.buf.drop (d.startOffset offset)).take buf.length)).length
        = buf.length := Slice.length_copyAt (Nat.zero_le _)
    generalize Slice.copyAt buf 0 ((head.buf.drop (d.startOffset offset)).take buf.length) = buf₁
      at hbuf₁ ⊢
    by_cases hone : buf.length ≤ d.startCut offset
    · rw [if_pos hone, lastSectorEnd_of_le hss hpos hone]
      exact ⟨Or.inr rfl, iff_of_true rfl (herr₁.mp hhead)⟩
    rw [if_neg hone]
    obtain ⟨hstart, hmid, htail, hle, hend⟩ := cuts_mod hss (Nat.not_le.mp hone)
    have hlen₂ : ((buf₁.drop (d.startCut offset)).take
        (buf.length - d.endOffset buf.length offset - d.startCut offset)).length
        = buf.length - d.endOffset buf.length offset - d.startCut offset := by
      rw [List.length_take, List.length_drop, hbuf₁]
      omega
    have hr₂ := fullReadAt_readFrom hr₁.wf ((buf₁.drop (d.startCut offset)).take
      (buf.length - d.endOffset buf.length offset - d.startCut offset)) (offset + d.startCut offset)
    have herr₂ := fullReadAt_err hr₁.wf ((buf₁.drop (d.startCut offset)).take
      (buf.length - d.endOffset buf.length offset - d.startCut offset)) (offset + d.startCut offset)
      (by rw [hlen₂, hc₁.sectorSize]; exact hmid) (by rw [hc₁.sectorSize]; exact hstart)
    rw [hlen₂, hc₁.headSize, hc₁.size] at herr₂
    generalize head.disk.fullReadAt _ (offset + d.startCut offset) = mid at hr₂ herr₂ ⊢
    have hc₁₂ := hc₁.trans hr₂.caches
    rw [lastSectorEnd]
    cases hmerr : mid.err with
    | some e =>
      rw [hmerr] at herr₂
      refine ⟨Or.inl rfl, iff_of_false (by simp) (fun hlast => ?_)⟩
      refine absurd (herr₂.mpr (fun _ => ?_)) (by simp)
      split at hlast <;> omega
    | none =>
      by_cases heo : 0 < d.endOffset buf.length offset
      · have herr₃ := fullReadAt_err hr₂.wf head.buf
          (offset + buf.length - d.endOffset buf.length offset)
          (by rw [hl₁, hc₁₂.sectorSize, Nat.mod_self]) (by rw [hc₁₂.sectorSize]; exact htail)
        rw [hl₁, imp_iff_right hss, hc₁₂.headSize, hc₁₂.size] at herr₃
        rw [if_pos heo, if_neg (by omega), ← herr₃]
        generalize mid.disk.fullReadAt head.buf _ = tail
        cases tail.err with
        | some e => exact ⟨Or.inl rfl, Iff.rfl⟩
        | none => exact ⟨Or.inr rfl, Iff.rfl⟩
      · rw [if_neg heo, if_pos (by omega)]
        refine ⟨Or.inr rfl, iff_of_true rfl ?_⟩
        have := herr₂.mp hmerr (by omega)
        omega

end

/-! ## Sane counts -/

/-- What `ReadAt` is expected to say about any range. -/
structure SaneRead (d : DiffDisk) (buf : List UInt8) (offset : Nat) : Prop where
  count : 0 ≤ (d.readAt buf offset).n ∧ (d.readAt buf offset).n ≤ buf.length
  err : (d.readAt buf offset).err = none ↔ offset + buf.length ≤ d.size
  /-- Whole sectors that cross the end. -/
  crossing : d.Aligned buf.length offset → offset < d.size → d.size < offset + buf.length →
    (d.readAt buf offset).err = some .unexpectedEOF ∧
      (d.readAt buf offset).n = ((d.size - offset : Nat) : Int)

/-- The range lies inside the volume, or it reaches past the head file too and does not start
behind the end of the volume with whole sectors. -/
def Countable (d : DiffDisk) (len offset : Nat) : Prop :=
  offset + len ≤ d.size ∨
    (d.headSize < d.lastSectorEnd len offset ∧ (d.Aligned len offset → offset ≤ d.size))

/-- The volume ends with a sector. -/
theorem lastSectorEnd_le_size (h : d.Wf) (len offset : Nat) :
    d.lastSectorEnd len offset ≤ d.size ↔ offset + len ≤ d.size := by
  have hlt := Nat.mod_lt (len + offset) h.sector_pos
  have hdiv := Nat.div_add_mod (len + offset) d.sectorSize
  unfold lastSectorEnd
  rw [← endOffset] at hlt hdiv
  split
  · exact Iff.rfl
  · refine ⟨fun hle => by omega, fun hle => ?_⟩
    have hq : (len + offset) / d.sectorSize < d.location.length := by
      refine Nat.lt_of_mul_lt_mul_left (a := d.sectorSize) ?_
      rw [Nat.mul_comm _ d.location.length, h.table]
      omega
    have hstep := Nat.mul_le_mul_left d.sectorSize hq
    rw [Nat.mul_comm _ d.location.length, h.table, Nat.mul_succ] at hstep
    omega

/-- A volume of two sectors whose head is the only layer. -/
def twoSectors : DiffDisk := ⟨[0, 0], [File.empty 0, File.empty 8192], 4096, 8192⟩

theorem twoSectors_wf : twoSectors.Wf where
  sector_pos := by decide
  two_le := by decide
  le_256 := by decide
  table := by decide
  ranged := by
    intro s
    match s with
    | 0 => decide
    | 1 => decide
    | s + 2 => exact (by decide : (0 : UInt8).toNat < 2)

end WeftBlock.DiffDisk
