import WeftBlock.Replica.FailedWrite
import WeftBlock.Replica.RemoveIndex

/-!
# What a call leaves of the files

Wherever it reads, a read only fills the cache. A write that meets no fault replaces
whole sectors of the head file and touches no other file (`Overwritten`), and it only
succeeds inside the volume. A new head on top has nothing in it and shows what is below.
-/

namespace WeftBlock.DiffDisk

open Slice

/-! ## Reading -/

/-- **A read only fills the cache**, inside the volume or not. -/
theorem readAt_caches {d : DiffDisk} (h : d.Wf) (buf : List UInt8) (offset : Nat) :
    (d.readAt buf offset).disk.Wf ∧ Caches d (d.readAt buf offset).disk := by
  unfold readAt
  dsimp only
  split
  · exact ⟨h, Caches.refl d⟩
  split
  · exact ⟨(fullReadAt_readFrom h buf offset).wf, (fullReadAt_readFrom h buf offset).caches⟩
  have h1 := fullReadAt_readFrom h (List.replicate d.sectorSize 0) (offset - d.startOffset offset)
  generalize d.fullReadAt (List.replicate d.sectorSize 0) (offset - d.startOffset offset) = head at h1 ⊢
  split
  · exact ⟨h1.wf, h1.caches⟩
  split
  · exact ⟨h1.wf, h1.caches⟩
  generalize ((copyAt buf 0 _).drop (d.startCut offset)).take _ = part
  have h2 := fullReadAt_readFrom h1.wf part (offset + d.startCut offset)
  generalize head.disk.fullReadAt part (offset + d.startCut offset) = mid at h2 ⊢
  have hc2 := h1.caches.trans h2.caches
  split
  · exact ⟨h2.wf, hc2⟩
  split
  · have h3 := fullReadAt_readFrom h2.wf head.buf
      (offset + buf.length - d.endOffset buf.length offset)
    generalize mid.disk.fullReadAt head.buf (offset + buf.length - d.endOffset buf.length offset)
      = tail at h3 ⊢
    split
    · exact ⟨h3.wf, hc2.trans h3.caches⟩
    · exact ⟨h3.wf, hc2.trans h3.caches⟩
  · exact ⟨h2.wf, hc2⟩

/-! ## Writing -/

/-- `g` is `f` after some whole sectors of the volume were written. -/
inductive Overwritten (sectorSize size : Nat) (f : File) : File → Prop
  | refl : Overwritten sectorSize size f f
  | write {g : File} {data : List UInt8} {offset : Nat} : Overwritten sectorSize size f g →
      data.length % sectorSize = 0 → offset % sectorSize = 0 → offset + data.length ≤ size →
      Overwritten sectorSize size f (g.writeAt data offset)

/-- `d'` is `d` with whole sectors of the head overwritten. -/
structure HeadOnly (d d' : DiffDisk) : Prop where
  files : ∃ f, d'.files = d.files.set d.head f ∧ Overwritten d.sectorSize d.size (d.file d.head) f
  sectorSize : d'.sectorSize = d.sectorSize
  size : d'.size = d.size
  length : d'.location.length = d.location.length
  /-- A sector was written whole and is the head's, or it is as it was. -/
  sectors : ∀ s, (d'.layer s = d.head
      ∧ ∀ p, p / d.sectorSize = s → ((d'.file d.head).cell p).isSome)
    ∨ (d'.layer s = d.layer s
      ∧ ∀ p, p / d.sectorSize = s → (d'.file d.head).cell p = (d.file d.head).cell p)

theorem files_set_head {d : DiffDisk} (h : d.Wf) : d.files.set d.head
    (d.file d.head) = d.files := by
  rw [file, List.getD_eq_getElem _ _ (head_lt h), List.set_getElem_self]

theorem HeadOnly.of_caches {d d' : DiffDisk} (h : d.Wf) (hc : Caches d d') : HeadOnly d d' :=
  ⟨⟨_, hc.files.trans (files_set_head h).symm, .refl⟩, hc.sectorSize, hc.size, hc.length,
    fun s => Or.inr ⟨hc.layer s, fun p _ => by rw [hc.file]⟩⟩

theorem Overwritten.trans {sectorSize size : Nat} {f g k : File}
    (h1 : Overwritten sectorSize size f g) (h2 : Overwritten sectorSize size g k) :
    Overwritten sectorSize size f k := by
  induction h2 with
  | refl => exact h1
  | write _ hl ho hv ih => exact .write ih hl ho hv

theorem Overwritten.size_eq {sectorSize size : Nat} {f g : File}
    (h : Overwritten sectorSize size f g) (hsize : size ≤ f.size) : g.size = f.size := by
  induction h with
  | refl => rfl
  | @write g data offset _ _ _ hvol ih =>
    show (if data.length = 0 then g.size else max g.size (offset + data.length)) = f.size
    rw [ih]
    split <;> omega

theorem HeadOnly.trans {d d₁ d₂ : DiffDisk} (h : d.Wf) (h1 : HeadOnly d d₁) (h2 : HeadOnly d₁ d₂) :
    HeadOnly d d₂ := by
  obtain ⟨⟨f, hf, hof⟩, hs, hz, hl, hsec⟩ := h1
  obtain ⟨⟨g, hg, hog⟩, hs', hz', hl', hsec'⟩ := h2
  have hhead : d₁.head = d.head := by rw [head, head, hf, List.length_set]
  have hfile : d₁.file d₁.head = f := by
    rw [file, hf, hhead, List.getD_eq_getElem?_getD, List.getElem?_set_self (head_lt h)]
    rfl
  refine ⟨⟨g, by rw [hg, hf, hhead, List.set_set], hof.trans ?_⟩, hs'.trans hs, hz'.trans hz,
    hl'.trans hl, fun s => ?_⟩
  · rw [hfile, hs, hz] at hog
    exact hog
  · have h' := hsec' s
    rw [hhead, hs] at h'
    rcases h' with hwritten | ⟨hsame, hcells⟩
    · exact Or.inl hwritten
    · rcases hsec s with ⟨hlayer, hsome⟩ | ⟨hlayer, hcell⟩
      · exact Or.inl ⟨hsame.trans hlayer, fun p hp => by rw [hcells p hp]; exact hsome p hp⟩
      · exact Or.inr ⟨hsame.trans hlayer, fun p hp => (hcells p hp).trans (hcell p hp)⟩

section

variable {d : DiffDisk} (h : d.Wf)
include h

section

variable {buf : List UInt8} {offset : Nat}

/-- **A write of whole sectors that succeeds** is inside the volume and only touches the head. -/
theorem fullWriteAt_ok (hok : (d.fullWriteAt buf offset none).err = none) :
    (buf.length = 0 ∨ offset + buf.length ≤ d.size) ∧ (d.fullWriteAt buf offset none).disk.Wf
      ∧ HeadOnly d (d.fullWriteAt buf offset none).disk := by
  by_cases hmod : buf.length % d.sectorSize ≠ 0 ∨ offset % d.sectorSize ≠ 0
  · rw [fullWriteAt, if_pos hmod] at hok
    simp at hok
  obtain ⟨hl, ho⟩ := not_or.mp hmod
  rw [not_not] at hl ho
  rcases Nat.eq_zero_or_pos buf.length with h0 | hpos
  · -- an empty write leaves everything as it is
    have hsame : (d.file d.head).writeAt buf offset = d.file d.head := by
      refine File.ext_cell (if_pos h0) (fun p => ?_)
      show (d.file d.head).putCell buf offset p = _
      rw [File.putCell, if_neg (by omega)]
    have hcopy : copyAt d.location (offset / d.sectorSize)
        (List.replicate (buf.length / d.sectorSize) (UInt8.ofNat (d.files.length - 1)))
        = d.location := by
      rw [h0, Nat.zero_div, List.replicate_zero, copyAt, List.take_nil, List.append_nil,
        List.length_nil, Nat.add_zero, List.take_append_drop]
    have hnone : ¬ 0 < buf.length / d.sectorSize := by rw [h0, Nat.zero_div]; omega
    rw [fullWriteAt, if_neg hmod]
    dsimp only
    rw [if_neg (fun hh => hnone hh.1), head_toNat h]
    dsimp only [File.tryWriteAt]
    rw [hsame, files_set_head h, hcopy]
    exact ⟨Or.inl h0, h, HeadOnly.of_caches h (Caches.refl d)⟩
  have hvol : offset + buf.length ≤ d.size := by
    have h1 := Nat.div_add_mod offset d.sectorSize
    have h2 := Nat.div_add_mod buf.length d.sectorSize
    have hsec : 0 < buf.length / d.sectorSize :=
      Nat.div_pos (Nat.le_of_dvd hpos (Nat.dvd_of_mod_eq_zero hl)) h.sector_pos
    rw [fullWriteAt, if_neg hmod] at hok
    dsimp only at hok
    split at hok
    · simp at hok
    rename_i hin
    have hle := Nat.mul_le_mul_right d.sectorSize
      (show offset / d.sectorSize + buf.length / d.sectorSize ≤ d.location.length by omega)
    rw [h.table, Nat.add_mul, Nat.mul_comm, Nat.mul_comm (buf.length / _)] at hle
    omega
  have hle := sectors_le h hl ho hvol
  rw [fullWriteAt_eq h buf offset none hl ho hvol]
  refine ⟨Or.inr hvol, wf_written h hl ho hvol, ⟨⟨_, rfl, ?_⟩, rfl, rfl,
    length_copyAt (Nat.le_trans (Nat.le_add_right _ _) hle), fun s => ?_⟩⟩
  · rw [kept, List.take_length]
    exact .write .refl hl ho hvol
  rw [file_written h, if_pos rfl, kept, List.take_length]
  by_cases hs : offset / d.sectorSize ≤ s
      ∧ s < offset / d.sectorSize + buf.length / d.sectorSize
  · refine Or.inl ⟨?_, fun p hp => ?_⟩
    · rw [layer, loc_written h hl ho hvol, if_pos hs, if_neg (head_ofNat_ne_zero h), head,
        head_toNat h, head]
    · have hin := (sector_mem_iff h hl ho p).mp (by rw [hp]; exact hs)
      show ((d.file d.head).putCell buf offset p).isSome
      rw [File.putCell, if_pos hin, List.getElem?_eq_getElem (by omega)]
      rfl
  · refine Or.inr ⟨layer_written_of_not_mem h hl ho hvol hs, fun p hp => ?_⟩
    show (d.file d.head).putCell buf offset p = _
    rw [File.putCell, if_neg (fun hin => hs (by
      rw [← hp]
      exact (sector_mem_iff h hl ho p).mpr hin))]

/-- **A read-modify-write that succeeds** is inside the volume and only touches the head. -/
theorem readModifyWrite_ok (hfit : d.startOffset offset + buf.length ≤ d.sectorSize)
    (hok : (d.readModifyWrite buf offset none).err = none) :
    (buf.length = 0 ∨ offset + buf.length ≤ d.size) ∧ (d.readModifyWrite buf offset none).disk.Wf
      ∧ HeadOnly d (d.readModifyWrite buf offset none).disk := by
  unfold readModifyWrite at hok ⊢
  by_cases h0 : buf.length = 0
  · rw [if_pos h0]
    exact ⟨Or.inl h0, h, HeadOnly.of_caches h (Caches.refl d)⟩
  rw [if_neg h0] at hok ⊢
  dsimp only at hok ⊢
  have hr := fullReadAt_readFrom h (List.replicate d.sectorSize 0)
    (offset / d.sectorSize * d.sectorSize)
  generalize d.fullReadAt (List.replicate d.sectorSize 0) (offset / d.sectorSize * d.sectorSize)
    = readOut at hr hok ⊢
  cases he : readOut.err with
  | some e => rw [he] at hok; exact absurd hok (by simp)
  | none =>
    rw [he] at hok
    have hlen : (copyAt readOut.buf (offset % d.sectorSize) buf).length = d.sectorSize := by
      have hbuf := hr.length
      rw [List.length_replicate] at hbuf
      rw [length_copyAt (by rw [hbuf]; exact (Nat.mod_lt _ h.sector_pos).le), hbuf]
    generalize copyAt readOut.buf (offset % d.sectorSize) buf = readBuf at hlen hok ⊢
    cases hwe : (readOut.disk.fullWriteAt readBuf (offset / d.sectorSize * d.sectorSize) none).err with
    | some e => rw [hwe] at hok; exact absurd hok (by simp)
    | none =>
      obtain ⟨hvol, hw, hh⟩ := fullWriteAt_ok hr.wf hwe
      refine ⟨Or.inr ?_, hw, (HeadOnly.of_caches h hr.caches).trans h hh⟩
      rw [hlen, hr.caches.size] at hvol
      have h1 := Nat.div_add_mod offset d.sectorSize
      have := h.sector_pos
      rw [startOffset] at hfit
      rw [Nat.mul_comm] at h1
      omega

/-- **A write that succeeds** is inside the volume and only touches the head. -/
theorem writeAt_ok (hok : (d.writeAt buf offset (fun _ => none)).err = none) :
    (buf.length = 0 ∨ offset + buf.length ≤ d.size)
      ∧ (d.writeAt buf offset (fun _ => none)).disk.Wf
      ∧ HeadOnly d (d.writeAt buf offset (fun _ => none)).disk := by
  have heo := endOffset_lt h buf.length offset
  have hsum := startCut_add h offset
  unfold writeAt at hok ⊢
  dsimp only at hok ⊢
  by_cases h0 : buf.length = 0
  · rw [if_pos h0]
    exact ⟨Or.inl h0, h, HeadOnly.of_caches h (Caches.refl d)⟩
  rw [if_neg h0] at hok ⊢
  by_cases hal : d.startOffset offset = 0 ∧ d.endOffset buf.length offset = 0
  · rw [if_pos hal] at hok ⊢
    exact fullWriteAt_ok h hok
  rw [if_neg hal] at hok ⊢
  by_cases hcut : buf.length ≤ d.startCut offset
  · rw [if_pos hcut] at hok ⊢
    exact readModifyWrite_ok h (by omega) hok
  rw [if_neg hcut] at hok ⊢
  obtain ⟨-, -, htail, hle, hend⟩ := cuts_mod h.sector_pos (Nat.lt_of_not_le hcut)
  cases he1 : (d.readModifyWrite (buf.take (d.startCut offset)) offset none).err with
  | some e => rw [he1] at hok; exact absurd hok (by simp)
  | none =>
    rw [he1] at hok
    obtain ⟨-, hw1, hh1⟩ := readModifyWrite_ok h
      (by rw [List.length_take]; omega) he1
    generalize (d.readModifyWrite (buf.take (d.startCut offset)) offset none) = start at hw1 hh1 hok ⊢
    cases he2 : (start.disk.fullWriteAt ((buf.drop (d.startCut offset)).take
        (buf.length - d.endOffset buf.length offset - d.startCut offset))
        (offset + d.startCut offset) none).err with
    | some e => rw [he2] at hok; exact absurd hok (by simp)
    | none =>
      rw [he2] at hok
      obtain ⟨hvol2, hw2, hh2⟩ := fullWriteAt_ok hw1 he2
      rw [List.length_take, List.length_drop, hh1.size] at hvol2
      generalize (start.disk.fullWriteAt ((buf.drop (d.startCut offset)).take
        (buf.length - d.endOffset buf.length offset - d.startCut offset))
        (offset + d.startCut offset) none) = middle at hw2 hh2 hok ⊢
      have hh12 := hh1.trans h hh2
      cases he3 : (middle.disk.readModifyWrite
          (buf.drop (buf.length - d.endOffset buf.length offset))
          (offset + buf.length - d.endOffset buf.length offset) none).err with
      | some e => rw [he3] at hok; exact absurd hok (by simp)
      | none =>
        obtain ⟨hvol3, hw3, hh3⟩ := readModifyWrite_ok hw2 (by
          rw [startOffset, hh12.sectorSize, htail, List.length_drop]; omega) he3
        rw [List.length_drop, hh12.size] at hvol3
        exact ⟨Or.inr (by omega), hw3, hh12.trans h hh3⟩

end

end

/-! ## A new head -/

/-- `d'` is `d` with an empty file on top. -/
structure OnTop (d d' : DiffDisk) (size : Nat) : Prop where
  files : d'.files = d.files ++ [File.empty size]
  sectorSize : d'.sectorSize = d.sectorSize
  loc : ∀ s, d'.loc s = d.loc s

section OnTop

variable {d d' : DiffDisk} {size : Nat}

theorem OnTop.length (ht : OnTop d d' size) : d'.files.length = d.files.length + 1 := by
  rw [ht.files, List.length_append]
  rfl

theorem OnTop.file (ht : OnTop d d' size) {i : Nat} (hi : i < d.files.length) :
    d'.file i = d.file i := by
  rw [DiffDisk.file, DiffDisk.file, ht.files, List.getD_eq_getElem?_getD,
    List.getD_eq_getElem?_getD, List.getElem?_append_left hi]

theorem OnTop.file_new (ht : OnTop d d' size) : d'.file d.files.length = File.empty size := by
  rw [DiffDisk.file, ht.files, List.getD_eq_getElem?_getD,
    List.getElem?_append_right (Nat.le_refl _), Nat.sub_self]
  rfl

theorem OnTop.topmost (h : d.Wf) (ht : OnTop d d' size) (s : Nat) : d'.topmost s = d.topmost s := by
  have hlt := topmost_lt h s
  have hlen := ht.length
  refine topmost_eq (one_le_topmost d s) (by omega) (fun h1 => ?_) (fun i hi hin => ?_)
  · rw [owns, ht.file hlt, ht.sectorSize]
    exact owns_topmost h1
  · rcases Nat.lt_or_ge i d.files.length with hlt' | hge
    · rw [owns, ht.file hlt', ht.sectorSize]
      exact owns_above_topmost hi hlt'
    · obtain rfl : i = d.files.length := by omega
      rw [owns, ht.file_new]
      exact Bool.eq_false_iff.mpr (fun ho => by
        obtain ⟨q, -, -, hq⟩ := File.hasExtent_iff.mp ho
        exact absurd hq (by simp [File.empty]))

theorem OnTop.layer (h : d.Wf) (h' : d'.Wf) (ht : OnTop d d' size) (s : Nat) :
    d'.layer s = d.layer s := by
  rw [DiffDisk.layer, DiffDisk.layer, ht.loc, found_toNat h, found_toNat h', ht.topmost h]

/-- **An empty file on top changes nothing that is read.** -/
theorem OnTop.content (h : d.Wf) (h' : d'.Wf) (ht : OnTop d d' size) (p : Nat) :
    d'.content p = d.content p := by
  rw [DiffDisk.content, DiffDisk.content, ht.sectorSize, ht.layer h h', ht.file (layer_lt h _)]

end OnTop

end WeftBlock.DiffDisk
