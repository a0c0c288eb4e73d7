import WeftBlock.Controller.RebuildWrites

/-!
# What a write sends to the replicas during a rebuild

While a replica is rebuilt, `writeInWOMode` widens a write to whole sectors: it reads them from an
RW replica, lays the buffer over them and writes them to all replicas at once. The caller still
hears of its own bytes only.

An empty buffer is passed on as it is, wherever it is. Any other write begins and ends at a sector.
-/

namespace WeftBlock

open DataConn Maps

namespace Replicator

variable {β : Type}

/-- **A fan-out write counts all bytes or none**, and all of them if no writer fails. -/
theorem writeAt_count {r : Replicator β} {ts : List (String × β)}
    (hts : r.writers = ts.map (fun t => some t.2)) (hne : r.backendsAvailable = true → ts ≠ [])
    (write : β → Nat × Option Err) (length : Nat) :
    ∃ n err, r.writeAt write length = some (n, err) ∧ n ≤ length ∧ (err = none → n = length) := by
  unfold writeAt
  by_cases hav : r.backendsAvailable = false
  · rw [if_pos hav]
    exact ⟨0, _, rfl, Nat.zero_le _, fun h => absurd h (by simp)⟩
  rw [if_neg hav, multiWriteAt, hts, callAll_some]
  dsimp only
  have hle : (if none ∈ (ts.map (fun t => write t.2)).map (fun a => a.2) then length else 0)
      ≤ length := by
    split
    · exact Nat.le_refl _
    · exact Nat.zero_le _
  by_cases hok : ∀ e ∈ (ts.map (fun t => write t.2)).map (fun a => a.2), e = none
  · rw [if_pos hok]
    refine ⟨_, none, rfl, hle, fun _ => if_pos ?_⟩
    -- there is a writer, and it does not fail
    obtain ⟨t, ht⟩ := List.exists_mem_of_ne_nil _ (hne (Bool.eq_true_of_not_eq_false hav))
    have hmem : (write t.2).2 ∈ (ts.map (fun t => write t.2)).map (fun a => a.2) :=
      List.mem_map.mpr ⟨_, List.mem_map.mpr ⟨t, ht, rfl⟩, rfl⟩
    rw [hok _ hmem] at hmem
    exact hmem
  · rw [if_neg hok]
    exact ⟨_, _, rfl, hle, fun h => absurd h (by simp)⟩

end Replicator

namespace Controller

variable {β : Type}

variable {c : Controller β} {size : Int}

theorem Consistent.writeAt_count (h : Consistent c) (write : β → Nat × Option Err) (length : Nat) :
    ∃ n err, c.backend.writeAt write length = some (n, err) ∧ n ≤ length
      ∧ (err = none → n = length) := by
  obtain ⟨ts, ht⟩ := h.writers
  refine Replicator.writeAt_count ht.handles_eq (fun hav => ?_) write length
  obtain ⟨r, hr, hm⟩ := h.available_iff.mp hav
  obtain ⟨b, _, hin⟩ := h.target_of_mem (by simp) ht hr (by rw [hm]; simp)
  exact List.ne_nil_of_mem hin

/-! ## The sectors around a buffer -/

/-- The content `f` with the buffer laid over it. -/
def overlaid (f : Nat → UInt8) (off : Nat) (b : List UInt8) (p : Nat) : UInt8 :=
  if off ≤ p ∧ p < off + b.length then b.getD (p - off) 0 else f p

/-- What is right to write for a buffer, in a volume of this size that holds `f`. -/
structure Exact (size : Int) (f : Nat → UInt8) (b : List UInt8) (off start : Nat)
    (data : List UInt8) : Prop where
  whole : b ≠ [] → volumeSectorSize ∣ start ∧ volumeSectorSize ∣ data.length
  empty : b = [] → start = off ∧ data = []
  inside : ((start + data.length : Nat) : Int) ≤ size
  covers : start ≤ off ∧ off + b.length ≤ start + data.length
  overlay : data = Slice.span (overlaid f off b) start data.length

theorem exact_whole (f : Nat → UInt8) {b : List UInt8} {off : Nat} (hw : wholeSectors off b.length)
    (hin : ((off + b.length : Nat) : Int) ≤ size) :
    Exact size f b off off b := by
  refine ⟨fun hne => ?_, fun h => ⟨rfl, h⟩, hin, ⟨Nat.le_refl _, Nat.le_refl _⟩, ?_⟩
  · obtain ⟨h1, h2⟩ := hw.resolve_left (fun h => hne (List.length_eq_zero_iff.mp h))
    exact ⟨Nat.dvd_of_mod_eq_zero h1, Nat.dvd_of_mod_eq_zero h2⟩
  · refine Slice.ext_of_lt rfl (Slice.length_span _ _ _) (fun i hi => ?_)
    rw [Slice.getElem?_span, if_pos hi, overlaid, if_pos ⟨by omega, by omega⟩,
      Nat.add_sub_cancel_left, List.getD_eq_getElem?_getD, List.getElem?_eq_getElem hi]
    rfl

theorem readOffsetEnd_le (hsize : (volumeSectorSize : Int) ∣ size) {off length : Nat}
    (hin : ((off + length : Nat) : Int) ≤ size) : (readOffsetEnd off length : Int) ≤ size := by
  unfold readOffsetEnd
  obtain ⟨k, rfl⟩ := hsize
  by_cases h : (off + length) % volumeSectorSize = 0
  · rw [if_pos h]
    exact hin
  · rw [if_neg h]
    simp only [volumeSectorSize] at *
    omega

theorem exact_merged (hsize : (volumeSectorSize : Int) ∣ size) (f : Nat → UInt8) {b : List UInt8}
    {off : Nat} (hw : ¬ wholeSectors off b.length) (hin : ((off + b.length : Nat) : Int) ≤ size) :
    Exact size f b off (readOffsetStart off) (merged f off b) := by
  have hlen := length_merged f off b
  have hadd := readOffsetStart_add off
  have hle := le_readOffsetEnd off b.length
  refine ⟨fun _ => ⟨Nat.dvd_mul_left _ _, ?_⟩, fun h => absurd (Or.inl (by rw [h]; rfl)) hw, ?_,
    ⟨by omega, by omega⟩, ?_⟩
  · have hstart : volumeSectorSize ∣ readOffsetStart off := Nat.dvd_mul_left _ _
    have hend : volumeSectorSize ∣ readOffsetEnd off b.length := by
      unfold readOffsetEnd
      split
      · rename_i h
        exact Nat.dvd_of_mod_eq_zero h
      · exact Nat.dvd_mul_left _ _
    rw [← hlen] at hend
    exact (Nat.dvd_add_right hstart).mp hend
  · rw [hlen]
    exact readOffsetEnd_le hsize hin
  · refine Slice.ext_of_lt rfl (Slice.length_span _ _ _) (fun i hi => ?_)
    have hget := getD_merged f off b (Nat.le_add_right (readOffsetStart off) i) (by omega)
    rw [Nat.add_sub_cancel_left, List.getD_eq_getElem?_getD, List.getElem?_eq_getElem hi] at hget
    rw [Slice.getElem?_span, if_pos hi, List.getElem?_eq_getElem hi, overlaid, ← hget]
    rfl

/-! ## The call -/

/-- The RW replicas that can be read hold `f`. -/
def Holds (c : Controller β) (read : β → Nat → Replicator.ReadAnswer) (f : Nat → UInt8) : Prop :=
  ∀ a d, ⟨a, .RW⟩ ∈ c.replicas → c.handle a = some d → ∀ start, (read d start).err = none →
    ∀ buf, (read d start).fill buf = Slice.span f start buf.length

/-- The call ends with an error before anything is written. -/
def WritesNothing (c : Controller β) (read : β → Nat → Replicator.ReadAnswer) (b : List UInt8)
    (off : Nat) : Prop :=
  ∃ next err, ∀ write, c.writeInWOMode read write b off = some (c.setNext next, 0, some err)

/--
The call writes `data` at `start`, and nothing else: whatever the replicas answer to writes, its
result is that of this one, counted in bytes of the buffer.
-/
def WritesOnce (c : Controller β) (read : β → Nat → Replicator.ReadAnswer) (b : List UInt8)
    (off start : Nat) (data : List UInt8) : Prop :=
  ∃ next, ∀ write, ∃ n m err,
    (c.setNext next).backend.writeAt (fun w => write w data start) data.length = some (n, err)
      ∧ c.writeInWOMode read write b off = some (c.setNext next, m, err)
      ∧ (err = none → m = b.length)
      ∧ (err ≠ none → m ≤ b.length ∧ ∀ i < b.length, i < m ↔ off + i < start + n)

/-- A read that returns no error has been answered by the first replica it asked. -/
theorem readAt_first (h : Consistent c) (read : β → Replicator.ReadAnswer) (buf : List UInt8)
    (hav : c.backend.backendsAvailable = true) :
    ∃ next buf' n err, c.backend.readAt read buf
        = some ({ c.backend with next := next }, buf', n, err)
      ∧ (err = none → ∃ a d, ⟨a, .RW⟩ ∈ c.replicas ∧ c.handle a = some d ∧ (read d).err = none
        ∧ buf' = (read d).fill buf) := by
  obtain ⟨es, hes⟩ := h.built
  obtain ⟨ts, ht⟩ := h.readers
  have hlen : c.backend.readers.length = ts.length := by rw [ht.handles_eq, List.length_map]
  have hpos : 0 < ts.length := hlen ▸ hes.available.mp hav
  have hi : (c.backend.next + 1) % ts.length < ts.length := Nat.mod_lt _ hpos
  obtain ⟨t, hget⟩ : ∃ t, ts[(c.backend.next + 1) % ts.length]? = some t :=
    ⟨_, List.getElem?_eq_getElem hi⟩
  obtain ⟨hd, m, ha, rfl⟩ := (ht.mem_iff t.1 t.2).mp (List.mem_of_getElem? hget)
  have hreader : c.backend.readers[(c.backend.next + 1) % ts.length]? = some (some t.2) := by
    rw [ht.handles_eq, List.getElem?_map, hget]
    rfl
  cases hr : (read t.2).err with
  | none =>
    rw [← hlen] at hreader
    exact ⟨_, _, _, _, Race.readAt_next hav hreader hr buf, fun _ => ⟨t.1, t.2, ha, hd, hr, rfl⟩⟩
  | some e =>
    obtain ⟨k, hk⟩ := Nat.exists_eq_succ_of_ne_zero (Nat.pos_iff_ne_zero.mp hpos)
    have haddr : Replicator.addressOf c.backend.readerIndex ((c.backend.next + 1) % ts.length) = t.1 := by
      rw [ht.addressOf hi, ← Option.some.inj (hget.symm.trans (List.getElem?_eq_getElem hi))]
    have herrs : ReadErrors c read (AList.insert t.1 e ∅) :=
      ReadErrors.insert (fun _ _ hl => absurd hl (by simp)) ha hd hr
    -- the other readers are asked, but the error is kept
    obtain ⟨buf', n, errors, hloop, -, hkept, -⟩ := readLoop_spec ht read k
      (Nat.mod_lt ((c.backend.next + 1) % ts.length + 1) hpos) ((read t.2).fill buf) (read t.2).n
      herrs
    have hne : errors.keys.length ≠ 0 := by
      have hin := hkept t.1 ((AList.mem_insert _).mpr (Or.inl rfl))
      have := List.length_pos_of_mem (AList.mem_keys.mp hin)
      omega
    refine ⟨(c.backend.next + 1) % ts.length, buf', n, some (.backend ⟨errors, ∅⟩), ?_,
      fun hh => absurd hh (by simp)⟩
    have hall : c.backend.readLoop read ts.length ((c.backend.next + 1) % ts.length) buf 0 ∅
        = some (buf', n, errors) := by
      rw [← hloop]
      conv_lhs => rw [hk]
      rw [Replicator.readLoop, ← hk, hreader]
      dsimp only
      rw [hr, haddr, hlen]
    rw [Replicator.readAt, if_neg (by rw [hav]; simp)]
    dsimp only
    rw [hlen, hall]
    dsimp only
    rw [if_pos hne]

/-- The count of a write that was widened to `start`, of which `n` bytes were written. -/
theorem widened_count {off n length m : Nat}
    (hm : m = if n < off % volumeSectorSize then 0
      else if n - off % volumeSectorSize < length then n - off % volumeSectorSize else length) :
    m ≤ length ∧ ∀ i < length, i < m ↔ off + i < readOffsetStart off + n := by
  have hadd := readOffsetStart_add off
  subst hm
  constructor
  · split
    · omega
    · split <;> omega
  · intro i hi
    split
    · omega
    · split <;> omega

/-- Replicas that hold nothing but zeroes. -/
def zeroes : Nat → Nat → Replicator.ReadAnswer := Race.reads (fun _ _ => 0) 0

end Controller

end WeftBlock
