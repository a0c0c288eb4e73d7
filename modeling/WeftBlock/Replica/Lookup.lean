import WeftBlock.Replica.DiffDisk

/-!
# What a lookup resolves to

`lookup` answers from the location table when it can and from `Fiemap` when it
cannot, and writes the answer back. Both answers are one function of the disk,
`layer`, and writing the answer back does not change that function. So the cache
never has to be mentioned again: a disk whose cache has been filled further
(`Caches`) has the same files and the same `layer`, hence the same `content`.

`layer` trusts the table. What the table should say is `topmost`, read off the
files alone, and a table is `Exact` when each entry it has agrees with it.
-/

namespace WeftBlock.DiffDisk

open Slice

/-- The shape of an open disk: a base and a head, few enough for byte indexes, a full table. -/
structure Wf (d : DiffDisk) : Prop where
  sector_pos : 0 < d.sectorSize
  two_le : 2 ≤ d.files.length
  /-- Every file index fits the bytes of the table. -/
  le_256 : d.files.length ≤ 256
  /-- One entry per sector, and the volume is a whole number of sectors. -/
  table : d.location.length * d.sectorSize = d.size
  /-- Known entries name files. -/
  ranged : ∀ s, (d.loc s).toNat < d.files.length

/-- The file index a sector resolves to. -/
def layer (d : DiffDisk) (s : Nat) : Nat :=
  if d.loc s = 0 then (d.found s).toNat else (d.loc s).toNat

/-- Position `p` lies inside the file its sector resolves to. -/
def covered (d : DiffDisk) (p : Nat) : Prop := p < (d.file (d.layer (p / d.sectorSize))).size

instance (d : DiffDisk) (p : Nat) : Decidable (d.covered p) := Nat.decLt _ _

/-- The byte of the volume at `p`, zero past the end of the file it resolves to. -/
def content (d : DiffDisk) (p : Nat) : UInt8 :=
  (d.file (d.layer (p / d.sectorSize))).byteAt p

/-- The top-most file above the base with an extent in the sector, else the base. -/
def topmost (d : DiffDisk) (s : Nat) : Nat :=
  max 1 (Nat.findGreatest (fun i => 1 < i ∧ d.owns i s = true) (d.files.length - 1))

/-- Every entry the table has is the one the files call for. -/
def Exact (d : DiffDisk) : Prop :=
  ∀ s, s < d.location.length → d.loc s ≠ 0 → (d.loc s).toNat = d.topmost s

/-- `d'` is `d` with more of its cache filled in. -/
structure Caches (d d' : DiffDisk) : Prop where
  files : d'.files = d.files
  sectorSize : d'.sectorSize = d.sectorSize
  size : d'.size = d.size
  length : d'.location.length = d.location.length
  layer : ∀ s, d'.layer s = d.layer s

variable {d : DiffDisk}

theorem content_of_not_covered {p : Nat} (h : ¬ d.covered p) : d.content p = 0 :=
  File.byteAt_of_size_le (Nat.not_lt.mp h)

/-! ## The scan -/

/-- The scan stops at the greatest owner it passes. -/
theorem scan_eq (d : DiffDisk) (s : Nat) : ∀ n,
    d.scan s n = if Nat.findGreatest (fun i => 1 < i ∧ d.owns i s = true) n = 0 then none
      else some (Nat.findGreatest (fun i => 1 < i ∧ d.owns i s = true) n)
  | 0 => by simp [scan]
  | n + 1 => by
    rw [scan, Nat.findGreatest_succ]
    by_cases hn : n = 0
    · subst hn; simp
    · rw [if_neg hn]
      by_cases ho : d.owns (n + 1) s = true
      · have hp : 1 < n + 1 ∧ d.owns (n + 1) s = true := ⟨by omega, ho⟩
        rw [if_pos ho, if_pos hp, if_neg (by omega)]
      · have hp : ¬ (1 < n + 1 ∧ d.owns (n + 1) s = true) := fun h => ho h.2
        rw [if_neg ho, if_neg hp]
        exact scan_eq d s n

variable {s : Nat}

/-- Resolution from the files only asks who owns the sector. -/
theorem found_of_owns {d d' : DiffDisk} (hl : d'.files.length = d.files.length)
    (ho : ∀ i, d'.owns i s = d.owns i s) : d'.found s = d.found s := by
  rw [found, found, scan_eq, scan_eq, hl]
  simp only [ho]

/-- Resolution from the files never looks at the table. -/
theorem found_congr {d d' : DiffDisk} (hf : d'.files = d.files)
    (hs : d'.sectorSize = d.sectorSize) (s : Nat) : d'.found s = d.found s :=
  found_of_owns (by rw [hf]) (fun i => by rw [owns, owns, file, file, hf, hs])

theorem topmost_lt (h : d.Wf) (s : Nat) : d.topmost s < d.files.length := by
  have h1 := h.two_le
  have h2 := Nat.findGreatest_le (P := fun i => 1 < i ∧ d.owns i s = true) (d.files.length - 1)
  rw [topmost]
  omega

theorem one_le_topmost (d : DiffDisk) (s : Nat) : 1 ≤ d.topmost s := Nat.le_max_left _ _

theorem le_topmost {i s : Nat} (h1 : 1 < i) (h2 : i < d.files.length)
    (ho : d.owns i s = true) : i ≤ d.topmost s :=
  Nat.le_trans (Nat.le_findGreatest (by omega) ⟨h1, ho⟩) (Nat.le_max_right _ _)

/-- The top-most file owns the sector unless it is the base. -/
theorem owns_topmost (h : d.topmost s ≠ 1) :
    d.owns (d.topmost s) s = true := by
  have hg : d.topmost s
      = Nat.findGreatest (fun i => 1 < i ∧ d.owns i s = true) (d.files.length - 1) := by
    rw [topmost] at h ⊢
    omega
  rw [hg]
  exact (Nat.findGreatest_of_ne_zero (P := fun i => 1 < i ∧ d.owns i s = true) rfl
    (by rw [← hg]; have := one_le_topmost d s; omega)).2

/-- What an unknown sector is resolved to is the top-most file. -/
theorem found_toNat (h : d.Wf) (s : Nat) : (d.found s).toNat = d.topmost s := by
  have hlt := topmost_lt h s
  have h256 := h.le_256
  unfold found
  rw [scan_eq]
  unfold topmost at hlt ⊢
  by_cases hz : Nat.findGreatest (fun i => 1 < i ∧ d.owns i s = true) (d.files.length - 1) = 0
  · rw [if_pos hz, hz]
    decide
  · rw [if_neg hz]
    have hb : (UInt8.ofNat (Nat.findGreatest (fun i => 1 < i ∧ d.owns i s = true)
        (d.files.length - 1))).toNat
        = Nat.findGreatest (fun i => 1 < i ∧ d.owns i s = true) (d.files.length - 1) := by
      rw [UInt8.toNat_ofNat']
      exact Nat.mod_eq_of_lt (by omega)
    dsimp only
    rw [if_neg (fun he => hz (by rw [← hb, he]; rfl)), hb]
    omega

theorem found_ne_zero (h : d.Wf) (s : Nat) : d.found s ≠ 0 := by
  intro he
  have h1 := found_toNat h s
  have h2 := one_le_topmost d s
  rw [he] at h1
  have : (0 : UInt8).toNat = 0 := rfl
  omega

theorem layer_lt (h : d.Wf) (s : Nat) : d.layer s < d.files.length := by
  unfold layer
  split
  · rw [found_toNat h]; exact topmost_lt h s
  · exact h.ranged s

/-- With an exact table every sector resolves to its top-most file. -/
theorem layer_of_exact (h : d.Wf) (he : d.Exact)
    (hs : s < d.location.length) : d.layer s = d.topmost s := by
  unfold layer
  split
  · exact found_toNat h s
  · rename_i hl; exact he s hs hl

/-! ## Filling the cache -/

theorem Caches.refl (d : DiffDisk) : Caches d d := ⟨rfl, rfl, rfl, rfl, fun _ => rfl⟩

theorem Caches.trans {a b c : DiffDisk} (h1 : Caches a b) (h2 : Caches b c) : Caches a c :=
  ⟨h2.files.trans h1.files, h2.sectorSize.trans h1.sectorSize, h2.size.trans h1.size,
    h2.length.trans h1.length, fun s => (h2.layer s).trans (h1.layer s)⟩

section

variable {d d' : DiffDisk} (h : Caches d d')
include h

theorem Caches.file (i : Nat) : d'.file i = d.file i := by
  rw [DiffDisk.file, DiffDisk.file, h.files]

theorem Caches.covered (p : Nat) :
    d'.covered p ↔ d.covered p := by
  rw [DiffDisk.covered, DiffDisk.covered, h.sectorSize, h.layer, h.file]

theorem Caches.content (p : Nat) :
    d'.content p = d.content p := by
  rw [DiffDisk.content, DiffDisk.content, h.sectorSize, h.layer, h.file]

end

/-- Writing the resolved entry back changes no resolution. -/
theorem caches_set (h : d.Wf) (h0 : d.loc s = 0) :
    Caches d { d with location := d.location.set s (d.found s) } := by
  refine ⟨rfl, rfl, rfl, by simp, fun t => ?_⟩
  have hfound : ∀ t, found { d with location := d.location.set s (d.found s) } t = d.found t :=
    fun t => by apply found_congr <;> rfl
  rcases Nat.lt_or_ge s d.location.length with hs | hs
  · by_cases hst : t = s
    · subst hst
      have hloc : loc { d with location := d.location.set t (d.found t) } t = d.found t := by
        rw [loc, List.getD_eq_getElem?_getD, List.getElem?_set_self hs]; rfl
      rw [layer, layer, hloc, if_neg (found_ne_zero h t), if_pos h0]
    · have hloc : loc { d with location := d.location.set s (d.found s) } t = d.loc t := by
        rw [loc, loc, List.getD_eq_getElem?_getD, List.getD_eq_getElem?_getD,
          List.getElem?_set_ne (Ne.symm hst)]
      rw [layer, layer, hloc, hfound]
  · have hset : d.location.set s (d.found s) = d.location := List.set_eq_of_length_le hs
    rw [hset]

theorem Caches.wf_set (h : d.Wf) (s : Nat) :
    Wf { d with location := d.location.set s (d.found s) } := by
  refine ⟨h.sector_pos, h.two_le, h.le_256, by simpa using h.table, fun t => ?_⟩
  show ((d.location.set s (d.found s)).getD t 0).toNat < d.files.length
  rw [List.getD_eq_getElem?_getD, List.getElem?_set]
  split
  · split
    · show (d.found s).toNat < _
      rw [found_toNat h]
      exact topmost_lt h s
    · show (0 : UInt8).toNat < _
      have := h.two_le
      have : (0 : UInt8).toNat = 0 := rfl
      omega
  · rw [← List.getD_eq_getElem?_getD]
    exact h.ranged t

/-- **`lookup` inside the table** answers with the sector's layer and only fills the cache. -/
theorem lookup_spec (h : d.Wf) (hs : s < d.location.length) :
    ∃ d' t, d.lookup s = (d', .ok t) ∧ t.toNat = d.layer s ∧ d'.Wf ∧ Caches d d' := by
  unfold lookup
  rw [if_neg (by omega), if_neg (by have := h.two_le; omega)]
  by_cases h0 : d.loc s = 0
  · rw [if_pos h0]
    exact ⟨_, _, rfl, by rw [layer, if_pos h0], Caches.wf_set h s, caches_set h h0⟩
  · rw [if_neg h0]
    exact ⟨_, _, rfl, by rw [layer, if_neg h0], h, Caches.refl d⟩

end WeftBlock.DiffDisk
