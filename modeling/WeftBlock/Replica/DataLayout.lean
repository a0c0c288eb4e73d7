import WeftBlock.Replica.Replica

/-!
# The data layout of a volume

`GetDataLayout` of `pkg/replica/replica.go` goes through the location table once and sends an
interval each time the kind of the sectors changes, and one for what is left at the end. It starts
with an empty hole in hand, which is not sent.
-/

namespace WeftBlock

/-- `sparse.FileIntervalKind`, which the sector types 0 and 1 stand for. -/
inductive FileIntervalKind
  | hole
  | data
deriving DecidableEq

/-- `sparse.FileInterval`. -/
structure FileInterval where
  kind : FileIntervalKind
  begins : Nat
  ends : Nat
deriving DecidableEq

/-- `getSectorType`, with 1 for `baseDiskIndex`. -/
def getSectorType (diskIndex : UInt8) : FileIntervalKind :=
  if 1 ≤ diskIndex then .data else .hole

/-- An interval is sent unless it is empty. -/
def sendInterval (kind : FileIntervalKind) (lastOffset offset : Nat) : List FileInterval :=
  if lastOffset < offset then [⟨kind, lastOffset, offset⟩] else []

/-- The loop over the table: what it sends, `lastOffset` and `lastSectorType`. -/
def layoutLoop (sectorSize : Nat) : List UInt8 → Nat → Nat → FileIntervalKind →
    List FileInterval × Nat × FileIntervalKind
  | [], _, lastOffset, last => ([], lastOffset, last)
  | diskIndex :: rest, i, lastOffset, last =>
      let offset := i * sectorSize
      let current := getSectorType diskIndex
      if current ≠ last then
        let out := layoutLoop sectorSize rest (i + 1) offset current
        (sendInterval last lastOffset offset ++ out.1, out.2)
      else layoutLoop sectorSize rest (i + 1) lastOffset last

/-- `GetDataLayout`: what is sent, if the context is not cancelled. -/
def Volume.getDataLayout (v : Volume) : List FileInterval :=
  let out := layoutLoop v.sectorSize v.location 0 0 .hole
  out.1 ++ sendInterval out.2.2 out.2.1 v.size

/-! ## Intervals that cover a range of sectors -/

/-- The first interval begins at `b`, each other one where the one before ends, and the last
ends at `e`. None is empty. -/
def Tiles : Nat → Nat → List FileInterval → Prop
  | b, e, [] => b = e
  | b, e, i :: l => i.begins = b ∧ b < i.ends ∧ Tiles i.ends e l

/-- The sector lies in the interval. -/
def FileInterval.Holds (sectorSize : Nat) (i : FileInterval) (s : Nat) : Prop :=
  i.begins ≤ s * sectorSize ∧ (s + 1) * sectorSize ≤ i.ends

/-- The intervals are those of the sectors from `first` up to `stop`, of the given kinds. -/
structure Laid (sectorSize first stop : Nat) (kindAt : Nat → FileIntervalKind)
    (l : List FileInterval) : Prop where
  tiles : Tiles (first * sectorSize) (stop * sectorSize) l
  alternate : l.IsChain (fun i j => i.kind ≠ j.kind)
  head : ∀ i ∈ l.head?, i.kind = kindAt first
  data : ∀ s, first ≤ s → s < stop →
    ((∃ i ∈ l, i.kind = .data ∧ i.Holds sectorSize s) ↔ kindAt s = .data)

theorem Tiles.le_begins {b e : Nat} {l : List FileInterval} (h : Tiles b e l) :
    ∀ i ∈ l, b ≤ i.begins := by
  induction l generalizing b with
  | nil => simp
  | cons j l ih =>
    obtain ⟨hb, hlt, hl⟩ := h
    intro i hi
    rcases List.mem_cons.mp hi with rfl | hi
    · exact hb.ge
    · exact Nat.le_trans hlt.le (ih hl i hi)

section

variable {sectorSize first mid stop : Nat} {kindAt : Nat → FileIntervalKind}
  (hpos : 0 < sectorSize)
include hpos

/-- A run of sectors of one kind in front of intervals that begin with the other. -/
theorem Laid.cons {l : List FileInterval} {kind : FileIntervalKind}
    (h : Laid sectorSize mid stop kindAt l) (hlt : first < mid)
    (hrun : ∀ s, first ≤ s → s < mid → kindAt s = kind) (hne : l = [] ∨ kindAt mid ≠ kind) :
    Laid sectorSize first stop kindAt (⟨kind, first * sectorSize, mid * sectorSize⟩ :: l) := by
  refine ⟨⟨rfl, Nat.mul_lt_mul_of_pos_right hlt hpos, h.tiles⟩,
    List.isChain_cons.mpr ⟨fun i hi heq => ?_, h.alternate⟩, fun i hi => ?_, fun s h1 h2 => ?_⟩
  · rcases hne with rfl | hne
    · simp at hi
    · exact hne ((h.head i hi).symm.trans heq.symm)
  · obtain rfl : _ = i := by simpa using hi
    exact (hrun first (Nat.le_refl _) hlt).symm
  rw [List.exists_mem_cons_iff]
  rcases Nat.lt_or_ge s mid with hs | hs
  · -- the later intervals begin behind this sector
    have hbehind : ¬ ∃ i ∈ l, i.kind = .data ∧ i.Holds sectorSize s := by
      rintro ⟨i, hi, -, hb, -⟩
      have h3 := h.tiles.le_begins i hi
      have h4 := Nat.mul_lt_mul_of_pos_right hs hpos
      omega
    rw [or_iff_left hbehind, hrun s h1 hs]
    exact and_iff_left ⟨Nat.mul_le_mul_right _ h1, Nat.mul_le_mul_right _ hs⟩
  · have hbefore : ¬ (s + 1) * sectorSize ≤ mid * sectorSize := fun hle =>
      absurd (Nat.le_of_mul_le_mul_right hle hpos) (by omega)
    rw [or_iff_right (fun hh => hbefore hh.2.2)]
    exact h.data s hs h2

variable (kindAt) in
/--
**The loop and what is sent after it**, from any sector on. The sectors from `first` on are in
hand, all of one kind and not sent yet. The induction is on the rest of the table.
-/
theorem laid_layoutLoop (rest : List UInt8) : ∀ (i first : Nat) (last : FileIntervalKind),
    first ≤ i → (∀ s, first ≤ s → s < i → kindAt s = last) →
    (∀ j d, rest[j]? = some d → kindAt (i + j) = getSectorType d) →
    Laid sectorSize first (i + rest.length) kindAt
      ((layoutLoop sectorSize rest i (first * sectorSize) last).1
        ++ sendInterval (layoutLoop sectorSize rest i (first * sectorSize) last).2.2
          (layoutLoop sectorSize rest i (first * sectorSize) last).2.1
          ((i + rest.length) * sectorSize)) := by
  have hsend : ∀ {i first stop last l}, first ≤ i →
      (∀ s, first ≤ s → s < i → kindAt s = last) → Laid sectorSize i stop kindAt l →
      (l = [] ∨ kindAt i ≠ last) → Laid sectorSize first stop kindAt
        (sendInterval last (first * sectorSize) (i * sectorSize) ++ l) := by
    intro i first stop last l hle hrun h hne
    unfold sendInterval
    rcases Nat.lt_or_eq_of_le hle with hlt | rfl
    · rw [if_pos (Nat.mul_lt_mul_of_pos_right hlt hpos)]
      exact h.cons hpos hlt hrun hne
    · rw [if_neg (Nat.lt_irrefl _)]
      exact h
  induction rest with
  | nil =>
    intro i first last hle hrun _
    have hnil : Laid sectorSize i i kindAt [] :=
      ⟨rfl, List.isChain_nil, by simp, fun s h1 h2 => absurd h2 (Nat.not_lt.mpr h1)⟩
    have h := hsend hle hrun hnil (Or.inl rfl)
    rwa [List.append_nil] at h
  | cons d rest ih =>
    intro i first last hle hrun hrest
    have hcur : kindAt i = getSectorType d := hrest 0 d rfl
    have hrest' : ∀ j d', rest[j]? = some d' → kindAt (i + 1 + j) = getSectorType d' := by
      intro j d' hj
      rw [← hrest (j + 1) d' hj]
      congr 1
      omega
    rw [layoutLoop, List.length_cons, show i + (rest.length + 1) = i + 1 + rest.length by omega]
    dsimp only
    by_cases hne : getSectorType d ≠ last
    · rw [if_pos hne, List.append_assoc]
      refine hsend hle hrun (ih (i + 1) i _ (by omega) (fun s h1 h2 => ?_) hrest')
        (Or.inr (hcur ▸ hne))
      rw [show s = i by omega, hcur]
    · rw [if_neg hne]
      refine ih (i + 1) first last (by omega) (fun s h1 h2 => ?_) hrest'
      rcases Nat.lt_or_ge s i with hs | hs
      · exact hrun s h1 hs
      · rw [show s = i by omega, hcur, not_not.mp hne]

end

/-! ## The whole volume -/

/-- What the layout of a volume is to be. -/
structure Partition (v : Volume) (l : List FileInterval) : Prop where
  tiles : Tiles 0 v.size l
  alternate : l.IsChain (fun i j => i.kind ≠ j.kind)
  data : ∀ s d, v.location[s]? = some d →
    ((∃ i ∈ l, i.kind = .data ∧ i.Holds v.sectorSize s) ↔ d ≠ 0)

theorem getSectorType_eq_data (d : UInt8) : getSectorType d = .data ↔ d ≠ 0 := by
  have hone : 1 ≤ d ↔ d ≠ 0 := by
    rw [UInt8.le_iff_toNat_le, ne_eq, ← UInt8.toNat_inj]
    exact Nat.one_le_iff_ne_zero
  rw [getSectorType, ← hone]
  split <;> simp_all

end WeftBlock
