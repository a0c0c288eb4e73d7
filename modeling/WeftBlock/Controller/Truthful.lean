import WeftBlock.Controller.ReadRace

/-!
# Which I/O errors are told

After a write that some replicas failed, `handleErrorNoLock` decides which of them go to ERR and
what the caller is told: nothing if some RW replica has the data, and that there is no space left
if all RW replicas ran out of it. Replicas that ran out of space at the same byte stay RW, so that
the volume can still be read.

Whether all RW replicas are out of space is counted after the others have gone to ERR. If they are
all gone, none is left that is not out of space: a WO replica that is makes the caller hear of
missing space from a volume without any RW replica.
-/

namespace WeftBlock

open DataConn Maps

namespace Controller

variable {β : Type}

/-- The replica did not fail, or only for lack of space. -/
def Survives (e : BackendError) (r : Replica) : Prop :=
  ∀ x, e.errors.lookup r.address = some x → isFull x = true

/-- What the caller is told is true, and the modes are as they should be. -/
structure Truthful (c : Controller β) (e : BackendError) (c' : Controller β) (err : Option IOErr) :
    Prop where
  told_nothing : err = none → ∃ r ∈ c.replicas, r.mode = .RW ∧ r.address ∉ e.errors
  told_noSpace : err = some .noSpaceLeftOnDevice → (∃ r ∈ c'.replicas, r.mode = .RW)
    ∧ ∃ n, ∀ r ∈ c'.replicas, r.mode = .RW → ∃ x, e.errors.lookup r.address = some x
      ∧ isFull x = true ∧ (e.writtenBytes.lookup r.address).getD 0 = n
  /-- A replica that failed is ERR, or one of those that are told to be out of space. -/
  failed : ∀ r ∈ c.replicas, r.address ∈ e.errors → ⟨r.address, .ERR⟩ ∈ c'.replicas
    ∨ err = some .noSpaceLeftOnDevice ∧ ⟨r.address, .RW⟩ ∈ c'.replicas
  others : ∀ r ∈ c.replicas, r.address ∉ e.errors → r ∈ c'.replicas
  kept : (∃ r ∈ c.replicas, r.mode = .RW ∧ Survives e r) → ∃ r ∈ c'.replicas, r.mode = .RW

/-- If some replica is out of space, then some RW replica has not failed otherwise. -/
def SomeSurvives (c : Controller β) (e : BackendError) : Prop :=
  (∃ a x, e.errors.lookup a = some x ∧ isFull x = true) →
    ∃ r ∈ c.replicas, r.mode = .RW ∧ Survives e r

section Outcome

variable {c c₁ c₂ : Controller β} {e : BackendError} {existing : Finset String}
  {noSpace : AList (fun _ : String => Nat)} {plain : List String} {order : MapOrder}

/-- The RW replicas that are left after the loop are those that did not fail otherwise. -/
theorem Sifted.rw_survives (h : Sifted c c₁ e existing noSpace plain)
    (hno : ∀ a x, e.errors.lookup a = some x → isSnapshotDiskExist x = false) (a : String) :
    ⟨a, .RW⟩ ∈ c₁.replicas ↔ ⟨a, .RW⟩ ∈ c.replicas ∧ Survives e ⟨a, .RW⟩ := by
  rw [h.rw_iff]
  refine and_congr_right (fun _ => ⟨fun hout x hx => ?_, fun hsur hin => ?_⟩)
  · refine (isPlain_or_isFull (hno a x hx)).resolve_left (fun hp => hout ?_)
    exact (h.plain_iff a).mpr ⟨x, hx, hp⟩
  · obtain ⟨x, hx, hp⟩ := (h.plain_iff a).mp hin
    have hf := hsur x hx
    rw [isFull_of_isPlain hp] at hf
    simp at hf

/-- A replica that failed goes to ERR, or is kept with all RW replicas out of space. -/
theorem Sifted.failed (h : Sifted c c₁ e existing noSpace plain) (order : MapOrder)
    (hno : ∀ a x, e.errors.lookup a = some x → isSnapshotDiskExist x = false) {r : Replica}
    (hr : r ∈ c.replicas) (hm : r.mode ≠ .ERR) (hin : r.address ∈ e.errors) :
    r.address ∈ plain ++ (noSpaceMarks order c₁.replicas noSpace).1
      ∨ (noSpaceMarks order c₁.replicas noSpace).2 = true ∧ ⟨r.address, .RW⟩ ∈ c₁.replicas
        ∧ r.address ∉ (noSpaceMarks order c₁.replicas noSpace).1 := by
  obtain ⟨x, hx⟩ := (mem_iff_lookup _ _).mp hin
  by_cases hp : r.address ∈ plain
  · exact Or.inl (List.mem_append_left _ hp)
  have hfull : isFull x = true := (isPlain_or_isFull (hno _ x hx)).resolve_left
    (fun hplain => hp ((h.plain_iff _).mpr ⟨x, hx, hplain⟩))
  have hns : r.address ∈ noSpace := (h.noSpace_iff _).mpr ⟨x, hx, hfull⟩
  have hr₁ : ⟨r.address, r.mode⟩ ∈ c₁.replicas := by
    rw [h.moded.replicas]
    exact (mem_map_markErr hm).mpr ⟨hr, hp⟩
  have hmarks := @mem_noSpaceMarks _ _ h.moded.consistent order noSpace r.address
  cases hmode : r.mode with
  | ERR => exact absurd hmode hm
  | WO =>
    refine Or.inl (List.mem_append_right _ (hmarks.mpr (Or.inl ?_)))
    exact mem_among.mpr ⟨hmode ▸ hr₁, hns⟩
  | RW =>
    by_cases hmark : r.address ∈ (noSpaceMarks order c₁.replicas noSpace).1
    · exact Or.inl (List.mem_append_right _ hmark)
    · refine Or.inr ⟨?_, hmode ▸ hr₁, hmark⟩
      by_contra hall
      exact hmark (hmarks.mpr (Or.inr
        ⟨mem_among.mpr ⟨hmode ▸ hr₁, hns⟩, fun ht => absurd ht hall⟩))

/-- If all RW replicas are out of space and there are some, then those are kept that agree. -/
theorem kept_agree (h : Consistent c₁) (hall : (noSpaceMarks order c₁.replicas noSpace).2 = true)
    (hrw : ∃ a, ⟨a, .RW⟩ ∈ c₁.replicas) :
    (∃ a, ⟨a, .RW⟩ ∈ c₁.replicas ∧ a ∉ (noSpaceMarks order c₁.replicas noSpace).1)
      ∧ ∃ n, ∀ a, ⟨a, .RW⟩ ∈ c₁.replicas → a ∉ (noSpaceMarks order c₁.replicas noSpace).1 →
        noSpace.lookup a = some n := by
  have hfull : ∀ a, ⟨a, .RW⟩ ∈ c₁.replicas → a ∈ noSpace := fun a ha =>
    ((noSpaceMarks_all_iff h order noSpace).mp hall).2 _ ha rfl
  have hmarks : ∀ a, ⟨a, .RW⟩ ∈ c₁.replicas → (a ∈ (noSpaceMarks order c₁.replicas noSpace).1 ↔
      (categorizeOutOfSpaceReplicas noSpace c₁.replicas).1 ≠ 1 ∧ a ∉ getRetainedReplicasMap order
        (categorizeOutOfSpaceReplicas noSpace c₁.replicas).2.1) := by
    intro a ha
    rw [mem_noSpaceMarks h order]
    constructor
    · intro hor
      rcases hor with hwo | ⟨-, hkept⟩
      · have := h.eq_of_address ha (mem_among.mp hwo).1 rfl
        exact absurd (Replica.mk.inj this).2 (by simp)
      · exact hkept hall
    · exact fun hnot => Or.inr ⟨mem_among.mpr ⟨ha, hfull a ha⟩, fun _ => hnot⟩
  have hkeys := rw_categorize noSpace c₁.replicas h.distinct
  have hcount := congrArg Prod.fst (categorize_eq noSpace c₁.replicas)
  obtain ⟨b, hb⟩ := hrw
  by_cases hone : (categorizeOutOfSpaceReplicas noSpace c₁.replicas).1 = 1
  · -- the last one is kept as it is
    refine ⟨⟨b, hb, fun hmark => ((hmarks b hb).mp hmark).1 hone⟩, ?_⟩
    obtain ⟨n, hn⟩ := (mem_iff_lookup _ _).mp (hfull b hb)
    refine ⟨n, fun a ha _ => ?_⟩
    rw [hcount] at hone
    obtain ⟨s, hs⟩ := List.length_eq_one_iff.mp hone
    have hin : ∀ x, ⟨x, .RW⟩ ∈ c₁.replicas → (⟨x, .RW⟩ : Replica) = s := fun x hx =>
      List.mem_singleton.mp (hs ▸ List.mem_filter.mpr ⟨hx, by simp⟩)
    rw [(Replica.mk.inj ((hin a ha).trans (hin b hb).symm)).1]
    exact hn
  · have hne : ∃ a, a ∈ (categorizeOutOfSpaceReplicas noSpace c₁.replicas).2.1 := by
      refine ⟨b, ?_⟩
      rw [AList.mem_keys, hkeys]
      exact mem_among.mpr ⟨hb, hfull b hb⟩
    obtain ⟨n, ⟨x, hx⟩, hkept⟩ := mem_getRetainedReplicasMap order hne
    have hxrw : ⟨x, .RW⟩ ∈ c₁.replicas := by
      have hmem := (mem_iff_lookup _ _).mpr ⟨n, hx⟩
      rw [AList.mem_keys, hkeys] at hmem
      exact (mem_among.mp hmem).1
    refine ⟨⟨x, hxrw, fun hmark => ((hmarks x hxrw).mp hmark).2 ((hkept x).mpr hx)⟩, n,
      fun a ha hout => ?_⟩
    rw [hmarks a ha, not_and, not_not] at hout
    exact lookup_rw_categorize ((hkept a).mp (hout hone))

/-- The part of `Truthful` that holds with any result: who has not failed stays as it was. -/
theorem Sifted.others (h : Sifted c c₁ e existing noSpace plain)
    (hm : Moded c₁ c₂ (markErr (noSpaceMarks order c₁.replicas noSpace).1)) {r : Replica}
    (hr : r ∈ c.replicas) (hout : r.address ∉ e.errors) : r ∈ c₂.replicas := by
  have hnot : r.address ∉ plain ++ (noSpaceMarks order c₁.replicas noSpace).1 := by
    intro hin
    rcases List.mem_append.mp hin with hin | hin
    · exact hout (h.mem_of_plain hin)
    · exact hout (h.mem_of_noSpace (mem_of_noSpaceMarks h.moded.consistent order hin))
  have h12 := h.moded.trans hm
  rw [markErr_comp] at h12
  rw [h12.replicas]
  exact List.mem_map.mpr ⟨r, hr, if_neg hnot⟩

section

variable (h : Sifted c c₁ e existing noSpace plain)
  (hm : Moded c₁ c₂ (markErr (noSpaceMarks order c₁.replicas noSpace).1))
  (hno : ∀ a x, e.errors.lookup a = some x → isSnapshotDiskExist x = false)
include h hm hno

/-- The part about those that failed: whoever is not ERR is kept, with all out of space. -/
theorem Sifted.failed_modes {r : Replica}
    (hr : r ∈ c.replicas) (hmode : r.mode ≠ .ERR) (hin : r.address ∈ e.errors) :
    ⟨r.address, .ERR⟩ ∈ c₂.replicas ∨ (noSpaceMarks order c₁.replicas noSpace).2 = true
      ∧ ⟨r.address, .RW⟩ ∈ c₂.replicas := by
  rcases h.failed order hno hr hmode hin with hmark | ⟨hall, hrw, hout⟩
  · have h12 := h.moded.trans hm
    rw [markErr_comp] at h12
    rw [h12.replicas]
    exact Or.inl (List.mem_map.mpr ⟨r, hr, if_pos hmark⟩)
  · refine Or.inr ⟨hall, ?_⟩
    rw [hm.replicas]
    exact (mem_map_markErr (by simp)).mpr ⟨hrw, hout⟩

section

variable (hfails : ∀ r ∈ c.replicas, r.address ∈ e.errors → r.mode ≠ .ERR)
include hfails

/-- With an RW replica left by the loop and all such out of space, it is right to say so. -/
theorem Sifted.truthful_full
    (hwritten : ∀ a w, noSpace.lookup a = some w → w = (e.writtenBytes.lookup a).getD 0)
    (hall : (noSpaceMarks order c₁.replicas noSpace).2 = true)
    (hrw : ∃ a, ⟨a, .RW⟩ ∈ c₁.replicas) : Truthful c e c₂ (some .noSpaceLeftOnDevice) := by
  obtain ⟨⟨b, hb, hbout⟩, n, hn⟩ := kept_agree h.moded.consistent hall hrw
  have hleft : ∃ r ∈ c₂.replicas, r.mode = .RW := by
    rw [hm.replicas]
    exact ⟨_, (mem_map_markErr (by simp)).mpr ⟨hb, hbout⟩, rfl⟩
  refine ⟨fun hh => absurd hh (by simp), fun _ => ⟨hleft, n, ?_⟩, fun r hr hin => ?_,
    fun r hr hout => h.others hm hr hout, fun _ => hleft⟩
  · intro r hr hmode
    obtain ⟨a, m⟩ := r
    subst hmode
    rw [hm.replicas] at hr
    obtain ⟨hr, hout⟩ := (mem_map_markErr (by simp)).mp hr
    have hlookup := hn a hr hout
    obtain ⟨x, hx, hf⟩ := (h.noSpace_iff a).mp ((mem_iff_lookup _ _).mpr ⟨n, hlookup⟩)
    exact ⟨x, hx, hf, (hwritten a n hlookup).symm⟩
  · rcases h.failed_modes hm hno hr (hfails r hr hin) hin with herr | ⟨-, hkept⟩
    · exact Or.inl herr
    · exact Or.inr ⟨rfl, hkept⟩

/-- With an RW replica that is not out of space, or none that is, the result is right. -/
theorem Sifted.truthful_left (hall : (noSpaceMarks order c₁.replicas noSpace).2 ≠ true)
    {err : Option IOErr}
    (hnone : err = none → ∃ r ∈ c₂.replicas, r.mode = .RW)
    (hfull : err ≠ some .noSpaceLeftOnDevice) : Truthful c e c₂ err := by
  have hfailed : ∀ r ∈ c.replicas, r.address ∈ e.errors → ⟨r.address, .ERR⟩ ∈ c₂.replicas :=
    fun r hr hin => (h.failed_modes hm hno hr (hfails r hr hin) hin).resolve_right
      (fun hh => hall hh.1)
  refine ⟨fun hh => ?_, fun hh => absurd hh hfull, fun r hr hin => Or.inl (hfailed r hr hin),
    fun r hr hout => h.others hm hr hout, fun hex => ?_⟩
  · -- an RW replica that is left was RW, and did not fail, or else it would be ERR
    obtain ⟨⟨a, m⟩, hr, rfl⟩ := hnone hh
    have hr₁ := hr
    rw [hm.replicas] at hr₁
    have hra := ((h.rw_iff a).mp ((mem_map_markErr (by simp)).mp hr₁).1).1
    refine ⟨_, hra, rfl, fun hin => ?_⟩
    have h12 := h.moded.trans hm
    have := h12.consistent.eq_of_address hr (hfailed _ hra hin) rfl
    exact absurd (Replica.mk.inj this).2 (by simp)
  · obtain ⟨⟨a, m⟩, hr, rfl, hsur⟩ := hex
    have hr₁ := (h.rw_survives hno a).mpr ⟨hr, hsur⟩
    rw [ne_eq, noSpaceMarks_all_iff h.moded.consistent order noSpace, not_and_or] at hall
    have hfree : ∃ b, ⟨b, .RW⟩ ∈ c₁.replicas ∧ b ∉ noSpace := by
      rcases hall with hempty | hsome
      · exact ⟨a, hr₁, fun hin => hempty ⟨a, hin⟩⟩
      · push Not at hsome
        obtain ⟨⟨b, m⟩, hb, rfl, hout⟩ := hsome
        exact ⟨b, hb, hout⟩
    obtain ⟨b, hb, hout⟩ := hfree
    rw [hm.replicas]
    have hkept := fun hin => hout (mem_of_noSpaceMarks h.moded.consistent order hin)
    exact ⟨_, (mem_map_markErr (by simp)).mpr ⟨hb, hkept⟩, rfl⟩

end

end

end Outcome

/--
**When the result of an I/O error is the truth**: if no replica is out of space, or some RW
replica did not fail other than by that.
-/
theorem handleErrorNoLock_truthful_iff {c : Controller β} (h : Consistent c) (order : MapOrder)
    (e : BackendError) (hfails : ∀ a ∈ e.errors, ∃ m, m ≠ .ERR ∧ ⟨a, m⟩ ∈ c.replicas)
    (hno : ∀ a x, e.errors.lookup a = some x → isSnapshotDiskExist x = false) :
    ∃ c' err, c.handleErrorNoLock order (some (.backend e)) = some (c', err)
      ∧ (Truthful c e c' err ↔ SomeSurvives c e) := by
  by_cases hne : ∃ a, a ∈ e.errors
  swap
  · -- no replica failed, and nothing is done
    have hnone : ∀ a, a ∉ e.errors := fun a ha => hne ⟨a, ha⟩
    refine ⟨c, _, handleErrorNoLock_other order (fun e' he' a => ?_), fun _ hex => ?_, fun _ => ?_⟩
    · obtain rfl : e = e' := by simpa using he'
      exact hnone a
    · obtain ⟨a, x, hx, -⟩ := hex
      exact absurd ((mem_iff_lookup _ _).mpr ⟨x, hx⟩) (hnone a)
    · refine ⟨fun hh => absurd hh (by simp), fun hh => absurd hh (by simp),
        fun r _ hin => absurd hin (hnone _), fun r hr _ => hr, fun hex => ?_⟩
      obtain ⟨r, hr, hrw, -⟩ := hex
      exact ⟨r, hr, hrw⟩
  have hmodes : ∀ r ∈ c.replicas, r.address ∈ e.errors → r.mode ≠ .ERR := by
    intro r hr hin
    obtain ⟨m, hm, hr'⟩ := hfails _ hin
    rw [h.eq_of_address hr hr' rfl]
    exact hm
  obtain ⟨c₁, c₂, existing, noSpace, plain, h₁, hwritten, h₂, -, hres⟩ :=
    handleErrorNoLock_sifted h order e hne
  refine ⟨c₂, _, hres, ?_⟩
  have hsome : SomeSurvives c e ↔ ((∃ a, a ∈ noSpace) → ∃ a, ⟨a, .RW⟩ ∈ c₁.replicas) := by
    simp only [h₁.noSpace_iff, h₁.rw_survives hno]
    refine imp_congr_right (fun _ => ⟨?_, ?_⟩)
    · intro hex
      obtain ⟨⟨a, m⟩, hr, rfl, hsur⟩ := hex
      exact ⟨a, hr, hsur⟩
    · intro hex
      obtain ⟨a, hr, hsur⟩ := hex
      exact ⟨_, hr, rfl, hsur⟩
  have halliff := noSpaceMarks_all_iff h₁.moded.consistent order noSpace
  by_cases hall : (noSpaceMarks order c₁.replicas noSpace).2 = true
  · rw [if_pos hall]
    constructor
    · intro ht
      -- an RW replica that is left was left by the loop
      obtain ⟨⟨⟨a, m⟩, hr, rfl⟩, -⟩ := ht.told_noSpace rfl
      rw [h₂.replicas] at hr
      exact hsome.mpr (fun _ => ⟨a, ((mem_map_markErr (by simp)).mp hr).1⟩)
    · intro hs
      exact h₁.truthful_full h₂ hno hmodes hwritten hall (hsome.mp hs (halliff.mp hall).1)
  · have hsur : SomeSurvives c e := by
      refine hsome.mpr (fun hsp => ?_)
      by_contra hrw
      exact hall (halliff.mpr ⟨hsp, fun r hr hm => absurd ⟨r.address, hm ▸ hr⟩ hrw⟩)
    rw [if_neg hall]
    refine iff_of_true (h₁.truthful_left h₂ hno hmodes hall (fun hh => ?_) ?_) hsur
    · split at hh
      · rename_i hex
        exact hex.2
      · simp at hh
    · split <;> simp

/-- The replica that is being rebuilt is out of space. -/
def rebuiltFull : BackendError := ⟨AList.singleton "b" .noSpaceLeftOnDevice, ∅⟩

/-- The same, and the RW replica cannot be reached. -/
def sourceTimesOut : BackendError :=
  ⟨rebuiltFull.errors.insert "a" (.other (text "r/w timeout")), ∅⟩

theorem handleErrorNoLock_truthful_iff_rebuiltFull :
    (∀ a ∈ rebuiltFull.errors, ∃ m, m ≠ .ERR ∧ ⟨a, m⟩ ∈ rebuilding.replicas)
      ∧ (∀ a x, rebuiltFull.errors.lookup a = some x → isSnapshotDiskExist x = false)
      ∧ ∃ c' err, rebuilding.handleErrorNoLock .listed (some (.backend rebuiltFull)) = some (c', err)
        ∧ (Truthful rebuilding rebuiltFull c' err ↔ SomeSurvives rebuilding rebuiltFull) := by
  have hfails : ∀ a ∈ rebuiltFull.errors, ∃ m, m ≠ .ERR ∧ ⟨a, m⟩ ∈ rebuilding.replicas := by
    intro a ha
    obtain rfl : a = "b" := by simpa [rebuiltFull, AList.mem_keys, AList.keys_singleton] using ha
    exact ⟨.WO, by decide, by decide⟩
  have hno : ∀ a x, rebuiltFull.errors.lookup a = some x → isSnapshotDiskExist x = false := by
    intro a x hx
    rw [rebuiltFull, ← AList.insert_empty, lookup_insert_eq] at hx
    split at hx
    · rw [← Option.some.inj hx]
      decide
    · simp at hx
  exact ⟨hfails, hno,
    handleErrorNoLock_truthful_iff consistent_rebuilding .listed rebuiltFull hfails hno⟩

/-- No replica is left to read from, and the caller hears that the volume is full. -/
theorem sourceTimesOut_untruthful :
    ∃ c', rebuilding.handleErrorNoLock .listed (some (.backend sourceTimesOut))
        = some (c', some .noSpaceLeftOnDevice)
      ∧ c'.replicas = [⟨"a", .ERR⟩, ⟨"b", .ERR⟩]
      ∧ ¬ Truthful rebuilding sourceTimesOut c' (some .noSpaceLeftOnDevice) := by
  refine ⟨_, rfl, by decide, fun ht => ?_⟩
  obtain ⟨⟨r, hr, hrw⟩, -⟩ := ht.told_noSpace rfl
  revert r
  decide

end Controller

end WeftBlock
