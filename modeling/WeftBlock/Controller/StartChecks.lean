import WeftBlock.Controller.Reachable

/-!
# The checks of a start

`Start` takes replicas out by three checks: the unmap flag, the revision counter
setting, the revision counters. Each of them is a loop that sends some addresses to
ERR, so what is left of the RW replicas is a matter of which addresses are good, and
`Checked` says which they are.
-/

namespace WeftBlock

open DataConn Maps

variable {order : MapOrder} {r : Replica}

namespace Controller

variable {β : Type}

variable {c c' : Controller β} {answers : StartAnswers β}

/-! ## The three checks -/

/-- A loop that sends the bad addresses to ERR marks those it has met. -/
theorem graded_markBad (good : String → Bool) (met : List String) :
    graded (markBad good) met = markErr (met.filter (fun a => !good a)) := by
  funext r
  obtain ⟨a, m⟩ := r
  unfold graded markBad markErr
  by_cases hmet : a ∈ met
  · cases hg : good a with
    | true => simp [hmet, hg]
    | false =>
      by_cases hm : m = .ERR
      · simp [hmet, hm]
      · simp [hmet, hm, hg]
  · simp [hmet]

/-- The RW replicas left by a loop that has met all of them are the good ones. -/
theorem Moded.rw_graded {good : String → Bool} {met : List String}
    (h : Moded c c' (graded (markBad good) met)) (hmet : ∀ r ∈ c.replicas, r.address ∈ met)
    (a : String) : ⟨a, .RW⟩ ∈ c'.replicas ↔ ⟨a, .RW⟩ ∈ c.replicas ∧ good a = true := by
  rw [h.replicas, graded_markBad, mem_map_markErr (by simp)]
  refine and_congr_right (fun ha => ?_)
  simp [hmet _ ha]

/-- **The comparison of the counters leaves the replicas that have the largest one.** -/
theorem checkReplicasRevisionCounter_rw (h : Consistent c)
    (hrun : c.checkReplicasRevisionCounter order answers = some (c', none)) :
    ∃ expected counters, Counted answers c.replicas 0 ∅ expected counters
      ∧ (∃ marked, Moded c c' (markErr marked))
      ∧ ∀ a, ⟨a, .RW⟩ ∈ c'.replicas
        ↔ ⟨a, .RW⟩ ∈ c.replicas ∧ answers.getRevisionCounter a = .ok expected := by
  unfold checkReplicasRevisionCounter at hrun
  rcases revisionCounters_cases h answers c.replicas (fun _ hr => hr) 0 ∅ with
    ⟨e, hcs⟩ | ⟨expected, counters, hcs, hcount⟩
  · rw [hcs] at hrun
    simp at hrun
  rw [hcs] at hrun
  dsimp only at hrun
  obtain ⟨c1, he, h1⟩ := setErr_spec h order (((entries order counters).filter
    (fun e => e.2 ≠ expected)).map (fun e => e.1))
  rw [he] at hrun
  obtain ⟨rfl, -⟩ := by simpa using hrun
  refine ⟨expected, counters, hcount, ⟨_, h1⟩, fun a => ?_⟩
  rw [h1.replicas, mem_map_markErr (by simp)]
  refine and_congr_right (fun ha => ?_)
  obtain ⟨n, hget, hlook⟩ := hcount.lookup _ ha (by simp)
  rw [hget]
  constructor
  · intro hout
    by_contra hne
    refine hout (List.mem_map.mpr ⟨(a, n), List.mem_filter.mpr ⟨mem_entries.mpr hlook, ?_⟩,
      rfl⟩)
    exact decide_eq_true (fun he => hne (congrArg Except.ok he))
  · intro heq hin
    obtain ⟨⟨x, m⟩, hx, rfl⟩ := List.mem_map.mp hin
    obtain ⟨hx, hm⟩ := List.mem_filter.mp hx
    rw [mem_entries, hlook] at hx
    rw [← Option.some.inj hx] at hm
    exact of_decide_eq_true hm (Except.ok.inj heq)

/-! ## One after the other -/

theorem Moded.no_wo {l : List String} (h : Moded c c' (markErr l))
    (hwo : ∀ r ∈ c.replicas, r.mode ≠ .WO) : ∀ r ∈ c'.replicas, r.mode ≠ .WO := by
  intro r hr
  rw [h.replicas] at hr
  obtain ⟨s, hs, rfl⟩ := List.mem_map.mp hr
  unfold markErr
  split
  · simp
  · exact hwo s hs

theorem checkUnmapMarkSnapChainRemoved_rw (h : Consistent c)
    (hrun : c.checkUnmapMarkSnapChainRemoved order answers = some (c', none)) :
    (∃ marked, Moded c c' (markErr marked)) ∧ ∀ a, ⟨a, .RW⟩ ∈ c'.replicas
      ↔ ⟨a, .RW⟩ ∈ c.replicas ∧ answers.markAgrees c.unmapMarkSnapChainRemoved a = true := by
  obtain ⟨c1, err, met, he, hm, hmet⟩ := checkUnmapMarkSnapChainRemoved_graded h order answers
  obtain ⟨rfl, rfl⟩ := Prod.mk.inj (Option.some.inj (he.symm.trans hrun))
  exact ⟨⟨_, graded_markBad _ met ▸ hm⟩, hm.rw_graded (hmet rfl)⟩

theorem checkReplicaRevCounterSettingMatch_rw (h : Consistent c)
    (hrun : c.checkReplicaRevCounterSettingMatch order answers = some (c', none)) :
    (∃ marked, Moded c c' (markErr marked)) ∧ ∀ a, ⟨a, .RW⟩ ∈ c'.replicas
      ↔ ⟨a, .RW⟩ ∈ c.replicas ∧ answers.settingAgrees c.revisionCounterDisabled a = true := by
  obtain ⟨c1, err, met, he, hm, hmet⟩ := checkReplicaRevCounterSettingMatch_graded h order answers
  obtain ⟨rfl, rfl⟩ := Prod.mk.inj (Option.some.inj (he.symm.trans hrun))
  exact ⟨⟨_, graded_markBad _ met ▸ hm⟩, hm.rw_graded (hmet rfl)⟩

/-- What is left of the RW replicas of `c` when `Start` has checked them. -/
structure Checked (answers : StartAnswers β) (c c' : Controller β) (expected : Int) : Prop where
  rest : c' = { c with replicas := c'.replicas, backend := c'.backend }
  consistent : Consistent c'
  nonneg : 0 ≤ expected
  rw_iff : ∀ a, ⟨a, .RW⟩ ∈ c'.replicas ↔ (⟨a, .RW⟩ ∈ c.replicas
    ∧ answers.markAgrees c.unmapMarkSnapChainRemoved a = true
    ∧ answers.settingAgrees c.revisionCounterDisabled a = true)
    ∧ answers.getRevisionCounter a = .ok expected
  bound : ∀ a, ⟨a, .RW⟩ ∈ c.replicas → answers.markAgrees c.unmapMarkSnapChainRemoved a = true →
    answers.settingAgrees c.revisionCounterDisabled a = true →
    ∃ n, answers.getRevisionCounter a = .ok n ∧ n ≤ expected
  reached : expected = 0 ∨ ∃ a, ⟨a, .RW⟩ ∈ c'.replicas

/-- **The checks of `Start`, one after the other.** -/
theorem checkReplicas_checked (h : Consistent c)
    (hwo : ∀ r ∈ c.replicas, r.mode ≠ .WO) (hup : c.isUpgrade = false)
    (hrev : c.revisionCounterDisabled = false)
    (hrun : c.checkReplicas order answers = some (c', none)) :
    ∃ expected, Checked answers c c' expected := by
  unfold checkReplicas at hrun
  cases h1 : c.checkUnmapMarkSnapChainRemoved order answers with
  | none => rw [h1] at hrun; exact absurd hrun (by simp)
  | some res =>
    obtain ⟨c1, err⟩ := res
    rw [h1] at hrun
    cases err with
    | some e => simp at hrun
    | none =>
      obtain ⟨⟨m1, hm1⟩, hrw1⟩ := checkUnmapMarkSnapChainRemoved_rw h h1
      have hup1 : c1.isUpgrade = false := by rw [hm1.rest]; exact hup
      have hset1 : c1.revisionCounterDisabled = c.revisionCounterDisabled := by rw [hm1.rest]
      dsimp only at hrun
      rw [hup1, if_neg Bool.false_ne_true] at hrun
      cases h2 : c1.checkReplicaRevCounterSettingMatch order answers with
      | none => rw [h2] at hrun; exact absurd hrun (by simp)
      | some res =>
        obtain ⟨c2, err⟩ := res
        rw [h2] at hrun
        cases err with
        | some e => simp at hrun
        | none =>
          obtain ⟨⟨m2, hm2⟩, hrw2⟩ :=
            checkReplicaRevCounterSettingMatch_rw hm1.consistent h2
          have hset2 : c2.revisionCounterDisabled = false := by rw [hm2.rest, hset1, hrev]
          dsimp only at hrun
          rw [hset2, if_neg Bool.false_ne_true] at hrun
          obtain ⟨expected, counters, hcount, ⟨m3, hm3⟩, hrw3⟩ :=
            checkReplicasRevisionCounter_rw hm2.consistent hrun
          have hwo2 := hm2.no_wo (hm1.no_wo hwo)
          have hrw : ∀ a, ⟨a, .RW⟩ ∈ c2.replicas ↔ ⟨a, .RW⟩ ∈ c.replicas
              ∧ answers.markAgrees c.unmapMarkSnapChainRemoved a = true
              ∧ answers.settingAgrees c.revisionCounterDisabled a = true := by
            intro a
            rw [hrw2, hrw1, hset1, and_assoc]
          refine ⟨expected, by rw [hm3.rest, hm2.rest, hm1.rest], hm3.consistent,
            hcount.le, fun a => by rw [hrw3, hrw], fun a ha hmark hset => ?_, ?_⟩
          · exact hcount.bound _ ((hrw a).mpr ⟨ha, hmark, hset⟩) (by simp)
          · refine hcount.reached.imp_right (fun hex => ?_)
            obtain ⟨⟨a, m⟩, hr, hm, hget⟩ := hex
            cases m with
            | ERR => exact absurd rfl hm
            | WO => exact absurd rfl (hwo2 _ hr)
            | RW => exact ⟨a, (hrw3 a).mpr ⟨hr, hget⟩⟩

end Controller

end WeftBlock
