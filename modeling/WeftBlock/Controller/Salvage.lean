import WeftBlock.Controller.StartChecks
import WeftBlock.Controller.UnmapBlame

/-!
# Which replica is salvaged

Without revision counters, a start after a crash that took all replicas keeps one of them:
among those that were written last, give or take five seconds, the one with the largest head
file, and of two equally large ones the later one. All others go to ERR.

Both searches are one pass over the replicas that are not in error, and come to `List.argmax`. The
window of the second is never empty: the replica that was written last is in it.
-/

namespace WeftBlock

open DataConn Maps

namespace Controller

variable {β : Type}

variable {c : Controller β}

/-! ## The two searches -/

theorem lastModifyTime_eq (infos : List ReplicaSalvageInfo) :
    lastModifyTime infos = (infos.map (fun i => i.lastModifyTime)).argmax id := by
  rw [lastModifyTime, List.argmax, List.foldl_map]
  congr 1
  funext last info
  cases last <;> rfl

/-- How good a candidate is: by the size of its head file, then by its time. -/
def rank (info : ReplicaSalvageInfo) : Int ×ₗ Int := toLex (info.headFileSize, info.lastModifyTime)

theorem rank_lt_iff (b info : ReplicaSalvageInfo) :
    rank b < rank info ↔ b.headFileSize < info.headFileSize
      ∨ info.headFileSize = b.headFileSize ∧ b.lastModifyTime < info.lastModifyTime := by
  rw [rank, rank, Prod.Lex.toLex_lt_toLex, eq_comm]

/-- The candidates whose time is less than the period before `last`. -/
def window (last : Int) (infos : List ReplicaSalvageInfo) : List ReplicaSalvageInfo :=
  infos.filter (fun i => last < i.lastModifyTime + lastModifyCheckPeriod)

theorem betterCandidate_eq (last : Int) (infos : List ReplicaSalvageInfo) :
    infos.foldl (betterCandidate last) none = (window last infos).argmax rank := by
  rw [window, List.argmax, List.foldl_filter]
  congr 1
  funext best info
  unfold betterCandidate
  simp only [decide_eq_true_eq]
  cases best with
  | none => rfl
  | some b => simp only [List.argAux, rank_lt_iff]

/-- The best candidate `info`: in the window, and none in the window is better. -/
structure Chosen (infos : List ReplicaSalvageInfo) (info : ReplicaSalvageInfo) : Prop where
  mem : info ∈ infos
  recent : ∀ i ∈ infos, i.lastModifyTime < info.lastModifyTime + lastModifyCheckPeriod
  best : ∀ i ∈ infos,
    (∀ j ∈ infos, j.lastModifyTime < i.lastModifyTime + lastModifyCheckPeriod) →
      ¬ rank info < rank i

/-- **The search finds one**, if there is anything to search. -/
theorem exists_chosen {infos : List ReplicaSalvageInfo} (hne : infos ≠ []) :
    ∃ last info, lastModifyTime infos = some last
      ∧ infos.foldl (betterCandidate last) none = some info ∧ Chosen infos info := by
  rw [lastModifyTime_eq]
  obtain ⟨last, hlast⟩ : ∃ last, (infos.map (fun i => i.lastModifyTime)).argmax id = some last := by
    rw [← Option.ne_none_iff_exists', ne_eq, List.argmax_eq_none, List.map_eq_nil_iff]
    exact hne
  have hle : ∀ i ∈ infos, i.lastModifyTime ≤ last := fun i hi =>
    List.le_of_mem_argmax (List.mem_map.mpr ⟨i, hi, rfl⟩) hlast
  obtain ⟨latest, hmem, htime⟩ := List.mem_map.mp (List.argmax_mem hlast)
  -- being in the window is being less than five seconds before each of them
  have hwindow : ∀ i, i ∈ window last infos ↔ i ∈ infos
      ∧ ∀ j ∈ infos, j.lastModifyTime < i.lastModifyTime + lastModifyCheckPeriod := by
    intro i
    rw [window, List.mem_filter, decide_eq_true_eq]
    refine and_congr_right (fun _ => ⟨fun hlt j hj => lt_of_le_of_lt (hle j hj) hlt, fun hall => ?_⟩)
    rw [← htime]
    exact hall latest hmem
  -- the replica that was written last is in it
  have hin : latest ∈ window last infos := by
    rw [window, List.mem_filter, htime]
    exact ⟨hmem, decide_eq_true (lt_add_of_pos_right last (by decide))⟩
  obtain ⟨info, hinfo⟩ : ∃ info, (window last infos).argmax rank = some info := by
    rw [← Option.ne_none_iff_exists', ne_eq, List.argmax_eq_none]
    exact List.ne_nil_of_mem hin
  obtain ⟨hinfos, hrecent⟩ := (hwindow info).mp (List.argmax_mem hinfo)
  refine ⟨last, info, hlast, (betterCandidate_eq last infos).trans hinfo, hinfos, hrecent, ?_⟩
  intro i hi hwin
  exact not_lt.mpr (List.le_of_mem_argmax ((hwindow i).mpr ⟨hi, hwin⟩) hinfo)

/-! ## The modes -/

/-- What a salvage that returns nil has done: `a` is RW and everything else is in ERR. -/
structure Salvaged (c c' : Controller β) (a : String) : Prop where
  was : ∃ m, m ≠ .ERR ∧ ⟨a, m⟩ ∈ c.replicas
  replicas : c'.replicas
    = c.replicas.map (fun r => ⟨r.address, if r.address = a then .RW else .ERR⟩)

/-- Then exactly one replica is RW. -/
theorem Salvaged.unique {c c' : Controller β} {a : String} (h : Salvaged c c' a) :
    ∃! r, r ∈ c'.replicas ∧ r.mode = .RW := by
  obtain ⟨m, -, hin⟩ := h.was
  rw [h.replicas]
  refine ⟨⟨a, .RW⟩, ⟨List.mem_map.mpr ⟨_, hin, by simp⟩, rfl⟩, ?_⟩
  rintro r ⟨hr, hrw⟩
  obtain ⟨s, -, rfl⟩ := List.mem_map.mp hr
  split at hrw
  · rename_i ha
    simp [ha]
  · simp at hrw

/-- The loop over all replicas leaves one of them. -/
theorem eachReplica_salvaged (h : Consistent c) (order : MapOrder) {a : String}
    (hwas : ∃ m, m ≠ .ERR ∧ ⟨a, m⟩ ∈ c.replicas) :
    ∃ c', eachReplica (salvageReplica order a) (List.range c.replicas.length) c ()
        = some (c', (), none) ∧ Salvaged c c' a := by
  obtain ⟨c', met, he, hm, hmet⟩ := eachReplica_salvageReplica h order a
  refine ⟨c', he, hwas, ?_⟩
  rw [hm.replicas]
  refine List.map_congr_left (fun r hr => ?_)
  have hmet := hmet r hr
  unfold graded
  by_cases herr : r.mode = .ERR
  · -- a replica in error is not the chosen one
    have hne : r.address ≠ a := by
      intro ha
      obtain ⟨m, hm, hin⟩ := hwas
      have heq := h.eq_of_address hr hin ha
      rw [heq] at herr
      exact hm herr
    rw [if_neg (fun hh => hh.2 herr), if_neg hne, ← herr]
  · rw [if_pos ⟨hmet, herr⟩]
    by_cases ha : r.address = a
    · simp [ha]
    · simp [ha]

/-! ## The whole salvage -/

/-- The replica was modified less than the period before every other that is not in error. -/
def Recent (answers : StartAnswers β) (c : Controller β) (a : String) : Prop :=
  ∃ t, answers.getLastModifyTime a = .ok t ∧ ∀ r ∈ c.replicas, r.mode ≠ .ERR →
    ∃ t', answers.getLastModifyTime r.address = .ok t' ∧ t' < t + lastModifyCheckPeriod

/-- `a` has the larger head file, or an equally large one and the later time. -/
def Newer (answers : StartAnswers β) (a b : String) : Prop :=
  ∃ t s t' s', answers.getLastModifyTime a = .ok t ∧ answers.getHeadFileSize a = .ok s
    ∧ answers.getLastModifyTime b = .ok t' ∧ answers.getHeadFileSize b = .ok s'
    ∧ (s' < s ∨ s = s' ∧ t' < t)

/--
**The salvage keeps the best replica**: it always finds one among those that are not in
error, and when it returns nil that one is RW, and all others are ERR.
-/
theorem salvage_keeps_best {c : Controller β} (h : Consistent c) (order : MapOrder)
    (answers : StartAnswers β) :
    ∃ c' err, c.salvageRevisionCounterDisabledReplicas order answers = some (c', err)
      ∧ err ≠ some .noSalvageCandidate
      ∧ (err = none → (∃! r, r ∈ c'.replicas ∧ r.mode = .RW)
        ∧ ∃ a, Salvaged c c' a ∧ Recent answers c a
          ∧ ∀ r ∈ c.replicas, r.mode ≠ .ERR → Recent answers c r.address →
            ¬ Newer answers r.address a) := by
  unfold salvageRevisionCounterDisabledReplicas
  rcases salvageCandidates_cases h answers c.replicas (fun _ hr => hr) with
    ⟨e, hres⟩ | ⟨infos, hres, hcand, hall⟩
  · rw [hres]
    exact ⟨c, _, rfl, by simp, fun hh => absurd hh (by simp)⟩
  rw [hres]
  by_cases hne : infos = []
  · subst hne
    exact ⟨c, some .nothingToSalvage, rfl, by simp, fun hh => absurd hh (by simp)⟩
  obtain ⟨last, info, hlast, hfound, hchosen⟩ := exists_chosen hne
  have hinfo := hcand info hchosen.mem
  obtain ⟨c', he, hsalvaged⟩ := eachReplica_salvaged h order hinfo.listed
  dsimp only
  rw [hlast]
  dsimp only
  rw [hfound]
  dsimp only
  rw [he]
  refine ⟨c', none, rfl, by simp, fun _ => ⟨hsalvaged.unique, info.address, hsalvaged, ?_, ?_⟩⟩
  · refine ⟨_, hinfo.time, fun r hr hm => ?_⟩
    obtain ⟨i, hi, ha⟩ := hall r hr hm
    rw [← ha]
    exact ⟨_, (hcand i hi).time, hchosen.recent i hi⟩
  · -- a newer replica in the window would rank higher
    intro r hr hm hrecent hnewer
    obtain ⟨i, hi, ha⟩ := hall r hr hm
    rw [← ha] at hrecent hnewer
    obtain ⟨t, s, t', s', ht, hs, ht', hs', hlt⟩ := hnewer
    obtain rfl := Except.ok.inj ((hcand i hi).time.symm.trans ht)
    obtain rfl := Except.ok.inj ((hcand i hi).size.symm.trans hs)
    obtain rfl := Except.ok.inj (hinfo.time.symm.trans ht')
    obtain rfl := Except.ok.inj (hinfo.size.symm.trans hs')
    refine hchosen.best i hi (fun j hj => ?_) ((rank_lt_iff _ _).mpr hlt)
    obtain ⟨t, ht, hwin⟩ := hrecent
    obtain rfl := Except.ok.inj ((hcand i hi).time.symm.trans ht)
    obtain ⟨m, hm, hjin⟩ := (hcand j hj).listed
    obtain ⟨t', ht', hlt'⟩ := hwin _ hjin hm
    obtain rfl := Except.ok.inj ((hcand j hj).time.symm.trans ht')
    exact hlt'

/-- Two replicas written within a second, of which the earlier one has the larger head file. -/
def apart : StartAnswers Nat :=
  { create _ := .ok 1, size _ := .ok 8192, sizeAgain _ := .ok 8192, sectorSize _ := .ok 512,
    getState _ := .ok "open", getUnmapMarkSnapChainRemoved _ := .ok false,
    setUnmapMarkSnapChainRemoved _ := .ok (), isRevisionCounterDisabled _ := .ok true,
    getLastModifyTime a := .ok (if a = "a" then 7000000000 else 8000000000),
    getHeadFileSize a := .ok (if a = "a" then 8192 else 4096),
    getRevisionCounter _ := .ok 0, startFrontend := none }

theorem salvage_keeps_best_apart :
    pair.Consistent
      ∧ (pair.salvageRevisionCounterDisabledReplicas .listed apart).map
          (fun x => (x.1.replicas, x.2.isNone)) = some ([⟨"a", .RW⟩, ⟨"b", .ERR⟩], true)
      ∧ ∃ c' err, pair.salvageRevisionCounterDisabledReplicas .listed apart = some (c', err)
        ∧ err ≠ some .noSalvageCandidate
        ∧ (err = none → (∃! r, r ∈ c'.replicas ∧ r.mode = .RW)
          ∧ ∃ a, Salvaged pair c' a ∧ Recent apart pair a
            ∧ ∀ r ∈ pair.replicas, r.mode ≠ .ERR → Recent apart pair r.address →
              ¬ Newer apart r.address a) :=
  ⟨consistent_pair, by decide, salvage_keeps_best consistent_pair .listed apart⟩

end Controller

end WeftBlock
