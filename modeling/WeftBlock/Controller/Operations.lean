import WeftBlock.Controller.HandleError

/-!
# Operations on a consistent controller

`Start` with its checks, `AddReplica` and `VerifyRebuildReplica`, whatever the
backends answer: none of them panics, none leaves consistency, and none takes a
replica out of ERR. Most of what they do is setting modes one after the other, and
for that there is one relation, `Regraded`, which the loops over the replicas
preserve if their bodies do.
-/

namespace WeftBlock

open DataConn Maps

variable {r : Replica} {address : String}

namespace Controller

variable {β : Type}

/-! ## Operations that only change modes -/

/-- The same replicas, some in other modes, and still in error those that were. -/
structure Regraded (c c' : Controller β) : Prop where
  consistent : Consistent c'
  addresses : c'.replicas.map (fun r => r.address) = c.replicas.map (fun r => r.address)
  sticky : ∀ a, ⟨a, .ERR⟩ ∈ c.replicas → ⟨a, .ERR⟩ ∈ c'.replicas

variable {c : Controller β}

theorem Regraded.refl (h : Consistent c) : Regraded c c :=
  ⟨h, rfl, fun _ ha => ha⟩

theorem Regraded.trans {c c' c'' : Controller β} (h : Regraded c c') (h' : Regraded c' c'') :
    Regraded c c'' :=
  ⟨h'.consistent, h'.addresses.trans h.addresses, fun a ha => h'.sticky a (h.sticky a ha)⟩

/-- Setting modes regrades if it keeps the addresses and what is in error. -/
theorem Moded.regraded {c c' : Controller β} {f : Replica → Replica} (h : Moded c c' f)
    (haddr : ∀ r, (f r).address = r.address) (herr : ∀ a, f ⟨a, .ERR⟩ = ⟨a, .ERR⟩) :
    Regraded c c' where
  consistent := h.consistent
  addresses := by rw [h.replicas]; exact map_address haddr _
  sticky a ha := by rw [h.replicas]; exact List.mem_map.mpr ⟨_, ha, herr a⟩

theorem Moded.regraded_setTo {c c' : Controller β} {mode : Mode}
    (h : Moded c c' (setTo address mode)) : Regraded c c' :=
  h.regraded (address_setTo address mode) (fun _ => if_neg (fun hh => hh.2 rfl))

theorem Moded.regraded_markErr {c c' : Controller β} {l : List String}
    (h : Moded c c' (markErr l)) : Regraded c c' :=
  h.regraded (address_markErr l) (fun _ => by unfold markErr; split <;> rfl)

section

variable (h : Consistent c) (order : MapOrder)
include h

theorem setReplicaModeNoLock_regraded (address : String) (mode : Mode) (hmode : mode ≠ .WO) :
    ∃ c', c.setReplicaModeNoLock order address mode = some c' ∧ Regraded c c' := by
  obtain ⟨c', he, hm⟩ := setReplicaModeNoLock_spec h order address mode hmode
  exact ⟨c', he, hm.regraded_setTo⟩

theorem setReplicaMode_regraded (address : String) (mode : Mode) :
    ∃ c' err, c.setReplicaMode order address mode = some (c', err) ∧ Regraded c c' := by
  by_cases hmode : mode = .WO
  · exact ⟨c, _, by rw [hmode]; rfl, Regraded.refl h⟩
  · obtain ⟨c', he, hc⟩ := setReplicaModeNoLock_regraded h order address mode hmode
    exact ⟨c', none, by cases mode <;> simp_all [setReplicaMode], hc⟩

theorem handleErrorNoLock_regraded (err : Option IOErr) :
    ∃ c' err', c.handleErrorNoLock order err = some (c', err') ∧ Regraded c c' := by
  by_cases hb : ∃ e, err = some (.backend e) ∧ ∃ a, a ∈ e.errors
  · obtain ⟨e, rfl, hne⟩ := hb
    obtain ⟨c', err', marked, he, hm, _⟩ := handleErrorNoLock_spec h order e hne
    exact ⟨c', err', he, hm.regraded_markErr⟩
  · refine ⟨c, err, handleErrorNoLock_other order (fun e he a ha => hb ⟨e, he, a, ha⟩), ?_⟩
    exact Regraded.refl h

end

section

variable {γ : Type} (h : Consistent c) (hr : r ∈ c.replicas) (hm : r.mode ≠ .ERR)
  (answer : Except Err γ)
include h hr hm

theorem ask_eq :
    c.ask r.address answer = some (answer.mapError .backend) := by
  obtain ⟨b, hb⟩ := h.connected hr hm
  unfold ask
  rw [hb]
  cases answer <;> rfl

theorem askDirect_eq :
    c.askDirect r.address answer = some (answer.mapError .backend) := by
  rw [askDirect, if_pos ((h.mem_backends _).mpr ⟨r.mode, hr⟩)]
  exact ask_eq h hr hm answer

end

/-! ## Loops that set modes -/

/-- What a loop does to a replica whose address it has met: it gets a mode, or keeps the one it
has. One that is in error stays so. -/
def graded (f : String → Option Mode) (met : List String) (r : Replica) : Replica :=
  if r.address ∈ met ∧ r.mode ≠ .ERR then ⟨r.address, (f r.address).getD r.mode⟩ else r

section

variable (f : String → Option Mode)

theorem address_graded (met : List String) (r : Replica) :
    (graded f met r).address = r.address := by
  unfold graded
  split <;> rfl

theorem graded_nil : graded f [] = id := by
  funext r
  simp [graded]

theorem graded_comp (a : String) (met : List String) :
    graded f met ∘ graded f [a] = graded f (a :: met) := by
  funext r
  obtain ⟨x, m⟩ := r
  rw [Function.comp_apply]
  unfold graded
  by_cases hm : m = .ERR
  · simp [hm]
  by_cases hx : x = a
  · subst hx
    cases hf : f x with
    | none => simp [hm, hf]
    | some m' => simp [hm, hf]
  · simp [hm, hx]

end

variable {f : String → Option Mode} {good : String → Bool}

theorem graded_some {a : String} {m : Mode} (hf : f a = some m) :
    graded f [a] = setTo a m := by
  funext r
  unfold graded setTo
  by_cases hr : r.address = a ∧ r.mode ≠ .ERR
  · simp [hr, hf]
  · rw [if_neg hr, if_neg (by rwa [List.mem_singleton])]

theorem Moded.regraded_graded {c c' : Controller β} {met : List String}
    (h : Moded c c' (graded f met)) : Regraded c c' :=
  h.regraded (address_graded f met) (fun _ => if_neg (fun hh => hh.2 rfl))

/-- There is nothing to do for an address that keeps its mode or is in error. -/
theorem Moded.graded_same (h : Consistent c) (hr : r ∈ c.replicas)
    (hsame : f r.address = none ∨ r.mode = .ERR) : Moded c c (graded f [r.address]) := by
  refine ⟨h, ((List.map_congr_left (fun s hs => ?_)).trans (List.map_id _)).symm, fun _ => rfl, rfl⟩
  unfold graded
  split
  · rename_i hmet
    obtain rfl := h.eq_of_address hs hr (List.mem_singleton.mp hmet.1)
    rw [hsame.resolve_right hmet.2]
    rfl
  · rfl

/-- What the body of a loop does to one replica: it grades its address, or it fails and does
nothing. -/
def Grades (f : String → Option Mode) (fallible : Prop) (c : Controller β) (a : String)
    (c' : Controller β) (err : Option CtlErr) : Prop :=
  (err = none ∧ Moded c c' (graded f [a])) ∨ (c' = c ∧ err ≠ none ∧ fallible)

section

variable {α : Type} {body : Controller β → α → Replica → Option (Controller β × α × Option CtlErr)}
  {f : String → Option Mode} {fallible : Prop}

/--
**A loop over the replicas grades the addresses it meets** if its body does, and all of them if
it ends without an error. The induction is on the positions that are left.
-/
theorem eachReplica_graded {c₀ : Controller β}
    (hbody : ∀ c acc r, Consistent c →
      c = { c₀ with replicas := c.replicas, backend := c.backend } → r ∈ c.replicas →
      ∃ c' acc' err, body c acc r = some (c', acc', err) ∧ Grades f fallible c r.address c' err)
    (is : List Nat) (h : Consistent c)
    (hc : c = { c₀ with replicas := c.replicas, backend := c.backend })
    (his : ∀ i ∈ is, i < c.replicas.length) (acc : α) :
    ∃ c' acc' err met, eachReplica body is c acc = some (c', acc', err)
      ∧ Moded c c' (graded f met) ∧ (err = none ∨ fallible)
      ∧ (err = none → ∀ i ∈ is, ∀ r, c.replicas[i]? = some r → r.address ∈ met) := by
  induction is generalizing c acc with
  | nil => exact ⟨c, acc, none, [], rfl, graded_nil f ▸ Moded.refl h, Or.inl rfl, by simp⟩
  | cons i is ih =>
    have hi := his i List.mem_cons_self
    obtain ⟨c1, acc1, err1, he1, h1⟩ := hbody c acc _ h hc (List.getElem_mem hi)
    rw [eachReplica, List.getElem?_eq_getElem hi]
    dsimp only
    rw [he1]
    rcases h1 with ⟨rfl, h1⟩ | ⟨rfl, herr, hfall⟩
    · have hlen : c1.replicas.length = c.replicas.length := by rw [h1.replicas, List.length_map]
      obtain ⟨c2, acc2, err2, met, he2, h2, hend, hmet⟩ := ih h1.consistent (by rw [h1.rest, hc])
        (fun j hj => hlen ▸ his j (List.mem_cons_of_mem _ hj)) acc1
      have h12 := h1.trans h2
      rw [graded_comp] at h12
      refine ⟨c2, acc2, err2, _, he2, h12, hend, fun herr j hj r hr => ?_⟩
      rcases List.mem_cons.mp hj with rfl | hj
      · rw [List.getElem?_eq_getElem hi, Option.some.injEq] at hr
        exact hr ▸ List.mem_cons_self
      · refine List.mem_cons_of_mem _ ?_
        rw [← address_graded f [c.replicas[i].address]]
        exact hmet herr j hj _ (by rw [h1.replicas, List.getElem?_map, hr]; rfl)
    · obtain ⟨e, rfl⟩ := Option.ne_none_iff_exists'.mp herr
      exact ⟨c1, acc1, some e, [], rfl, graded_nil f ▸ Moded.refl h, Or.inr hfall, by simp⟩

/-- The same for a loop over all of them. -/
theorem eachReplica_range (hbody : ∀ c' acc r, Consistent c' →
      c' = { c with replicas := c'.replicas, backend := c'.backend } → r ∈ c'.replicas →
      ∃ c'' acc' err, body c' acc r = some (c'', acc', err)
        ∧ Grades f fallible c' r.address c'' err)
    (h : Consistent c) (acc : α) :
    ∃ c' acc' err met, eachReplica body (List.range c.replicas.length) c acc
        = some (c', acc', err)
      ∧ Moded c c' (graded f met) ∧ (err = none ∨ fallible)
      ∧ (err = none → ∀ r ∈ c.replicas, r.address ∈ met) := by
  obtain ⟨c', acc', err, met, he, hm, hend, hmet⟩ := eachReplica_graded hbody _ h rfl
    (fun _ hi => List.mem_range.mp hi) acc
  refine ⟨c', acc', err, met, he, hm, hend, fun herr r hr => ?_⟩
  obtain ⟨i, hi, hri⟩ := List.getElem_of_mem hr
  exact hmet herr i (List.mem_range.mpr hi) r (by rw [List.getElem?_eq_getElem hi, hri])

end

/-! ## The checks of `Start` -/

/-- Addresses that are not good go to ERR. -/
def markBad (good : String → Bool) (a : String) : Option Mode :=
  if good a then none else some .ERR

theorem grades_good (h : Consistent c) (hr : r ∈ c.replicas) (hg : good r.address = true) :
    Grades (markBad good) True c r.address c none :=
  Or.inl ⟨rfl, Moded.graded_same h hr (Or.inl (if_pos hg))⟩

theorem grades_bad {c c' : Controller β} {a : String} (h : Moded c c' (setTo a .ERR))
    (hg : good a = false) :
    Grades (markBad good) True c a c' none := by
  refine Or.inl ⟨rfl, ?_⟩
  rw [graded_some (m := .ERR) (by rw [markBad, hg]; rfl)]
  exact h

/-- The flag is right at this address, or could be corrected. -/
def StartAnswers.markAgrees (answers : StartAnswers β) (expected : Bool) (address : String) :
    Bool :=
  match answers.getUnmapMarkSnapChainRemoved address with
  | .error _ => false
  | .ok enabled =>
    enabled == expected || (answers.setUnmapMarkSnapChainRemoved address).toOption.isSome

/-- The revision counter setting at this address is that of the controller. -/
def StartAnswers.settingAgrees (answers : StartAnswers β) (disabled : Bool) (address : String) :
    Bool :=
  (answers.isRevisionCounterDisabled address).toOption == some disabled

section

variable (h : Consistent c) (order : MapOrder) (answers : StartAnswers β)
include h

theorem checkUnmapMark_graded (expected allFailed : Bool) (hr : r ∈ c.replicas) :
    ∃ c' acc err, checkUnmapMark order answers expected c allFailed r = some (c', acc, err)
      ∧ Grades (markBad (answers.markAgrees expected)) True c r.address c' err := by
  unfold checkUnmapMark
  by_cases hm : r.mode = .ERR
  · rw [if_pos hm]
    exact ⟨c, _, _, rfl, Or.inl ⟨rfl, Moded.graded_same h hr (Or.inr hm)⟩⟩
  rw [if_neg hm, ask_eq h hr hm, ask_eq h hr hm]
  cases hget : answers.getUnmapMarkSnapChainRemoved r.address with
  | error e => exact ⟨c, _, _, rfl, Or.inr ⟨rfl, by simp, trivial⟩⟩
  | ok enabled =>
    dsimp only [Except.mapError]
    by_cases hne : enabled ≠ expected
    · rw [if_pos hne]
      cases hset : answers.setUnmapMarkSnapChainRemoved r.address with
      | error e =>
        obtain ⟨c', he, hc⟩ := setReplicaModeNoLock_spec h order r.address .ERR (by simp)
        dsimp only
        rw [he]
        refine ⟨c', _, _, rfl, grades_bad hc ?_⟩
        rw [StartAnswers.markAgrees, hget, hset]
        simpa [Except.toOption] using hne
      | ok _ =>
        refine ⟨c, _, _, rfl, grades_good h hr ?_⟩
        rw [StartAnswers.markAgrees, hget, hset]
        simp [Except.toOption]
    · rw [if_neg hne]
      refine ⟨c, _, _, rfl, grades_good h hr ?_⟩
      rw [StartAnswers.markAgrees, hget, not_not.mp hne]
      simp

theorem checkUnmapMarkSnapChainRemoved_graded :
    ∃ c' err met, c.checkUnmapMarkSnapChainRemoved order answers = some (c', err)
      ∧ Moded c c' (graded (markBad (answers.markAgrees c.unmapMarkSnapChainRemoved)) met)
      ∧ (err = none → ∀ r ∈ c.replicas, r.address ∈ met) := by
  obtain ⟨c', acc, err, met, he, hm, -, hmet⟩ := eachReplica_range (fun _ acc _ hc _ hr =>
    checkUnmapMark_graded hc order answers c.unmapMarkSnapChainRemoved acc hr) h true
  unfold checkUnmapMarkSnapChainRemoved
  rw [he]
  cases err with
  | some e => exact ⟨c', some e, met, rfl, hm, by simp⟩
  | none =>
    cases acc with
    | true => exact ⟨c', _, met, rfl, hm, by simp⟩
    | false => exact ⟨c', none, met, rfl, hm, hmet⟩

theorem checkRevCounterSetting_graded (u : Unit) (hr : r ∈ c.replicas) :
    ∃ c' acc err, checkRevCounterSetting order answers c u r = some (c', acc, err)
      ∧ Grades (markBad (answers.settingAgrees c.revisionCounterDisabled)) True c r.address c'
        err := by
  unfold checkRevCounterSetting
  by_cases hm : r.mode = .ERR
  · rw [if_pos hm]
    exact ⟨c, _, _, rfl, Or.inl ⟨rfl, Moded.graded_same h hr (Or.inr hm)⟩⟩
  rw [if_neg hm, askDirect_eq h hr hm]
  cases hget : answers.isRevisionCounterDisabled r.address with
  | error e => exact ⟨c, _, _, rfl, Or.inr ⟨rfl, by simp, trivial⟩⟩
  | ok disabled =>
    dsimp only [Except.mapError]
    by_cases hne : c.revisionCounterDisabled ≠ disabled
    · rw [if_pos hne]
      obtain ⟨c', he, hc⟩ := setReplicaModeNoLock_spec h order r.address .ERR (by simp)
      rw [he]
      refine ⟨c', _, _, rfl, grades_bad hc ?_⟩
      rw [StartAnswers.settingAgrees, hget]
      simpa [Except.toOption] using Ne.symm hne
    · rw [if_neg hne]
      refine ⟨c, _, _, rfl, grades_good h hr ?_⟩
      rw [StartAnswers.settingAgrees, hget, not_not.mp hne]
      simp [Except.toOption]

theorem checkReplicaRevCounterSettingMatch_graded :
    ∃ c' err met, c.checkReplicaRevCounterSettingMatch order answers = some (c', err)
      ∧ Moded c c' (graded (markBad (answers.settingAgrees c.revisionCounterDisabled)) met)
      ∧ (err = none → ∀ r ∈ c.replicas, r.address ∈ met) := by
  obtain ⟨c', acc, err, met, he, hm, -, hmet⟩ := eachReplica_range
    (f := markBad (answers.settingAgrees c.revisionCounterDisabled)) (fun c1 acc _ hc hrest hr => by
      have hset : c1.revisionCounterDisabled = c.revisionCounterDisabled := by rw [hrest]
      rw [← hset]
      exact checkRevCounterSetting_graded hc order answers acc hr) h ()
  unfold checkReplicaRevCounterSettingMatch
  rw [he]
  exact ⟨c', err, met, rfl, hm, hmet⟩

end

/-- The loop at the end of a salvage: the chosen replica is RW, the others are in error. -/
theorem eachReplica_salvageReplica (h : Consistent c) (order : MapOrder) (best : String) :
    ∃ c' met, eachReplica (salvageReplica order best) (List.range c.replicas.length) c ()
        = some (c', (), none)
      ∧ Moded c c' (graded (fun a => some (if a ≠ best then .ERR else .RW)) met)
      ∧ ∀ r ∈ c.replicas, r.address ∈ met := by
  have hbody : ∀ (c1 : Controller β) (u : Unit) (r : Replica), Consistent c1 →
      ∃ c' u' err, salvageReplica order best c1 u r = some (c', u', err)
        ∧ Grades (fun a => some (if a ≠ best then .ERR else .RW)) False c1 r.address c' err := by
    intro c1 u r hc
    obtain ⟨c', he, hm⟩ := setReplicaModeNoLock_spec hc order r.address
      (if r.address ≠ best then .ERR else .RW) (by split <;> simp)
    rw [salvageReplica, he]
    exact ⟨c', (), none, rfl, Or.inl ⟨rfl, by rw [graded_some rfl]; exact hm⟩⟩
  obtain ⟨c', u, err, met, he, hm, hend, hmet⟩ :=
    eachReplica_range (fun c1 u r hc _ _ => hbody c1 u r hc) h ()
  obtain rfl := hend.resolve_right id
  exact ⟨c', met, he, hm, hmet rfl⟩

/-- What is known of a replica that is not in error. -/
structure Candidate (answers : StartAnswers β) (l : List Replica) (info : ReplicaSalvageInfo) :
    Prop where
  listed : ∃ m, m ≠ .ERR ∧ ⟨info.address, m⟩ ∈ l
  time : answers.getLastModifyTime info.address = .ok info.lastModifyTime
  size : answers.getHeadFileSize info.address = .ok info.headFileSize

theorem Candidate.cons {answers : StartAnswers β} {l : List Replica} {info : ReplicaSalvageInfo}
    (h : Candidate answers l info) (r : Replica) : Candidate answers (r :: l) info := by
  obtain ⟨⟨m, hm, hin⟩, ht, hs⟩ := h
  exact ⟨⟨m, hm, List.mem_cons_of_mem _ hin⟩, ht, hs⟩

/-- **The candidates are the replicas that are not in error**, with what they answered, unless
one of them answers with an error. -/
theorem salvageCandidates_cases (h : Consistent c) (answers : StartAnswers β)
    (l : List Replica) (hl : ∀ r ∈ l, r ∈ c.replicas) :
    (∃ e, salvageCandidates answers c l = some (.error (.backend e)))
      ∨ ∃ infos, salvageCandidates answers c l = some (.ok infos)
        ∧ (∀ info ∈ infos, Candidate answers l info)
        ∧ ∀ r ∈ l, r.mode ≠ .ERR → ∃ info ∈ infos, info.address = r.address := by
  induction l with
  | nil => exact Or.inr ⟨[], rfl, by simp, by simp⟩
  | cons r l ih =>
    have hrest := ih (fun x hx => hl x (List.mem_cons_of_mem _ hx))
    rw [salvageCandidates]
    by_cases hm : r.mode = .ERR
    · rw [if_pos hm]
      refine hrest.imp_right (fun hex => ?_)
      obtain ⟨infos, he, hc, hall⟩ := hex
      refine ⟨infos, he, fun info hin => (hc info hin).cons r, fun s hs hsm => ?_⟩
      rcases List.mem_cons.mp hs with rfl | hs
      · exact absurd hm hsm
      · exact hall s hs hsm
    have hr := hl r List.mem_cons_self
    rw [if_neg hm, askDirect_eq h hr hm, askDirect_eq h hr hm]
    cases ht : answers.getLastModifyTime r.address with
    | error e => exact Or.inl ⟨e, rfl⟩
    | ok t =>
      cases hs : answers.getHeadFileSize r.address with
      | error e => exact Or.inl ⟨e, rfl⟩
      | ok s =>
        dsimp only [Except.mapError]
        rcases hrest with ⟨e, he⟩ | ⟨infos, he, hc, hall⟩
        · exact Or.inl ⟨e, by rw [he]; rfl⟩
        refine Or.inr ⟨⟨r.address, t, s⟩ :: infos, by rw [he]; rfl, fun info hin => ?_,
          fun x hx hxm => ?_⟩
        · rcases List.mem_cons.mp hin with rfl | hin
          · exact ⟨⟨r.mode, hm, List.mem_cons_self⟩, ht, hs⟩
          · exact (hc info hin).cons r
        · rcases List.mem_cons.mp hx with rfl | hx
          · exact ⟨_, List.mem_cons_self, rfl⟩
          · obtain ⟨info, hin, ha⟩ := hall x hx hxm
            exact ⟨info, List.mem_cons_of_mem _ hin, ha⟩

theorem salvage_regraded (h : Consistent c) (order : MapOrder) (answers : StartAnswers β) :
    ∃ c' err, c.salvageRevisionCounterDisabledReplicas order answers = some (c', err)
      ∧ Regraded c c' := by
  unfold salvageRevisionCounterDisabledReplicas
  rcases salvageCandidates_cases h answers c.replicas (fun _ hr => hr) with
    ⟨e, hres⟩ | ⟨infos, hres, -⟩
  · rw [hres]
    exact ⟨c, _, rfl, Regraded.refl h⟩
  rw [hres]
  dsimp only
  cases lastModifyTime infos with
  | none => exact ⟨c, _, rfl, Regraded.refl h⟩
  | some last =>
    dsimp only
    cases infos.foldl (betterCandidate last) none with
    | none => exact ⟨c, _, rfl, Regraded.refl h⟩
    | some best =>
      obtain ⟨c', met, he, hm, -⟩ := eachReplica_salvageReplica h order best.address
      dsimp only
      rw [he]
      exact ⟨c', none, rfl, hm.regraded_graded⟩

/-- What the search for the largest counter finds. -/
structure Counted (answers : StartAnswers β) (l : List Replica) (expected₀ : Int)
    (counters₀ : AList (fun _ : String => Int)) (expected : Int)
    (counters : AList (fun _ : String => Int)) : Prop where
  le : expected₀ ≤ expected
  reached : expected = expected₀
    ∨ ∃ r ∈ l, r.mode ≠ .ERR ∧ answers.getRevisionCounter r.address = .ok expected
  bound : ∀ r ∈ l, r.mode ≠ .ERR →
    ∃ n, answers.getRevisionCounter r.address = .ok n ∧ n ≤ expected
  lookup : ∀ r ∈ l, r.mode ≠ .ERR →
    ∃ n, answers.getRevisionCounter r.address = .ok n ∧ counters.lookup r.address = some n
  kept : ∀ a n, counters₀.lookup a = some n → answers.getRevisionCounter a = .ok n →
    counters.lookup a = some n

theorem revisionCounters_cases (h : Consistent c) (answers : StartAnswers β)
    (l : List Replica) (hl : ∀ r ∈ l, r ∈ c.replicas) (expected₀ : Int)
    (counters₀ : AList (fun _ : String => Int)) :
    (∃ e, revisionCounters answers c l expected₀ counters₀ = some (.error e))
      ∨ ∃ expected counters,
        revisionCounters answers c l expected₀ counters₀ = some (.ok (expected, counters))
        ∧ Counted answers l expected₀ counters₀ expected counters := by
  induction l generalizing expected₀ counters₀ with
  | nil => exact Or.inr ⟨_, _, rfl, Int.le_refl _, Or.inl rfl, by simp, by simp, fun _ _ h _ => h⟩
  | cons r l ih =>
    have hrest := ih (fun x hx => hl x (List.mem_cons_of_mem _ hx))
    rw [revisionCounters]
    by_cases hm : r.mode = .ERR
    · rw [if_pos hm]
      refine (hrest expected₀ counters₀).imp_right (fun hex => ?_)
      obtain ⟨expected, counters, he, h⟩ := hex
      have hskip : ∀ s ∈ r :: l, s.mode ≠ .ERR → s ∈ l := by
        intro s hs hsm
        rcases List.mem_cons.mp hs with rfl | hs
        · exact absurd hm hsm
        · exact hs
      refine ⟨expected, counters, he, h.le, h.reached.imp_right ?_,
        fun s hs hsm => h.bound s (hskip s hs hsm) hsm,
        fun s hs hsm => h.lookup s (hskip s hs hsm) hsm, h.kept⟩
      intro hex
      obtain ⟨s, hs, hsm⟩ := hex
      exact ⟨s, List.mem_cons_of_mem _ hs, hsm⟩
    rw [if_neg hm, ask_eq h (hl r List.mem_cons_self) hm]
    cases hn : answers.getRevisionCounter r.address with
    | error e => exact Or.inl ⟨_, rfl⟩
    | ok n =>
      refine (hrest (max expected₀ n) (counters₀.insert r.address n)).imp_right (fun hex => ?_)
      obtain ⟨expected, counters, he, h⟩ := hex
      have hle : n ≤ expected := Int.le_trans (Int.le_max_right _ _) h.le
      refine ⟨expected, counters, he, Int.le_trans (Int.le_max_left _ _) h.le, ?_,
        fun s hs hsm => ?_, fun s hs hsm => ?_, fun a m ha hget => ?_⟩
      · rcases h.reached with he | ⟨s, hs, hsm⟩
        · rcases Int.le_total expected₀ n with hle' | hle'
          · rw [Int.max_eq_right hle'] at he
            exact Or.inr ⟨r, List.mem_cons_self, hm, by rw [he]; exact hn⟩
          · rw [Int.max_eq_left hle'] at he
            exact Or.inl he
        · exact Or.inr ⟨s, List.mem_cons_of_mem _ hs, hsm⟩
      · rcases List.mem_cons.mp hs with rfl | hs
        · exact ⟨n, hn, hle⟩
        · exact h.bound s hs hsm
      · rcases List.mem_cons.mp hs with rfl | hs
        · exact ⟨n, hn, h.kept _ _ (AList.lookup_insert _) hn⟩
        · exact h.lookup s hs hsm
      · refine h.kept a m ?_ hget
        rw [lookup_insert_eq]
        by_cases har : a = r.address
        · rw [if_pos har]
          rw [har, hn] at hget
          exact congrArg some (Except.ok.inj hget)
        · rw [if_neg har]; exact ha

theorem checkReplicasRevisionCounter_regraded (h : Consistent c)
    (order : MapOrder) (answers : StartAnswers β) :
    ∃ c' err, c.checkReplicasRevisionCounter order answers = some (c', err) ∧ Regraded c c' := by
  unfold checkReplicasRevisionCounter
  rcases revisionCounters_cases h answers c.replicas (fun _ hr => hr) 0 ∅ with
    ⟨e, hres⟩ | ⟨expected, counters, hres, -⟩
  · rw [hres]
    exact ⟨c, _, rfl, Regraded.refl h⟩
  rw [hres]
  dsimp only
  obtain ⟨c', he, hr⟩ := setErr_spec h order (((entries order counters).filter
    (fun e => e.2 ≠ expected)).map (fun e => e.1))
  rw [he]
  exact ⟨c', none, rfl, hr.regraded_markErr⟩

theorem checkReplicas_regraded (h : Consistent c) (order : MapOrder) (answers : StartAnswers β) :
    ∃ c' err, c.checkReplicas order answers = some (c', err) ∧ Regraded c c' := by
  unfold checkReplicas
  obtain ⟨c1, err1, met1, he1, hm1, -⟩ := checkUnmapMarkSnapChainRemoved_graded h order answers
  have h1 := hm1.regraded_graded
  rw [he1]
  cases err1 with
  | some e => exact ⟨c1, _, rfl, h1⟩
  | none =>
    dsimp only
    by_cases hup : c1.isUpgrade = true
    · rw [if_pos hup]; exact ⟨c1, none, rfl, h1⟩
    rw [if_neg hup]
    obtain ⟨c2, err2, met2, he2, hm2, -⟩ :=
      checkReplicaRevCounterSettingMatch_graded h1.consistent order answers
    have h2 := h1.trans hm2.regraded_graded
    rw [he2]
    cases err2 with
    | some e => exact ⟨c2, _, rfl, h2⟩
    | none =>
      dsimp only
      split_ifs
      · obtain ⟨c3, err3, he3, h3⟩ := salvage_regraded h2.consistent order answers
        exact ⟨c3, err3, he3, h2.trans h3⟩
      · exact ⟨c2, none, rfl, h2⟩
      · obtain ⟨c3, err3, he3, h3⟩ :=
          checkReplicasRevisionCounter_regraded h2.consistent order answers
        exact ⟨c3, err3, he3, h2.trans h3⟩

/-! ## The operations -/

/-- The replica an address becomes. -/
def openedReplica (available : AList (fun _ : String => β)) (a : String) : Replica :=
  ⟨a, if a ∈ available then .RW else .ERR⟩

section

variable (h : Consistent c) (order : MapOrder)
include h

/-- One address: it can not be added, it is there already, or it becomes a replica. -/
theorem addOpened_cons (available : AList (fun _ : String => β)) (a : String) (l : List String) :
    (∃ e, addOpened order available (a :: l) c = some (c, some e))
      ∨ (c.hasReplica a = true
        ∧ addOpened order available (a :: l) c = addOpened order available l c)
      ∨ ∃ c1, addOpened order available (a :: l) c = addOpened order available l c1
        ∧ Consistent c1 ∧ c1.replicas = c.replicas ++ [openedReplica available a]
        ∧ c1 = { c with replicas := c1.replicas, backend := c1.backend } := by
  obtain ⟨b, hnil, hfail, hok⟩ : ∃ b, (b = none → (openedReplica available a).mode = .ERR)
      ∧ (∀ c1 e, c.addReplicaNoLock order b a false (openedReplica available a).mode
          ⟨fun _ => .error .eof, fun _ => .error .eof, fun _ => none⟩ = some (c1, some e) →
        addOpened order available (a :: l) c = some (c1, some e))
      ∧ ∀ c1, c.addReplicaNoLock order b a false (openedReplica available a).mode
          ⟨fun _ => .error .eof, fun _ => .error .eof, fun _ => none⟩ = some (c1, none) →
        addOpened order available (a :: l) c = addOpened order available l c1 := by
    unfold openedReplica
    rw [addOpened]
    by_cases hmem : a ∈ available
    · obtain ⟨b, hl⟩ := (mem_iff_lookup _ _).mp hmem
      rw [if_pos hmem, hl]
      dsimp only
      exact ⟨some b, fun hh => absurd hh (by simp), fun c1 e he => by rw [he],
        fun c1 he => by rw [he]⟩
    · rw [if_neg hmem, AList.lookup_eq_none.mpr hmem]
      dsimp only
      exact ⟨none, fun _ => rfl, fun c1 e he => by rw [he], fun c1 he => by rw [he]⟩
  unfold addReplicaNoLock canAdd at hfail hok
  by_cases h1 : c.hasReplica a = true
  · rw [if_pos h1] at hok
    exact Or.inr (Or.inl ⟨h1, hok c rfl⟩)
  rw [if_neg h1] at hfail hok
  by_cases h2 : c.hasWOReplica = true
  · rw [if_pos h2] at hfail
    exact Or.inl ⟨_, hfail c _ rfl⟩
  rw [if_neg h2] at hfail hok
  by_cases h3 : c.isExpanding = true
  · rw [if_pos h3] at hfail
    exact Or.inl ⟨_, hfail c _ rfl⟩
  rw [if_neg h3] at hok
  exact Or.inr (Or.inr ⟨_, hok _ rfl, h.add order hnil h1 h2, rfl, rfl⟩)

/-- **The third loop adds one replica for each address** that is new. -/
theorem addOpened_spec (available : AList (fun _ : String => β)) (addresses : List String) :
    ∃ c' err, addOpened order available addresses c = some (c', err) ∧ Consistent c'
      ∧ c' = { c with replicas := c'.replicas, backend := c'.backend }
      ∧ (err = none → addresses.Nodup → (∀ a ∈ addresses, c.hasReplica a ≠ true) →
        c.hasWOReplica ≠ true →
        c'.replicas = c.replicas ++ addresses.map (openedReplica available)) := by
  induction addresses generalizing c with
  | nil => exact ⟨c, none, rfl, h, rfl, fun _ _ _ _ => by simp⟩
  | cons a l ih =>
    rcases addOpened_cons h order available a l with ⟨e, he⟩ | ⟨hhas, he⟩ | ⟨c1, he, h1, hrep, hrest⟩
    · exact ⟨c, some e, he, h, rfl, fun hh => absurd hh (by simp)⟩
    · obtain ⟨c', err, he', h', hrest, -⟩ := ih h
      exact ⟨c', err, he.trans he', h', hrest,
        fun _ _ hnew => absurd hhas (hnew a List.mem_cons_self)⟩
    obtain ⟨c', err, he', h', hrest', hreps⟩ := ih h1
    refine ⟨c', err, he.trans he', h', by rw [hrest', hrest], fun herr hnd hnew hwo => ?_⟩
    obtain ⟨ha, hnd⟩ := List.nodup_cons.mp hnd
    rw [hreps herr hnd, hrep, List.append_assoc]
    · rfl
    · intro x hx hhas
      obtain ⟨m, hm⟩ := (hasReplica_iff _ x).mp hhas
      rw [hrep] at hm
      rcases List.mem_append.mp hm with hm | hm
      · exact hnew x (List.mem_cons_of_mem _ hx) ((hasReplica_iff c x).mpr ⟨m, hm⟩)
      · rw [(Replica.mk.inj (List.mem_singleton.mp hm)).1] at hx
        exact ha hx
    · intro hhas
      obtain ⟨r, hr, hm⟩ := (hasWOReplica_iff _).mp hhas
      rw [hrep] at hr
      rcases List.mem_append.mp hr with hr | hr
      · exact hwo ((hasWOReplica_iff c).mpr ⟨r, hr, hm⟩)
      · rw [List.mem_singleton.mp hr, openedReplica] at hm
        split at hm <;> exact absurd hm (by simp)

theorem start_spec (volumeSize volumeCurrentSize : Int) (addresses : List String) (answers : StartAnswers β) :
    ∃ c' err, c.start order volumeSize volumeCurrentSize addresses answers = some (c', err)
      ∧ Consistent c' ∧ ∀ a, ⟨a, .ERR⟩ ∈ c.replicas → ⟨a, .ERR⟩ ∈ c'.replicas := by
  unfold start
  by_cases h0 : addresses.length = 0
  · rw [if_pos h0]; exact ⟨c, none, rfl, h, fun _ ha => ha⟩
  rw [if_neg h0]
  cases checkDuplicateAddress addresses ∅ with
  | some e => exact ⟨c, _, rfl, h, fun _ ha => ha⟩
  | none =>
    dsimp only
    by_cases hpos : 0 < c.replicas.length
    · rw [if_pos hpos]; exact ⟨c, none, rfl, h, fun _ ha => ha⟩
    have hnone : ∀ {c' : Controller β} a, ⟨a, .ERR⟩ ∈ c.replicas → ⟨a, .ERR⟩ ∈ c'.replicas :=
      fun _ ha => absurd (List.length_pos_of_mem ha) hpos
    rw [if_neg hpos]
    generalize addresses.foldl (openBackend answers) ⟨∅, ∅, false, none⟩ = o
    generalize determineCorrectVolumeSize volumeSize volumeCurrentSize o.backendSizes = size
    generalize dropOtherSizes answers size (entries order o.availableBackends)
      o.availableBackends = available
    obtain ⟨c1, err1, he1, h1, -⟩ := addOpened_spec (consistent_fresh
      (c := { c.reset with size := size, sectorSize := o.sectorSize.getD c.sectorSize })
      ⟨rfl, rfl⟩) order available addresses
    rw [he1]
    cases err1 with
    | some e => exact ⟨c1, _, rfl, h1, hnone⟩
    | none =>
      dsimp only
      split
      · exact ⟨c1, _, rfl, h1, hnone⟩
      · obtain ⟨c2, err2, he2, h2⟩ := checkReplicas_regraded h1 order answers
        rw [he2]
        cases err2 with
        | some e => exact ⟨c2, _, rfl, h2.consistent, hnone⟩
        | none => exact ⟨c2, _, rfl, h2.consistent, hnone⟩

theorem addReplica_spec (address : String) (snapshotRequired : Bool) (mode : Mode) (answers : AddAnswers β) :
    ∃ c' err, c.addReplica order address snapshotRequired mode answers = some (c', err)
      ∧ Consistent c' ∧ ∀ r ∈ c.replicas, r ∈ c'.replicas := by
  unfold addReplica
  obtain ⟨ok, e⟩ := c.canAdd address
  cases ok with
  | false => exact ⟨c, e, rfl, h, fun r hr => hr⟩
  | true =>
    cases answers.create with
    | error e => exact ⟨c, _, rfl, h, fun r hr => hr⟩
    | ok b =>
      cases answers.size with
      | error e => exact ⟨c, _, rfl, h, fun r hr => hr⟩
      | ok size =>
        dsimp only
        split
        · have hsize : Consistent { c with size := size } :=
            ⟨h.distinct, h.modes, h.oneWO, h.nil_err, h.built⟩
          exact addReplicaNoLock_spec hsize order (some b) address snapshotRequired mode
            answers.snapshots (by simp)
        · exact addReplicaNoLock_spec h order (some b) address snapshotRequired mode
            answers.snapshots (by simp)

end

theorem getCurrentAndRWReplica_ok {cur rw : Replica}
    (h : c.getCurrentAndRWReplica address = .ok (cur, rw)) :
    cur ∈ c.replicas ∧ cur.address = address ∧ rw ∈ c.replicas ∧ rw.address ≠ address
      ∧ rw.mode = .RW := by
  unfold getCurrentAndRWReplica at h
  split at h
  · simp at h
  · simp at h
  · rename_i x y hx hy
    obtain ⟨rfl, rfl⟩ := Prod.mk.inj (Except.ok.inj h)
    have hx' := List.find?_some hx
    have hy' := List.find?_some hy
    simp only [decide_eq_true_eq, Bool.decide_and, Bool.and_eq_true] at hx' hy'
    refine ⟨List.mem_reverse.mp (List.mem_of_find?_eq_some hx), hx',
      List.mem_reverse.mp (List.mem_of_find?_eq_some hy), ?_, hy'.2⟩
    simpa using hy'.1

theorem getCurrentAndRWReplica_error {e : CtlErr}
    (h : c.getCurrentAndRWReplica address = .error e) :
    (∀ r ∈ c.replicas, r.address ≠ address)
      ∨ ∀ r ∈ c.replicas, r.address ≠ address → r.mode ≠ .RW := by
  unfold getCurrentAndRWReplica at h
  split at h
  · rename_i hx
    refine .inl (fun r hr => ?_)
    simpa using List.find?_eq_none.mp hx r (List.mem_reverse.mpr hr)
  · rename_i hy
    refine .inr (fun r hr hne hrw => ?_)
    have := List.find?_eq_none.mp hy r (List.mem_reverse.mpr hr)
    simp [hne, hrw] at this
  · simp at h

/-! What a verification finds, with the RW replica `rw` to compare with. -/

/-- The replica is WO, and its disks are those of `rw`. -/
structure SameDisks (c : Controller β) (address : String) (answers : VerifyAnswers) (rw : Replica) :
    Prop where
  rebuilding : ⟨address, .WO⟩ ∈ c.replicas
  healthy : rw ∈ c.replicas ∧ rw.mode = .RW ∧ rw.address ≠ address
  disks : ∃ disks, answers.fromDisks = .ok disks ∧ answers.toDisks = .ok disks

/-- The counter of `rw` is known and has been set, where there are counters. -/
def CounterSet (c : Controller β) (answers : VerifyAnswers) : Prop :=
  c.revisionCounterDisabled = false →
    ∃ counter, answers.getRevisionCounter = .ok counter ∧ answers.setRevisionCounter counter = .ok ()

/-- The counter of `rw` comes as -1 and without an error. -/
def CounterUnknown (c : Controller β) (answers : VerifyAnswers) : Prop :=
  c.revisionCounterDisabled = false ∧ answers.getRevisionCounter = .ok (-1)

section

variable (h : Consistent c) (order : MapOrder) (address : String) (answers : VerifyAnswers)
include h

/-- **What the body of `VerifyRebuildReplica` can do.** -/
theorem verifyBody_cases :
    (∃ e, c.verifyBody order address answers = some (c, some e)
        ∧ (⟨address, .RW⟩ ∈ c.replicas → ∀ r ∈ c.replicas, r.address ≠ address → r.mode ≠ .RW)
        ∧ ∀ rw, SameDisks c address answers rw → ¬ CounterUnknown c answers)
      ∨ (c.verifyBody order address answers = some (c, none) ∧ ⟨address, .RW⟩ ∈ c.replicas
        ∧ ∃ r ∈ c.replicas, r.address ≠ address ∧ r.mode = .RW)
      ∨ (c.verifyBody order address answers = some (c, none)
        ∧ ∃ rw, SameDisks c address answers rw ∧ CounterUnknown c answers)
      ∨ ∃ c', c.verifyBody order address answers = some (c', none)
        ∧ Moded c c' (setTo address .RW)
        ∧ ∃ rw, SameDisks c address answers rw ∧ CounterSet c answers
          ∧ ¬ CounterUnknown c answers := by
  unfold verifyBody
  cases hcur : c.getCurrentAndRWReplica address with
  | error e =>
    refine .inl ⟨e, rfl, fun hrw => ?_, fun rw hsame _ => ?_⟩
    · rcases getCurrentAndRWReplica_error hcur with hno | hno
      · exact absurd rfl (hno _ hrw)
      · exact hno
    · rcases getCurrentAndRWReplica_error hcur with hno | hno
      · exact hno _ hsame.rebuilding rfl
      · exact hno rw hsame.healthy.1 hsame.healthy.2.2 hsame.healthy.2.1
  | ok p =>
    obtain ⟨⟨a, mode⟩, rw⟩ := p
    obtain ⟨hc, rfl, hr, hne, hrw⟩ := getCurrentAndRWReplica_ok hcur
    have hmode : ∀ {m}, ⟨a, m⟩ ∈ c.replicas → m = mode := fun hm =>
      congrArg Replica.mode (h.eq_of_address hm hc rfl)
    dsimp only
    by_cases h1 : mode = .RW
    · rw [if_pos h1]
      exact .inr (.inl ⟨rfl, h1 ▸ hc, rw, hr, hne, hrw⟩)
    rw [if_neg h1]
    have hnotRW : ⟨a, .RW⟩ ∈ c.replicas → ∀ r ∈ c.replicas, r.address ≠ a → r.mode ≠ .RW :=
      fun hm => absurd (hmode hm).symm h1
    by_cases h2 : mode ≠ .WO
    · rw [if_pos h2]
      exact .inl ⟨_, rfl, hnotRW, fun rw' hsame => absurd (hmode hsame.rebuilding).symm h2⟩
    rw [if_neg h2]
    rw [not_not] at h2
    subst h2
    -- from here on every error is told from what the replicas answered
    cases hfrom : answers.fromDisks with
    | error e =>
      refine .inl ⟨_, rfl, hnotRW, fun rw' hsame _ => ?_⟩
      obtain ⟨disks, hd, -⟩ := hsame.disks
      exact absurd (hfrom.symm.trans hd) (by simp)
    | ok fromDisks =>
    cases hto : answers.toDisks with
    | error e =>
      refine .inl ⟨_, rfl, hnotRW, fun rw' hsame _ => ?_⟩
      obtain ⟨disks, -, hd⟩ := hsame.disks
      exact absurd (hto.symm.trans hd) (by simp)
    | ok toDisks =>
    dsimp only
    have heq : ∀ {rw'}, SameDisks c a answers rw' → fromDisks = toDisks := by
      intro rw' hsame
      obtain ⟨disks, hd, hd'⟩ := hsame.disks
      rw [Except.ok.inj (hfrom.symm.trans hd), Except.ok.inj (hto.symm.trans hd')]
    by_cases h3 : fromDisks.card ≠ toDisks.card
    · rw [if_pos h3]
      exact .inl ⟨_, rfl, hnotRW, fun rw' hsame _ => h3 (by rw [heq hsame])⟩
    rw [if_neg h3]
    by_cases h4 : ¬ fromDisks ⊆ toDisks
    · rw [if_pos h4]
      exact .inl ⟨_, rfl, hnotRW, fun rw' hsame _ => h4 (by rw [heq hsame])⟩
    rw [if_neg h4]
    obtain rfl : fromDisks = toDisks :=
      Finset.eq_of_subset_of_card_le (not_not.mp h4) (not_not.mp h3).symm.le
    have hsame : SameDisks c a answers rw := ⟨hc, ⟨hr, hrw, hne⟩, fromDisks, hfrom, hto⟩
    obtain ⟨c', he, hset⟩ := setReplicaModeNoLock_spec h order a .RW (by simp)
    by_cases h5 : c.revisionCounterDisabled = true
    · rw [if_pos h5, he]
      refine .inr (.inr (.inr ⟨c', rfl, hset, rw, hsame, fun hoff => ?_, fun hun => ?_⟩))
      · exact absurd (h5.symm.trans hoff) (by simp)
      · exact absurd (h5.symm.trans hun.1) (by simp)
    rw [if_neg h5, ask_eq h hr (by rw [hrw]; simp)]
    cases hget : answers.getRevisionCounter with
    | error e =>
      exact .inl ⟨_, rfl, hnotRW, fun rw' _ hun => absurd (hget.symm.trans hun.2) (by simp)⟩
    | ok counter =>
    dsimp only [Except.mapError]
    by_cases h6 : counter = -1
    · rw [if_pos h6]
      exact .inr (.inr (.inl ⟨rfl, rw, hsame, by simpa using h5, by rw [hget, h6]⟩))
    rw [if_neg h6, ask_eq h (r := ⟨a, .WO⟩) hc (by simp)]
    have hknown : ¬ CounterUnknown c answers :=
      fun hun => h6 (Except.ok.inj (hget.symm.trans hun.2))
    cases hres : answers.setRevisionCounter counter with
    | error e => exact .inl ⟨_, rfl, hnotRW, fun rw' _ => hknown⟩
    | ok u =>
      dsimp only [Except.mapError]
      rw [he]
      exact .inr (.inr (.inr ⟨c', rfl, hset, rw, hsame, fun _ => ⟨counter, hget, hres⟩, hknown⟩))

theorem verifyBody_regraded :
    ∃ c' err, c.verifyBody order address answers = some (c', err) ∧ Regraded c c' := by
  rcases verifyBody_cases h order address answers with ⟨e, he, -⟩ | ⟨he, -⟩ | ⟨he, -⟩ | ⟨c', he, hm, -⟩
  · exact ⟨c, _, he, Regraded.refl h⟩
  · exact ⟨c, _, he, Regraded.refl h⟩
  · exact ⟨c, _, he, Regraded.refl h⟩
  · exact ⟨c', _, he, hm.regraded_setTo⟩

theorem verifyRebuildReplica_regraded :
    ∃ c' err, c.verifyRebuildReplica order address answers = some (c', err) ∧ Regraded c c' := by
  obtain ⟨c1, err, he, h1⟩ := verifyBody_regraded h order address answers
  unfold verifyRebuildReplica
  rw [he]
  cases err with
  | none => exact ⟨c1, none, rfl, h1⟩
  | some e =>
    obtain ⟨c2, he2, h2⟩ := setReplicaModeNoLock_regraded h1.consistent order address .ERR
      (by simp)
    dsimp only
    rw [he2]
    exact ⟨c2, _, rfl, h1.trans h2⟩

end

end Controller

end WeftBlock
