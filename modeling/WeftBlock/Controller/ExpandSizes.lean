import WeftBlock.Controller.Expand
import WeftBlock.Controller.UnmapBlame

/-!
# Sizes after an expansion

When an expansion has finished, every RW replica should have the size of the
controller, and a replica that failed without a completed rollback should be in ERR.
Two things stand in the way. If the frontend does not follow, the controller keeps
the old size while the replicas have the new one. And a replica that is out of sync
stays RW if `handleErrorNoLock` does not demote it. `Tame` excludes both, and nothing
else.
-/

namespace WeftBlock

open DataConn Maps

namespace Controller

variable {β : Type}

/-- The expansion gets as far as asking the backends. -/
def asksBackends (order : MapOrder) (c : Controller β) (answers : ExpandAnswers) : Prop :=
  c.isExpanding = false ∧ c.canDoSnapshot order answers.snapshots = some none

/-- The replica failed and could not go back to where it was. -/
def leavesBroken (order : MapOrder) (c : Controller β) (answers : ExpandAnswers) (a : String) :
    Prop :=
  c.asksBackends order answers ∧ ∃ e, answers.expand a = some e ∧ e.rolledBack = false

/--
The sizes of the replicas after the expansion: the new one where it succeeded, the
old one where it was rolled back or not asked for, and any where it left a mess.
-/
structure Resized (order : MapOrder) (c : Controller β) (answers : ExpandAnswers) (size : Int)
    (sizes sizes' : String → Int) : Prop where
  expanded : ∀ r ∈ c.replicas, r.mode ≠ .ERR → c.asksBackends order answers →
    answers.expand r.address = none → sizes' r.address = size
  rolledBack : ∀ r ∈ c.replicas, r.mode ≠ .ERR → c.asksBackends order answers →
    ∀ e, answers.expand r.address = some e → e.rolledBack = true →
    sizes' r.address = sizes r.address
  unasked : ¬ c.asksBackends order answers → sizes' = sizes

/--
**Sizes are consistent.** Every RW replica has the size of the controller, and every
replica that failed without a completed rollback is in ERR.
-/
def SizesConsistent (order : MapOrder) (c c' : Controller β) (answers : ExpandAnswers)
    (sizes' : String → Int) : Prop :=
  (∀ r ∈ c'.replicas, r.mode = .RW → sizes' r.address = c'.size)
    ∧ ∀ r ∈ c.replicas, r.mode ≠ .ERR → c.leavesBroken order answers r.address →
      ⟨r.address, .ERR⟩ ∈ c'.replicas

/--
When they are: no backend is asked, or the frontend follows if an RW replica expands,
and the error demotes every replica that did not roll back, and every RW replica that
failed while another expanded and the frontend followed.
-/
def Tame (order : MapOrder) (c : Controller β) (answers : ExpandAnswers) : Prop :=
  c.asksBackends order answers →
    ((∃ r ∈ c.replicas, r.mode = .RW ∧ answers.expand r.address = none) →
        answers.frontendOk = true)
      ∧ ∀ r ∈ c.replicas, r.mode ≠ .ERR → ∀ e, answers.expand r.address = some e →
        (e.rolledBack = false
          ∨ r.mode = .RW ∧ c.someExpands answers = true ∧ answers.frontendOk = true) →
        Demoted c (c.handledError answers) r.address

/-- What an expansion to a larger size does to the controller. -/
structure ExpandOutcome (order : MapOrder) (c c' : Controller β) (answers : ExpandAnswers) (size : Int)
    (marked : List String) : Prop where
  replicas : c'.replicas = c.replicas.map (markErr marked)
  unasked : ¬ c.asksBackends order answers → marked = [] ∧ c'.size = c.size
  size : c.asksBackends order answers →
    c'.size = if c.someExpands answers && answers.frontendOk then size else c.size
  marks : c.asksBackends order answers → ∀ r ∈ c.replicas, r.mode ≠ .ERR →
    (r.address ∈ marked ↔ Demoted c (c.handledError answers) r.address)

theorem expand_outcome {c : Controller β} (h : Consistent c) (order : MapOrder) {size : Int}
    (hsize : c.size < size) (hmul : size % volumeSectorSize = 0) (answers : ExpandAnswers) :
    ∃ c' err marked, c.expand order size answers = some (c', err)
      ∧ ExpandOutcome order c c' answers size marked := by
  have hid : c.replicas = c.replicas.map (markErr []) := (List.map_id _).symm
  unfold expand startExpansion
  by_cases hexp : c.isExpanding = true
  · have hno : ¬ c.asksBackends order answers := fun hh => absurd (hexp.symm.trans hh.1) (by simp)
    rw [if_pos hexp]
    exact ⟨c, _, [], rfl, hid, fun _ => ⟨rfl, rfl⟩, fun hh => absurd hh hno, fun hh => absurd hh hno⟩
  · rw [if_neg hexp, if_neg (not_not.mpr hmul), if_neg (Int.ne_of_lt hsize),
      if_neg (Int.not_lt.mpr (Int.le_of_lt hsize))]
    -- the flag changes nothing that the backends' part looks at
    have h1 : Consistent { c with isExpanding := true } :=
      ⟨h.distinct, h.modes, h.oneWO, h.nil_err, h.built⟩
    obtain ⟨can, hcan⟩ := canDoSnapshot_total h order answers.snapshots
    have hcan1 : canDoSnapshot order { c with isExpanding := true } answers.snapshots = some can :=
      hcan
    cases can with
    | some e =>
      have hno : ¬ c.asksBackends order answers := fun hh => by
        have hh := hh.2
        rw [hcan] at hh
        simp at hh
      have hback : expandBackend order { c with isExpanding := true } answers
          = some ({ c with isExpanding := true }, false) := by
        rw [expandBackend, hcan1]
      dsimp only
      rw [hback]
      exact ⟨_, none, [], rfl, hid, fun _ => ⟨rfl, rfl⟩, fun hh => absurd hh hno,
        fun hh => absurd hh hno⟩
    | none =>
      obtain ⟨c2, marked, he, hm, hmark⟩ := expandBackend_spec h1 hcan1
      have hold : c2.size = c.size := by rw [hm.rest]
      dsimp only
      rw [he]
      refine ⟨_, none, marked, rfl, hm.replicas, fun hno => ?_, fun _ => ?_, fun _ => hmark⟩
      · exact absurd ⟨Bool.eq_false_of_not_eq_true hexp, hcan⟩ hno
      · show (if _ then size else c2.size) = _
        rw [hold]
        rfl

/-- **An expansion leaves consistent sizes exactly when it is `Tame`.** -/
theorem expand_sizesConsistent_iff {c : Controller β} (h : Consistent c) (order : MapOrder)
    (size : Int) (hsize : c.size < size) (hmul : size % volumeSectorSize = 0)
    (answers : ExpandAnswers) (sizes sizes' : String → Int)
    (hat : ∀ r ∈ c.replicas, r.mode ≠ .ERR → sizes r.address = c.size)
    (hres : Resized order c answers size sizes sizes') :
    ∃ c' err, c.expand order size answers = some (c', err)
      ∧ (SizesConsistent order c c' answers sizes' ↔ Tame order c answers) := by
  obtain ⟨c', err, marked, he, hout⟩ := expand_outcome h order hsize hmul answers
  refine ⟨c', err, he, ?_⟩
  have hrw : ∀ a, ⟨a, .RW⟩ ∈ c'.replicas ↔ ⟨a, .RW⟩ ∈ c.replicas ∧ a ∉ marked := by
    intro a
    rw [hout.replicas]
    exact mem_map_markErr (by simp)
  have herr : ∀ r ∈ c.replicas, r.mode ≠ .ERR →
      (⟨r.address, .ERR⟩ ∈ c'.replicas ↔ r.address ∈ marked) := by
    intro r hr hm
    rw [hout.replicas]
    constructor
    · intro hin
      obtain ⟨s, hs, heq⟩ := List.mem_map.mp hin
      have hsr : s = r := h.eq_of_address hs hr (by rw [← address_markErr marked s, heq])
      by_contra hno
      rw [hsr, markErr, if_neg hno] at heq
      rw [heq] at hm
      exact hm rfl
    · intro hin
      exact List.mem_map.mpr ⟨r, hr, by rw [markErr, if_pos hin]⟩
  by_cases hask : c.asksBackends order answers
  · have hmark := hout.marks hask
    have hsz := hout.size hask
    constructor
    · intro hcons _
      obtain ⟨hsizes, hbroken⟩ := hcons
      -- an RW replica that is left has the controller's size
      refine ⟨fun hex => ?_, fun r hr hm e hexp hor => ?_⟩
      · obtain ⟨⟨a, m⟩, hr, hm, hexp⟩ := hex
        subst hm
        have hnot : a ∉ marked := fun hin => by
          obtain ⟨x, hx, -⟩ := (hmark _ hr (by simp)).mp hin
          rw [handledError, hexp, Option.bind_none, ite_self] at hx
          simp at hx
        have hsame := hsizes _ ((hrw a).mpr ⟨hr, hnot⟩) rfl
        rw [hres.expanded _ hr (by simp) hask hexp, hsz] at hsame
        by_contra hno
        rw [Bool.eq_false_of_not_eq_true hno, Bool.and_false, if_neg (by simp)] at hsame
        omega
      · rw [← hmark r hr hm]
        rcases hor with hrb | ⟨hrwm, hsome, hfront⟩
        · exact (herr r hr hm).mp (hbroken r hr hm ⟨hask, e, hexp, hrb⟩)
        · by_contra hno
          obtain ⟨a, m⟩ := r
          subst hrwm
          have hsame := hsizes _ ((hrw a).mpr ⟨hr, hno⟩) rfl
          rw [hsz, hsome, hfront, Bool.and_true, if_pos rfl] at hsame
          cases hrb : e.rolledBack with
          | false => exact hno ((herr _ hr hm).mp (hbroken _ hr hm ⟨hask, e, hexp, hrb⟩))
          | true =>
            rw [hres.rolledBack _ hr hm hask e hexp hrb, hat _ hr hm] at hsame
            omega
    · intro htame
      obtain ⟨hfront, hdem⟩ := htame hask
      refine ⟨fun r hr hm => ?_, fun r hr hm hb => ?_⟩
      · obtain ⟨a, m⟩ := r
        subst hm
        obtain ⟨hrc, hnot⟩ := (hrw a).mp hr
        rw [hsz]
        cases hexp : answers.expand a with
        | none =>
          have hsome : c.someExpands answers = true :=
            someExpands_iff.mpr ⟨a, ⟨.RW, hrc, by simp⟩, hexp⟩
          rw [hsome, hfront ⟨_, hrc, rfl, hexp⟩, Bool.and_true, if_pos rfl]
          exact hres.expanded _ hrc (by simp) hask hexp
        | some e =>
          have hnodem : ¬ Demoted c (c.handledError answers) a := fun hd =>
            hnot ((hmark _ hrc (by simp)).mpr hd)
          have hrb : e.rolledBack = true := by
            by_contra hno
            exact hnodem (hdem _ hrc (by simp) e hexp (Or.inl (Bool.eq_false_of_not_eq_true hno)))
          have hno : ¬ (c.someExpands answers && answers.frontendOk) = true := fun hh => by
            obtain ⟨h1, h2⟩ := (Bool.and_eq_true _ _).mp hh
            exact hnodem (hdem _ hrc (by simp) e hexp (Or.inr ⟨rfl, h1, h2⟩))
          rw [if_neg hno, ← hat _ hrc (by simp)]
          exact hres.rolledBack _ hrc (by simp) hask e hexp hrb
      · obtain ⟨-, e, hexp, hrb⟩ := hb
        exact (herr r hr hm).mpr ((hmark r hr hm).mpr (hdem r hr hm e hexp (Or.inl hrb)))
  · obtain ⟨hnil, hsame⟩ := hout.unasked hask
    refine ⟨fun _ hh => absurd hh hask, fun _ => ⟨fun r hr hm => ?_, fun r _ _ hb =>
      absurd hb.1 hask⟩⟩
    obtain ⟨a, m⟩ := r
    subst hm
    rw [hres.unasked hask, hsame]
    exact hat _ ((hrw a).mp hr).1 (by simp)

/-! ## Two replicas -/

/-- Answers that let an expansion go ahead. -/
def expanding (expand : String → Option ExpandErr) (frontend : Option (Option Err)) :
    ExpandAnswers where
  snapshots := ⟨fun _ => .ok (1, 1, 0), fun _ => .ok 0, fun _ => none⟩
  expand := expand
  frontend := frontend

/-- The second replica fails and rolls back. -/
def oneFails (a : String) : Option ExpandErr :=
  if a = "b" then some (.coded ⟨.functionFailedRollbackSucceeded, text "disk failure", []⟩) else none

theorem replicas_pair {r : Replica} (hr : r ∈ pair.replicas) : r = ⟨"a", .RW⟩ ∨ r = ⟨"b", .RW⟩ := by
  have hrep : pair.replicas = [⟨"a", .RW⟩, ⟨"b", .RW⟩] := by decide
  rw [hrep] at hr
  simpa using hr

/-- The sizes when the first replica has expanded and the second has rolled back. -/
theorem resized_oneFails : Resized .listed pair (expanding oneFails none) 16384 (fun _ => 8192)
    (fun a => if a = "a" then 16384 else 8192) where
  expanded r hr _ _ he := by
    rcases replicas_pair hr with rfl | rfl
    · rfl
    · exact absurd he (by decide)
  rolledBack r hr _ _ e he _ := by
    rcases replicas_pair hr with rfl | rfl
    · exact absurd he (by simp [expanding, oneFails])
    · rfl
  unasked hno := absurd ⟨by decide, rfl⟩ hno

theorem tame_oneFails : Tame .listed pair (expanding oneFails none) := by
  refine fun _ => ⟨fun _ => rfl, fun r hr _ e he _ => ?_⟩
  rcases replicas_pair hr with rfl | rfl
  · exact absurd he (by simp [expanding, oneFails])
  · refine ⟨_, rfl, Or.inl ?_⟩
    decide

theorem expand_sizesConsistent_oneFails :
    ∃ c' err, pair.expand .listed 16384 (expanding oneFails none) = some (c', err)
      ∧ SizesConsistent .listed pair c' (expanding oneFails none)
        (fun a => if a = "a" then 16384 else 8192) := by
  obtain ⟨c', err, he, hiff⟩ := expand_sizesConsistent_iff consistent_pair .listed 16384
    (by decide) (by decide) (expanding oneFails none) (fun _ => 8192)
    (fun a => if a = "a" then 16384 else 8192) (fun _ _ _ => by decide) resized_oneFails
  exact ⟨c', err, he, hiff.mpr tame_oneFails⟩

/--
Both replicas expand and the frontend does not follow. The controller keeps its old
size, and the replicas have the new one.
-/
theorem expand_sizes_differ :
    Resized .listed pair (expanding (fun _ => none) (some (some .eof))) 16384 (fun _ => 8192)
        (fun _ => 16384)
      ∧ ∃ c', pair.expand .listed 16384 (expanding (fun _ => none) (some (some .eof)))
          = some (c', none)
        ∧ c'.replicas = [⟨"a", .RW⟩, ⟨"b", .RW⟩] ∧ c'.size = 8192
        ∧ ¬ SizesConsistent .listed pair c' (expanding (fun _ => none) (some (some .eof)))
          (fun _ => 16384) := by
  have hrun : (pair.expand .listed 16384 (expanding (fun _ => none) (some (some .eof)))).map
      (fun x => (x.1.replicas, x.1.size, x.2))
      = some ([⟨"a", .RW⟩, ⟨"b", .RW⟩], 8192, none) := by
    decide
  obtain ⟨⟨c', err⟩, he, hval⟩ := Option.map_eq_some_iff.mp hrun
  simp only [Prod.mk.injEq] at hval
  obtain ⟨hrep, hsize, rfl⟩ := hval
  refine ⟨⟨fun _ _ _ _ _ => rfl, fun _ _ _ _ e he _ => absurd he (by simp [expanding]),
    fun hno => absurd ⟨by decide, rfl⟩ hno⟩, c', he, hrep, hsize, fun hcons => ?_⟩
  have hsame := hcons.1 ⟨"a", .RW⟩ (by rw [hrep]; simp) rfl
  rw [hsize] at hsame
  exact absurd hsame (by decide)

end Controller

end WeftBlock
