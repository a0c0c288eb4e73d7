import Mathlib

/-!
# Runs

A step that may be refused, taken event after event. A run exists when none of its
events is refused, and what every step keeps, every run keeps.

Three rules cover the uses: `run_invariant` speaks about a run that is given,
`run_total` also says that there is one, and `run_steady` is about runs in which
every event meets a condition in the state it is taken in. `finishes_iff` is for
steps that can not go on for ever.
-/

namespace Runs

variable {σ ε : Type*} {step : σ → ε → Option σ}

/-- The state after the events, unless one of them is refused. -/
def run (step : σ → ε → Option σ) (s : σ) (es : List ε) : Option σ := es.foldlM step s

@[simp] theorem run_nil (s : σ) : run step s [] = some s := rfl

variable {s s' : σ} {es : List ε} {ok : σ → ε → Prop} {Good Inv : σ → Prop} {R : σ → σ → Prop}
  {weight : σ → Nat}

theorem run_cons {e : ε} (h : step s e = some s') (es : List ε) :
    run step s (e :: es) = run step s' es := by
  rw [run, List.foldlM_cons, h]
  rfl

theorem run_append (h : run step s es = some s') (fs : List ε) :
    run step s (es ++ fs) = run step s' fs := by
  rw [run, List.foldlM_append]
  change (run step s es).bind _ = _
  rw [h]
  rfl

theorem run_append_iff {es fs : List ε} :
    run step s (es ++ fs) = some s' ↔ ∃ m, run step s es = some m ∧ run step m fs = some s' := by
  rw [run, List.foldlM_append]
  exact Option.bind_eq_some_iff

theorem run_cons_iff {e : ε} :
    run step s (e :: es) = some s' ↔ ∃ m, step s e = some m ∧ run step m es = some s' := by
  rw [run, List.foldlM_cons]
  exact Option.bind_eq_some_iff

/-- Every event meets `ok` in the state its turn comes in. -/
def Steady (step : σ → ε → Option σ) (ok : σ → ε → Prop) : σ → List ε → Prop
  | _, [] => True
  | s, e :: es => ok s e ∧ ∀ s', step s e = some s' → Steady step ok s' es

/-- For a condition that can be checked, a run can be checked. -/
instance Steady.decidable {ok : σ → ε → Prop} [∀ s e, Decidable (ok s e)] :
    (s : σ) → (es : List ε) → Decidable (Steady step ok s es)
  | _, [] => .isTrue trivial
  | s, e :: es =>
    match h : step s e with
    | none => decidable_of_iff (ok s e)
        ⟨fun hok => ⟨hok, fun s' hs' => absurd (hs'.symm.trans h) (by simp)⟩, And.left⟩
    | some s' =>
      have : Decidable (Steady step ok s' es) := Steady.decidable s' es
      decidable_of_iff (ok s e ∧ Steady step ok s' es)
        ⟨fun hok => ⟨hok.1, fun s'' hs'' => Option.some.inj (h.symm.trans hs'') ▸ hok.2⟩,
          fun hok => ⟨hok.1, hok.2 s' h⟩⟩

section

variable {ok : σ → ε → Prop} {es : List ε}

theorem Steady.take (h : Steady step ok s es) (k : Nat) :
    Steady step ok s (es.take k) := by
  induction es generalizing s k with
  | nil =>
    rw [List.take_nil]
    exact h
  | cons e es ih =>
    cases k with
    | zero => exact trivial
    | succ k => exact ⟨h.1, fun s' hs' => ih (h.2 s' hs') k⟩

theorem Steady.drop {k : Nat} (h : Steady step ok s es) (hrun : run step s (es.take k) = some s') :
    Steady step ok s' (es.drop k) := by
  induction es generalizing s k with
  | nil =>
    rw [List.drop_nil]
    exact trivial
  | cons e es ih =>
    cases k with
    | zero =>
      obtain rfl := Option.some.inj hrun
      exact h
    | succ k =>
      obtain ⟨m, hm, hrest⟩ := run_cons_iff.mp hrun
      exact ih (h.2 m hm) hrest

/-- The condition in the middle of a steady run. -/
theorem Steady.ok_at {k : Nat} {e : ε} (h : Steady step ok s es)
    (hrun : run step s (es.take k) = some s') (hk : es[k]? = some e) :
    ok s' e := by
  obtain ⟨hlt, rfl⟩ := List.getElem?_eq_some_iff.mp hk
  have hdrop := h.drop hrun
  rw [List.drop_eq_getElem_cons hlt] at hdrop
  exact hdrop.1

end

/-- Steady because of what the steps keep. -/
theorem steady_of_inv {I : σ → Prop}
    (hstep : ∀ s, ∀ e ∈ es, I s → ok s e ∧ ∀ s', step s e = some s' → I s') (hs : I s) :
    Steady step ok s es := by
  induction es generalizing s with
  | nil => exact trivial
  | cons e es ih =>
    obtain ⟨hok, hnext⟩ := hstep s e List.mem_cons_self hs
    exact ⟨hok, fun s' hs' => ih (fun s e' he' => hstep s e' (List.mem_cons_of_mem _ he'))
      (hnext s' hs')⟩

theorem steady_true (s : σ) (es : List ε) : Steady step (fun _ _ => True) s es := by
  induction es generalizing s with
  | nil => trivial
  | cons e es ih => exact ⟨trivial, fun s' _ => ih s'⟩

/--
What the events keep that meet a condition and lead from good states to good states,
a steady run through good states keeps.
-/
theorem run_steady_through
    (hstep : ∀ s, ∀ e ∈ es, ∀ s', Inv s → Good s → Good s' → ok s e → step s e = some s' → Inv s')
    {s' : σ} (hs : Inv s) (hgood : ∀ k s', run step s (es.take k) = some s' → Good s')
    (hok : Steady step ok s es) (hrun : run step s es = some s') : Inv s' := by
  induction es generalizing s with
  | nil =>
    rw [run_nil] at hrun
    exact Option.some.inj hrun ▸ hs
  | cons e es ih =>
    cases he : step s e with
    | none =>
      rw [run, List.foldlM_cons, he] at hrun
      simp at hrun
    | some s₁ =>
      rw [run_cons he] at hrun
      have hgood₁ : ∀ k s', run step s₁ (es.take k) = some s' → Good s' := fun k s' hk =>
        hgood (k + 1) s' (by rw [List.take_succ_cons, run_cons he]; exact hk)
      exact ih (fun s e' he' => hstep s e' (List.mem_cons_of_mem _ he'))
        (hstep s e List.mem_cons_self s₁ hs (hgood 0 s rfl) (hgood₁ 0 s₁ rfl) hok.1 he) hgood₁
        (hok.2 s₁ he) hrun

/-- What every step keeps between good states, a run through good states keeps. -/
theorem run_through
    (hstep : ∀ s, ∀ e ∈ es, ∀ s', Inv s → Good s → Good s' → step s e = some s' → Inv s')
    {s' : σ} (hs : Inv s) (hgood : ∀ k s', run step s (es.take k) = some s' → Good s')
    (hrun : run step s es = some s') : Inv s' :=
  run_steady_through (fun s e he s' hi h1 h2 _ => hstep s e he s' hi h1 h2) hs hgood
    (steady_true s es) hrun

/-- What every step of the given events keeps, the run keeps. -/
theorem run_invariant_mem (hstep : ∀ s, ∀ e ∈ es, ∀ s', Inv s → step s e = some s' → Inv s')
    {s' : σ} (hs : Inv s) (hrun : run step s es = some s') : Inv s' :=
  run_through (fun s e he s' hi _ _ => hstep s e he s' hi) hs (fun _ _ _ => trivial) hrun

/-- **What every step keeps, every run keeps.** -/
theorem run_invariant (hstep : ∀ s e s', Inv s → step s e = some s' → Inv s') {s' : σ} (hs : Inv s)
    (hrun : run step s es = some s') : Inv s' :=
  run_invariant_mem (fun s e _ s' => hstep s e s') hs hrun

/-- Events that are never refused make a run. -/
theorem run_total (hstep : ∀ s, ∀ e ∈ es, Inv s → ∃ s', step s e = some s' ∧ Inv s') (hs : Inv s) :
    ∃ s', run step s es = some s' ∧ Inv s' := by
  induction es generalizing s with
  | nil => exact ⟨s, rfl, hs⟩
  | cons e es ih =>
    obtain ⟨s₁, he, h₁⟩ := hstep s e List.mem_cons_self hs
    obtain ⟨s₂, hrun, h₂⟩ := ih (fun s e' he' => hstep s e' (List.mem_cons_of_mem _ he')) h₁
    exact ⟨s₂, by rw [run_cons he]; exact hrun, h₂⟩

/-- A run taken up again in the middle. -/
theorem run_take_drop {s s₁ : σ} {i : Nat} (h : run step s (es.take i) = some s₁) (j : Nat) :
    run step s₁ ((es.drop i).take j) = run step s (es.take (i + j)) := by
  rw [List.take_add, run_append h]

/-- What every step keeps that meets the condition, every steady run keeps. -/
theorem run_steady (hstep : ∀ s e s', Inv s → ok s e → step s e = some s' → Inv s') {s' : σ}
    (hs : Inv s) (hok : Steady step ok s es) (hrun : run step s es = some s') : Inv s' :=
  run_steady_through (fun s e _ s' hi _ _ => hstep s e s' hi) hs (fun _ _ _ => trivial) hok hrun

/-- What every step brings about that meets the condition, any two states of a steady run show. -/
theorem Steady.related (hrefl : ∀ s, R s s) (htrans : ∀ s₁ s₂ s₃, R s₁ s₂ → R s₂ s₃ → R s₁ s₃)
    (hstep : ∀ s e s', Inv s → ok s e → step s e = some s' → Inv s' ∧ R s s') (hs : Inv s)
    (h : Steady step ok s es) {k l : Nat} {s₁ s₂ : σ} (h₁ : run step s (es.take k) = some s₁)
    (h₂ : run step s (es.take (k + l)) = some s₂) :
    R s₁ s₂ := by
  have hinv : Inv s₁ :=
    run_steady (fun s e s' hi hok he => (hstep s e s' hi hok he).1) hs (h.take k) h₁
  rw [← run_take_drop h₁] at h₂
  have hkeep : ∀ a e b, (Inv a ∧ R s₁ a) → ok a e → step a e = some b → Inv b ∧ R s₁ b := by
    intro a e b hi hok he
    obtain ⟨hb, hr⟩ := hstep a e b hi.1 hok he
    exact ⟨hb, htrans _ _ _ hi.2 hr⟩
  have hrest := (h.drop h₁).take l
  exact (run_steady hkeep ⟨hinv, hrefl s₁⟩ hrest h₂).2

/-- One condition for another, because of what the steps keep. -/
theorem Steady.imp_of_inv {ok ok' : σ → ε → Prop}
    (hstep : ∀ s e, Inv s → ok s e → ok' s e ∧ ∀ s', step s e = some s' → Inv s') (hs : Inv s)
    (h : Steady step ok s es) : Steady step ok' s es := by
  induction es generalizing s with
  | nil => exact trivial
  | cons e es ih =>
    obtain ⟨hok, hnext⟩ := hstep s e hs h.1
    exact ⟨hok, fun s' hs' => ih (hnext s' hs') (h.2 s' hs')⟩

/-- If what breaks the second condition is never made good again, a run that ends well meets it. -/
theorem Steady.imp_of_end {ok ok' : σ → ε → Prop} {Inv Bad : σ → Prop}
    (hstep : ∀ s e s', Inv s → ok s e → step s e = some s' → Inv s' ∧ (ok' s e ∨ Bad s'))
    (hbad : ∀ s e s', Inv s → Bad s → step s e = some s' → Bad s') (hs : Inv s)
    (h : Steady step ok s es) (hrun : run step s es = some s') (hend : ¬ Bad s') :
    Steady step ok' s es := by
  induction es generalizing s with
  | nil => exact trivial
  | cons e es ih =>
    obtain ⟨m, hm, hrest⟩ := run_cons_iff.mp hrun
    obtain ⟨hinv, hcase⟩ := hstep s e m hs h.1 hm
    have hkeep : ∀ a e b, (Inv a ∧ Bad a) → ok a e → step a e = some b → Inv b ∧ Bad b :=
      fun a e b hi hok he => ⟨(hstep a e b hi.1 hok he).1, hbad a e b hi.1 hi.2 he⟩
    refine ⟨hcase.resolve_right (fun hb => ?_), fun m' hm' => ?_⟩
    · exact hend (run_steady hkeep ⟨hinv, hb⟩ (h.2 m hm) hrest).2
    · obtain rfl := Option.some.inj (hm.symm.trans hm')
      exact ih hinv (h.2 m hm) hrest

section

variable {ok : σ → ε → Prop}

/-- The same for events that are not refused where they meet the condition. -/
theorem run_steady_total (hstep : ∀ s, ∀ e ∈ es, Inv s → ok s e → ∃ s', step s e = some s' ∧ Inv s')
    (hs : Inv s) (hok : Steady step ok s es) : ∃ s', run step s es = some s' ∧ Inv s' := by
  induction es generalizing s with
  | nil => exact ⟨s, rfl, hs⟩
  | cons e es ih =>
    obtain ⟨s₁, he, h₁⟩ := hstep s e List.mem_cons_self hs hok.1
    obtain ⟨s₂, hrun, h₂⟩ := ih (fun s e' he' => hstep s e' (List.mem_cons_of_mem _ he')) h₁
      (hok.2 s₁ he)
    exact ⟨s₂, by rw [run_cons he]; exact hrun, h₂⟩

/--
If a step keeps the invariant where it meets the condition, ends badly where it does not, and
one that can not be taken meets it, then a run is steady exactly when all its states are good.
-/
theorem steady_iff_of_inv (hgood : ∀ s, Inv s → Good s)
    (hstep : ∀ s e, Inv s → (step s e = none ∧ ok s e)
      ∨ ∃ s', step s e = some s' ∧ (ok s e → Inv s') ∧ (¬ ok s e → ¬ Good s')) (hs : Inv s) :
    Steady step ok s es ↔ ∀ k s', run step s (es.take k) = some s' → Good s' := by
  induction es generalizing s with
  | nil =>
    refine ⟨fun _ k s' hrun => ?_, fun _ => trivial⟩
    rw [List.take_nil, run_nil] at hrun
    exact Option.some.inj hrun ▸ hgood s hs
  | cons e es ih =>
    rcases hstep s e hs with ⟨hnone, hok⟩ | ⟨s₁, he, hinv, hbad⟩
    · -- the run ends here
      refine ⟨fun _ k s' hrun => ?_, fun _ => ⟨hok, fun s' hs' => ?_⟩⟩
      · cases k with
        | zero => exact Option.some.inj hrun ▸ hgood s hs
        | succ k =>
          rw [List.take_succ_cons, run, List.foldlM_cons, hnone] at hrun
          simp at hrun
      · rw [hnone] at hs'
        simp at hs'
    constructor
    · intro hsteady k s' hrun
      cases k with
      | zero => exact Option.some.inj hrun ▸ hgood s hs
      | succ k =>
        rw [List.take_succ_cons, run_cons he] at hrun
        exact (ih (hinv hsteady.1)).mp (hsteady.2 s₁ he) k s' hrun
    · intro hall
      have hg₁ : Good s₁ := hall 1 s₁ (by rw [List.take_succ_cons, run_cons he]; rfl)
      have hok : ok s e := by
        by_contra hok
        exact hbad hok hg₁
      refine ⟨hok, fun s' hs' => ?_⟩
      obtain rfl : s₁ = s' := Option.some.inj (he.symm.trans hs')
      exact (ih (hinv hok)).mpr (fun k s' hrun =>
        hall (k + 1) s' (by rw [List.take_succ_cons, run_cons he]; exact hrun))

/-- The same where the condition tells whether the step ends well. -/
theorem steady_iff (Base : σ → Prop)
    (hstep : ∀ s e, Base s → Good s → (step s e = none ∧ ok s e)
      ∨ ∃ s', step s e = some s' ∧ Base s' ∧ (ok s e ↔ Good s')) (hb : Base s) (hg : Good s) :
    Steady step ok s es ↔ ∀ k s', run step s (es.take k) = some s' → Good s' := by
  refine steady_iff_of_inv (fun s (h : Base s ∧ Good s) => h.2) (fun s e h => ?_) ⟨hb, hg⟩
  rcases hstep s e h.1 h.2 with hnone | ⟨s₁, he, hb₁, hiff⟩
  · exact Or.inl hnone
  · exact Or.inr ⟨s₁, he, fun hok => ⟨hb₁, hiff.mp hok⟩, fun hok hg => hok (hiff.mpr hg)⟩

/-- The same for a run that is there, where nothing needs to be said about what is refused. -/
theorem steady_iff_of_run {Base Good : σ → Prop}
    (hstep : ∀ s, ∀ e ∈ es, ∀ s', Base s → Good s → step s e = some s' →
      Base s' ∧ (ok s e ↔ Good s')) {s t : σ} (hb : Base s) (hg : Good s)
    (hrun : run step s es = some t) :
    Steady step ok s es ↔ ∀ k s', run step s (es.take k) = some s' → Good s' := by
  induction es generalizing s with
  | nil =>
    refine ⟨fun _ k s' hk => ?_, fun _ => trivial⟩
    rw [List.take_nil, run_nil] at hk
    exact Option.some.inj hk ▸ hg
  | cons e es ih =>
    obtain ⟨m, hm, hrest⟩ := run_cons_iff.mp hrun
    obtain ⟨hbm, hiff⟩ := hstep s e List.mem_cons_self m hb hg hm
    have hnext := fun hgm => ih (fun s e' he' => hstep s e' (List.mem_cons_of_mem _ he')) hbm hgm hrest
    have htake : ∀ k, run step s ((e :: es).take (k + 1)) = run step m (es.take k) := fun k => by
      rw [List.take_succ_cons, run_cons hm]
    constructor
    · intro hsteady k s' hk
      cases k with
      | zero => exact Option.some.inj hk ▸ hg
      | succ k =>
        rw [htake] at hk
        exact (hnext (hiff.mp hsteady.1)).mp (hsteady.2 m hm) k s' hk
    · intro hall
      have hgm : Good m := hall 1 m (htake 0)
      refine ⟨hiff.mpr hgm, fun m' hm' => ?_⟩
      obtain rfl := Option.some.inj (hm.symm.trans hm')
      exact (hnext hgm).mpr (fun k s' hk => hall (k + 1) s' (by rw [htake]; exact hk))

/--
If a step relates its two states exactly when it meets the condition, then a run is steady exactly
when any two of its states are related.
-/
theorem steady_iff_related (hrefl : ∀ s, R s s) (htrans : ∀ s₁ s₂ s₃, R s₁ s₂ → R s₂ s₃ → R s₁ s₃)
    (hstep : ∀ s e, Inv s → (step s e = none ∧ ok s e)
      ∨ ∃ s', step s e = some s' ∧ Inv s' ∧ (ok s e ↔ R s s')) (hs : Inv s) :
    Steady step ok s es ↔ ∀ k l s₁ s₂, run step s (es.take k) = some s₁ →
      run step s (es.take (k + l)) = some s₂ → R s₁ s₂ := by
  refine ⟨fun hsteady k l s₁ s₂ h₁ h₂ => Steady.related hrefl htrans (fun s e s' hi hok he => ?_) hs
    hsteady h₁ h₂, fun hall => ?_⟩
  · rcases hstep s e hi with ⟨hnone, -⟩ | ⟨s₁, he₁, hinv, hiff⟩
    · exact absurd (he.symm.trans hnone) (by simp)
    · obtain rfl := Option.some.inj (he.symm.trans he₁)
      exact ⟨hinv, hiff.mp hok⟩
  · induction es generalizing s with
    | nil => exact trivial
    | cons e es ih =>
      rcases hstep s e hs with ⟨hnone, hok⟩ | ⟨s₁, he, hinv, hiff⟩
      · -- the run ends here
        exact ⟨hok, fun s' hs' => absurd (hs'.symm.trans hnone) (by simp)⟩
      · have hrun : ∀ k, run step s ((e :: es).take (k + 1)) = run step s₁ (es.take k) := fun k => by
          rw [List.take_succ_cons, run_cons he]
        refine ⟨hiff.mpr (hall 0 1 s s₁ rfl (hrun 0)), fun s' hs' => ?_⟩
        obtain rfl : s₁ = s' := Option.some.inj (he.symm.trans hs')
        refine ih hinv (fun k l a b ha hb => hall (k + 1) l a b ?_ ?_)
        · rw [hrun]
          exact ha
        · rw [Nat.succ_add, hrun]
          exact hb

end

/-! ## Runs that end -/

/--
Whatever is done from here ends: there is a bound on the number of steps, and where no step is
left what was to be reached has been reached.
-/
def Finishes (step : σ → ε → Option σ) (Done : σ → Prop) (s : σ) : Prop :=
  ∃ bound, ∀ es s', run step s es = some s' →
    es.length ≤ bound ∧ (Done s' ∨ ∃ e, (step s' e).isSome)

/-- There are no more steps than the weight allows. -/
theorem run_weight (hw : ∀ s e s', Inv s → step s e = some s' → Inv s' ∧ weight s' < weight s)
    (hs : Inv s) (h : run step s es = some s') :
    Inv s' ∧ es.length + weight s' ≤ weight s := by
  induction es generalizing s with
  | nil =>
    obtain rfl := Option.some.inj h
    exact ⟨hs, by simp⟩
  | cons e es ih =>
    obtain ⟨m, hm, hrun⟩ := run_cons_iff.mp h
    obtain ⟨hinv, h1⟩ := hw _ _ _ hs hm
    obtain ⟨hinv', h2⟩ := ih hinv hrun
    rw [List.length_cons]
    exact ⟨hinv', by omega⟩

/-- Runs in which somebody can always go on until all is done. -/
theorem finishes_of_weight {Inv Done : σ → Prop}
    (hw : ∀ s e s', Inv s → step s e = some s' → Inv s' ∧ weight s' < weight s)
    (hprog : ∀ s, Inv s → Done s ∨ ∃ e, (step s e).isSome) (hs : Inv s) :
    Finishes step Done s := by
  refine ⟨weight s, fun es s' hrun => ?_⟩
  obtain ⟨hinv, hle⟩ := run_weight hw hs hrun
  exact ⟨by omega, hprog s' hinv⟩

section Weight

variable {weight : σ → Nat} (hw : ∀ s e s', step s e = some s' → weight s' < weight s)
include hw

theorem finishes_of_invariant {Inv Done : σ → Prop}
    (hstep : ∀ s e s', Inv s → step s e = some s' → Inv s')
    (hprog : ∀ s, Inv s → Done s ∨ ∃ e, (step s e).isSome) (hs : Inv s) :
    Finishes step Done s :=
  finishes_of_weight (fun s e s' hi he => ⟨hstep s e s' hi he, hw s e s' he⟩) hprog hs

/-- One can go on until no step is left. -/
theorem exists_stuck (s : σ) : ∃ es s', run step s es = some s' ∧ ∀ e, step s' e = none := by
  induction hn : weight s using Nat.strong_induction_on generalizing s with
  | h n ih =>
    by_cases hstuck : ∀ e, step s e = none
    · exact ⟨[], s, rfl, hstuck⟩
    · obtain ⟨e, he⟩ := not_forall.mp hstuck
      obtain ⟨s₁, hs₁⟩ := Option.ne_none_iff_exists'.mp he
      obtain ⟨es, s', hrun, hs'⟩ := ih (weight s₁) (hn ▸ hw _ _ _ hs₁) s₁ rfl
      exact ⟨e :: es, s', by rw [run_cons hs₁]; exact hrun, hs'⟩

/--
If a property is kept both ways by every step, and tells in the end whether what was to be
reached has been reached, then it tells so from the beginning.
-/
theorem finishes_iff {Inv Fine Done : σ → Prop}
    (hinv : ∀ s e s', Inv s → step s e = some s' → Inv s')
    (hfine : ∀ s e s', Inv s → step s e = some s' → (Fine s ↔ Fine s'))
    (hend : ∀ s, Inv s → (∀ e, step s e = none) → (Fine s ↔ Done s)) (hs : Inv s) :
    Finishes step Done s ↔ Fine s := by
  constructor
  · intro h
    obtain ⟨bound, hb⟩ := h
    obtain ⟨es, s', hrun, hstuck⟩ := exists_stuck hw s
    have hkeep : ∀ x e x', Inv x ∧ (Fine s ↔ Fine x) → step x e = some x' →
        Inv x' ∧ (Fine s ↔ Fine x') := fun x e x' hx hstep =>
      ⟨hinv x e x' hx.1 hstep, hx.2.trans (hfine x e x' hx.1 hstep)⟩
    have hboth := run_invariant hkeep ⟨hs, Iff.rfl⟩ hrun
    rcases (hb es s' hrun).2 with hdone | ⟨e, he⟩
    · exact hboth.2.mpr ((hend s' hboth.1 hstuck).mpr hdone)
    · rw [hstuck e] at he
      simp at he
  · intro h
    have hkeep : ∀ x e x', Inv x ∧ Fine x → step x e = some x' → Inv x' ∧ Fine x' :=
      fun x e x' hx hstep => ⟨hinv x e x' hx.1 hstep, (hfine x e x' hx.1 hstep).mp hx.2⟩
    refine finishes_of_invariant hw hkeep (fun x hx => ?_) ⟨hs, h⟩
    by_cases hstuck : ∀ e, step x e = none
    · exact Or.inl ((hend x hx.1 hstuck).mp hx.2)
    · obtain ⟨e, he⟩ := not_forall.mp hstuck
      exact Or.inr ⟨e, Option.isSome_iff_ne_none.mpr he⟩

end Weight

end Runs
