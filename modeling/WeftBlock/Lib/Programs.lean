import WeftBlock.Lib.Runs

/-!
# Programs over a shared store

A program is what it does next, given the answers it has had: an operation of the store, or the
end. One store, several programs: what they do is interleaved operation by operation, and each
of them knows no more than its own answers.

`exec` runs a program by itself, and `Sat` is what it then brings about. `Always` speaks about all the operations that a program may
come to do, whatever the answers: it is proved along the text of the program, with a rule for one
program after another and one for loops. `threads_always` takes it to every interleaving.
-/

namespace Programs

/-- A program over operations `Op`, where `o` is answered by an `Ans o`. -/
inductive Prog (Op : Type) (Ans : Op → Type) (α : Type) : Type
  | done (a : α)
  | call (o : Op) (next : Ans o → Prog Op Ans α)

/-- The operations a program has done and their answers, the latest first. -/
abbrev Log (Op : Type) (Ans : Op → Type) := List ((o : Op) × Ans o)

variable {Op : Type} {Ans : Op → Type} {α β ι : Type}

namespace Prog

/-- One program after another. -/
def bind : Prog Op Ans α → (α → Prog Op Ans β) → Prog Op Ans β
  | .done a, f => f a
  | .call o next, f => .call o (fun r => bind (next r) f)

instance : Monad (Prog Op Ans) where
  pure := .done
  bind := bind

/-- A single operation. -/
def op (o : Op) : Prog Op Ans (Ans o) := .call o .done

/-- A program whose result nobody asks for. -/
def discard (p : Prog Op Ans α) : Prog Op Ans Unit := p.bind (fun _ => .done ())

/-- The same program for one after the other. -/
def forEach (f : ι → Prog Op Ans Unit) : List ι → Prog Op Ans Unit
  | [] => .done ()
  | i :: l => (f i).bind (fun _ => forEach f l)

@[simp] theorem bind_eq (p : Prog Op Ans α) (f : α → Prog Op Ans β) : p >>= f = p.bind f := rfl

end Prog

/-! ## One program by itself -/

variable {σ : Type} {ε : Type*}

/--
What an operation does to the store and answers. Whatever the store does not determine is chosen
by an `ε`.
-/
abbrev Sem (Op : Type) (Ans : Op → Type) (σ : Type) (ε : Type*) := σ → (o : Op) → ε → σ × Ans o

variable (sem : Sem Op Ans σ ε)

variable {p : Prog Op Ans α} {log : Log Op Ans} {Q : Log Op Ans → α → Prop} {f : α → Prog Op Ans β}
  {o : Op} {s : σ}

namespace Prog

/-- A program run by itself: the store it leaves, its result and the choices that are left. -/
def exec : Prog Op Ans α → (Nat → ε) → σ → σ × α × (Nat → ε)
  | .done a, env, s => (s, a, env)
  | .call o next, env, s =>
    let r := sem s o (env 0)
    exec (next r.2) (fun n => env (n + 1)) r.1

theorem exec_call (o : Op) (next : Ans o → Prog Op Ans α) (env : Nat → ε) (s : σ) :
    exec sem (.call o next) env s
      = exec sem (next (sem s o (env 0)).2) (fun n => env (n + 1)) (sem s o (env 0)).1 := rfl

theorem exec_bind (p : Prog Op Ans α) (f : α → Prog Op Ans β) (env : Nat → ε) (s : σ) :
    exec sem (p.bind f) env s
      = exec sem (f (exec sem p env s).2.1) (exec sem p env s).2.2 (exec sem p env s).1 := by
  induction p generalizing env s with
  | done a => rfl
  | call o next ih => exact ih _ _ _

theorem exec_bind_fst (hf : ∀ a env s, (exec sem (f a) env s).1 = s) (env : Nat → ε) (s : σ) :
    (exec sem (p.bind f) env s).1 = (exec sem p env s).1 := by
  rw [exec_bind, hf]

theorem exec_op_bind {f : Ans o → Prog Op Ans β} {env : Nat → ε} {s s' : σ} {r : Ans o}
    (h : sem s o (env 0) = (s', r)) :
    exec sem ((op o).bind f) env s = exec sem (f r) (fun n => env (n + 1)) s' := by
  rw [exec_bind, op, exec_call, h]
  rfl

/-- The choices that are left are among those that were given. -/
theorem exec_env (p : Prog Op Ans α) (env : Nat → ε) (s : σ) :
    ∃ k, (exec sem p env s).2.2 = fun n => env (n + k) := by
  induction p generalizing env s with
  | done a => exact ⟨0, rfl⟩
  | call o next ih =>
    obtain ⟨k, hk⟩ := ih (sem s o (env 0)).2 (fun n => env (n + 1)) (sem s o (env 0)).1
    exact ⟨k + 1, hk⟩

/--
What a program brings about when it is run by itself, with any choices that are as `E` says.
-/
def Sat (E : ε → Prop) (p : Prog Op Ans α) (s : σ) (Q : σ → α → Prop) : Prop :=
  ∀ env, (∀ n, E (env n)) → Q (exec sem p env s).1 (exec sem p env s).2.1

variable {sem} {E : ε → Prop}

theorem sat_done {a : α} {Q : σ → α → Prop} (h : Q s a) :
    Sat sem E (.done a : Prog Op Ans α) s Q :=
  fun _ _ => h

theorem sat_op {Q : σ → Ans o → Prop}
    (h : ∀ x, E x → Q (sem s o x).1 (sem s o x).2) : Sat sem E (op o) s Q :=
  fun env henv => h (env 0) (henv 0)

theorem sat_mono {Q Q' : σ → α → Prop} (h : Sat sem E p s Q)
    (hq : ∀ s a, Q s a → Q' s a) : Sat sem E p s Q' :=
  fun env henv => hq _ _ (h env henv)

theorem sat_bind {Q : σ → β → Prop}
    (h : Sat sem E p s (fun s a => Sat sem E (f a) s Q)) : Sat sem E (p.bind f) s Q := by
  intro env henv
  obtain ⟨k, hk⟩ := exec_env sem p env s
  rw [exec_bind]
  refine h env henv _ (fun n => ?_)
  rw [hk]
  exact henv (n + k)

theorem sat_discard {Q : σ → Prop} (h : Sat sem E p s (fun s _ => Q s)) :
    Sat sem E p.discard s (fun s _ => Q s) :=
  sat_bind (sat_mono h (fun _ _ hq => sat_done hq))

/-- A loop: what holds with `l` still to be done. -/
theorem sat_forEach {f : ι → Prog Op Ans Unit} {I : List ι → σ → Prop}
    (hstep : ∀ i l s, I (i :: l) s → Sat sem E (f i) s (fun s _ => I l s)) :
    ∀ {l : List ι} {s : σ}, I l s → Sat sem E (forEach f l) s (fun s _ => I [] s) := by
  intro l
  induction l with
  | nil => exact fun h => sat_done h
  | cons i l ih =>
    intro s h
    exact sat_bind (sat_mono (hstep i l s h) (fun s _ => ih))

/-! ## What holds whatever the answers -/

variable (sem)

/-- An answer that the store can give. -/
def Answer (o : Op) (r : Ans o) : Prop := ∃ s e, (sem s o e).2 = r

/--
Every operation the program may come to do is as `P` says, given what it has done before, and
where it ends `Q` holds.
-/
def Always (P : Log Op Ans → Op → Prop) : Prog Op Ans α → (Log Op Ans → α → Prop) →
    Log Op Ans → Prop
  | .done a, Q, log => Q log a
  | .call o next, Q, log =>
    P log o ∧ ∀ r, Answer sem o r → Always P (next r) Q (⟨o, r⟩ :: log)

variable {sem} {P : Log Op Ans → Op → Prop}

theorem always_next {f : Ans o → Prog Op Ans β} {Q : Log Op Ans → β → Prop} (h : P log o)
    (hf : ∀ r, Answer sem o r → Always sem P (f r) Q (⟨o, r⟩ :: log)) :
    Always sem P ((op o).bind f) Q log :=
  ⟨h, hf⟩

theorem always_mono {Q Q' : Log Op Ans → α → Prop}
    (h : Always sem P p Q log) (hq : ∀ log a, Q log a → Q' log a) : Always sem P p Q' log := by
  induction p generalizing log with
  | done a => exact hq log a h
  | call o next ih => exact ⟨h.1, fun r hr => ih r (h.2 r hr)⟩

variable {P' : Log Op Ans → Op → Prop}

/-- What is known of the operations may be weakened. -/
theorem always_imp (h : Always sem P p Q log) (hp : ∀ log o, P log o → P' log o) :
    Always sem P' p Q log := by
  induction p generalizing log with
  | done a => exact h
  | call o next ih => exact ⟨hp log o h.1, fun r hr => ih r (h.2 r hr)⟩

/-- Two things that are known of a program, together. -/
theorem always_and {Q Q' : Log Op Ans → α → Prop} (h : Always sem P p Q log)
    (h' : Always sem P' p Q' log) :
    Always sem (fun log o => P log o ∧ P' log o) p (fun log a => Q log a ∧ Q' log a) log := by
  induction p generalizing log with
  | done a => exact ⟨h, h'⟩
  | call o next ih => exact ⟨⟨h.1, h'.1⟩, fun r hr => ih r (h.2 r hr) (h'.2 r hr)⟩

/-- A program only adds to what has been done before. -/
theorem always_suffix
    (h : Always sem P p Q log) : Always sem P p (fun log' a => Q log' a ∧ log <:+ log') log := by
  induction p generalizing log with
  | done a => exact ⟨h, List.suffix_refl log⟩
  | call o next ih =>
    refine ⟨h.1, fun r hr => always_mono (ih r (h.2 r hr)) (fun log' a hq => ⟨hq.1, ?_⟩)⟩
    exact (List.suffix_cons _ log).trans hq.2

theorem always_bind {Q : Log Op Ans → β → Prop}
    (h : Always sem P p (fun log a => Always sem P (f a) Q log) log) :
    Always sem P (p.bind f) Q log := by
  induction p generalizing log with
  | done a => exact h
  | call o next ih => exact ⟨h.1, fun r hr => ih r (h.2 r hr)⟩

theorem always_discard {Q : Log Op Ans → Prop}
    (h : Always sem P p (fun log _ => Q log) log) : Always sem P p.discard (fun log _ => Q log) log :=
  always_bind h

/-- A loop: what holds with `l` still to be done. -/
theorem always_forEach {f : ι → Prog Op Ans Unit} {I : List ι → Log Op Ans → Prop}
    (hstep : ∀ i l log, I (i :: l) log → Always sem P (f i) (fun log _ => I l log) log) :
    ∀ {l : List ι} {log : Log Op Ans}, I l log →
      Always sem P (forEach f l) (fun log _ => I [] log) log := by
  intro l
  induction l with
  | nil => exact fun h => h
  | cons i l ih =>
    intro log h
    exact always_bind (always_mono (hstep i l log h) (fun log _ => ih))

/-- A loop in which every turn keeps what is known of the log. -/
theorem always_each {f : ι → Prog Op Ans Unit} {I : Log Op Ans → Prop} {l : List ι}
    {Q : Log Op Ans → Unit → Prop} (h : I log)
    (hstep : ∀ i ∈ l, ∀ log, I log → Always sem P (f i) (fun log _ => I log) log)
    (hq : ∀ log, I log → Q log ()) : Always sem P (forEach f l) Q log := by
  induction l generalizing log with
  | nil => exact hq log h
  | cons i l ih =>
    refine always_bind (always_mono (hstep i List.mem_cons_self log h) (fun log _ h' => ?_))
    exact ih h' (fun j hj => hstep j (List.mem_cons_of_mem _ hj))

/-- What all its operations keep, a program run by itself keeps. -/
theorem sat_of_always {E : ε → Prop} {I : σ → Prop} (h : Always sem P p Q log)
    (hkeep : ∀ s log o x, P log o → I s → I (sem s o x).1) (hs : I s) :
    Sat sem E p s (fun s _ => I s) := by
  induction p generalizing log s with
  | done a => exact sat_done hs
  | call o next ih =>
    intro env henv
    exact ih _ (h.2 _ ⟨s, env 0, rfl⟩) (hkeep s log o (env 0) h.1 hs) _ (fun n => henv (n + 1))

end Prog

/-! ## Many programs -/

/-- A program that was called and has not ended yet, or has. -/
structure Thread (κ : Type) (Op : Type) (Ans : Op → Type) where
  call : κ
  /-- History: what it has done. -/
  log : Log Op Ans
  rest : Prog Op Ans Unit

/-- The store and who works on it. -/
structure World (κ σ Op : Type) (Ans : Op → Type) where
  store : σ
  threads : List (Thread κ Op Ans)

/-- What can happen. -/
inductive Event (κ : Type) (ε : Type*)
  /-- Somebody calls a program. -/
  | start (c : κ)
  /-- The next operation of a program. -/
  | step (i : Nat) (e : ε)

namespace World

variable {κ : Type} (prog : κ → Prog Op Ans Unit)

/-- One step. -/
def step (w : World κ σ Op Ans) : Event κ ε → Option (World κ σ Op Ans)
  | .start c => some { w with threads := w.threads ++ [⟨c, [], prog c⟩] }
  | .step i e =>
    match w.threads[i]? with
    | some ⟨c, log, .call o next⟩ =>
      let r := sem w.store o e
      some ⟨r.1, w.threads.set i ⟨c, ⟨o, r.2⟩ :: log, next r.2⟩⟩
    | _ => none

variable {sem} {prog}

/-- The operation that a program does next, and what it has done before. -/
def pending (w : World κ σ Op Ans) (i : Nat) : Option (Log Op Ans × Op) :=
  match w.threads[i]? with
  | some ⟨_, log, .call o _⟩ => some (log, o)
  | _ => none

variable {i : Nat} {es : List (Event κ ε)}

theorem pending_call {w : World κ σ Op Ans} {c : κ} {next : Ans o → Prog Op Ans Unit}
    (h : w.threads[i]? = some ⟨c, log, .call o next⟩) :
    w.pending i = some (log, o) := by
  rw [pending, h]

theorem exists_of_pending {w : World κ σ Op Ans} (h : w.pending i = some (log, o)) :
    ∃ c next, w.threads[i]? = some ⟨c, log, .call o next⟩ := by
  unfold pending at h
  split at h
  · rename_i c log' o' next hi
    obtain ⟨rfl, rfl⟩ := Prod.mk.inj (Option.some.inj h)
    exact ⟨c, next, hi⟩
  · simp at h

variable {w w' : World κ σ Op Ans}

/-- What a step does: somebody calls, or somebody does an operation. -/
theorem step_cases {e : Event κ ε} (h : w.step sem prog e = some w') :
    (∃ c, e = .start c ∧ w' = { w with threads := w.threads ++ [⟨c, [], prog c⟩] })
      ∨ ∃ i x c log o next, e = .step i x ∧ w.threads[i]? = some ⟨c, log, .call o next⟩
        ∧ w' = ⟨(sem w.store o x).1,
          w.threads.set i ⟨c, ⟨o, (sem w.store o x).2⟩ :: log, next (sem w.store o x).2⟩⟩ := by
  cases e with
  | start c => exact Or.inl ⟨c, rfl, (Option.some.inj h).symm⟩
  | step i x =>
    rw [step] at h
    split at h
    · rename_i c log o next hi
      exact Or.inr ⟨i, x, c, log, o, next, rfl, hi, (Option.some.inj h).symm⟩
    · simp at h

/-- Each program keeps to what it always does. -/
def Kept (sem : Sem Op Ans σ ε) (P : κ → Log Op Ans → Op → Prop) (w : World κ σ Op Ans) : Prop :=
  ∀ t ∈ w.threads, Prog.Always sem (P t.call) t.rest (fun _ _ => True) t.log

section

variable {P : κ → Log Op Ans → Op → Prop}
  (hprog : ∀ c, Prog.Always sem (P c) (prog c) (fun _ _ => True) [])
include hprog

theorem kept_step
    {e : Event κ ε} (hw : Kept sem P w) (h : w.step sem prog e = some w') : Kept sem P w' := by
  intro t ht
  rcases step_cases h with ⟨c, rfl, rfl⟩ | ⟨i, x, c, log, o, next, rfl, hi, rfl⟩
  · rcases List.mem_append.mp ht with ht | ht
    · exact hw t ht
    · obtain rfl := List.mem_singleton.mp ht
      exact hprog c
  · rcases List.mem_or_eq_of_mem_set ht with ht | rfl
    · exact hw t ht
    · exact (hw _ (List.mem_of_getElem? hi)).2 _ ⟨w.store, x, rfl⟩

/-- **In every interleaving each program keeps to what it always does.** -/
theorem threads_always (hw : Kept sem P w) (h : Runs.run (step sem prog) w es = some w') :
    Kept sem P w' :=
  Runs.run_invariant (fun _ _ _ hw h => kept_step hprog hw h) hw h

end

/--
**Every answer in a log was given**, by the store as it was at some point of the run, to the
operation that was pending there.
-/
theorem log_origin {w₀ w : World κ σ Op Ans} (h₀ : w₀.threads = [])
    (hrun : Runs.run (step sem prog) w₀ es = some w) {t : Thread κ Op Ans}
    (ht : w.threads[i]? = some t) {a : Ans o} (hlog : ⟨o, a⟩ :: log <:+ t.log) :
    ∃ k v x, Runs.run (step sem prog) w₀ (es.take k) = some v ∧ es[k]? = some (.step i x)
      ∧ v.pending i = some (log, o) ∧ (sem v.store o x).2 = a := by
  induction es using List.reverseRecOn generalizing w t with
  | nil =>
    rw [Runs.run_nil] at hrun
    rw [← Option.some.inj hrun, h₀] at ht
    simp at ht
  | append_singleton es e ih =>
    obtain ⟨v, hv, hstep⟩ := Runs.run_append_iff.mp hrun
    rw [Runs.run_cons_iff] at hstep
    obtain ⟨w', hstep, hw'⟩ := hstep
    obtain rfl := Option.some.inj hw'
    -- what holds of a shorter run holds of this one
    have hearlier : ∀ {t' : Thread κ Op Ans}, v.threads[i]? = some t' → ⟨o, a⟩ :: log <:+ t'.log →
        ∃ k v x, Runs.run (step sem prog) w₀ ((es ++ [e]).take k) = some v
          ∧ (es ++ [e])[k]? = some (.step i x) ∧ v.pending i = some (log, o)
          ∧ (sem v.store o x).2 = a := by
      intro t' ht' hlog'
      obtain ⟨k, u, x, hu, hk, hpend, hans⟩ := ih hv ht' hlog'
      have hlt : k < es.length := (List.getElem?_eq_some_iff.mp hk).1
      refine ⟨k, u, x, ?_, ?_, hpend, hans⟩
      · rw [List.take_append_of_le_length hlt.le]
        exact hu
      · rw [List.getElem?_append_left hlt]
        exact hk
    rcases step_cases hstep with ⟨c, rfl, rfl⟩ | ⟨j, x, c, l, o', next, rfl, hj, rfl⟩
    · -- a thread that has just been started has no log
      rw [List.getElem?_append] at ht
      split at ht
      · exact hearlier ht hlog
      · rw [List.getElem?_singleton] at ht
        split at ht
        · obtain rfl := Option.some.inj ht
          exact absurd (List.suffix_nil.mp hlog) (by simp)
        · simp at ht
    · rw [List.getElem?_set] at ht
      split at ht
      · rename_i hij
        subst hij
        split at ht
        · obtain rfl := Option.some.inj ht
          rcases List.suffix_cons_iff.mp hlog with heq | hlog
          · -- the answer is that of the last step
            obtain ⟨hans, rfl⟩ := List.cons.inj heq
            obtain ⟨rfl, hans⟩ := Sigma.mk.inj hans
            refine ⟨es.length, v, x, ?_, ?_, pending_call hj, (eq_of_heq hans).symm⟩
            · rw [List.take_left]
              exact hv
            · rw [List.getElem?_append_right (Nat.le_refl _), Nat.sub_self]
              rfl
          · exact hearlier hj hlog
        · simp at ht
      · exact hearlier ht hlog

end World

end Programs
