import WeftBlock.Lib.Runs
import Mathlib.Logic.Function.Basic

/-!
# Purging and rebuilding

`SnapshotPurge` and `FilesSync` of `pkg/sync/rpc/server.go`. Each sets a flag of the sync agent
before it starts and clears it when it ends, whether it has failed or not. `PrepareRebuild` looks
at both flags, **`PreparePurge` only at its own**, so a purge can start while a rebuild is running.
-/

namespace WeftBlock.Sync

inductive Job
  | purge
  | rebuild
deriving DecidableEq

inductive PrepareErr
  /-- "replica is already purging snapshots" -/
  | alreadyPurging
  /-- "replica is purging snapshots" -/
  | purging
  /-- "replica is already rebuilding" -/
  | alreadyRebuilding
deriving DecidableEq

structure AgentServer where
  /-- `isPurging` and `isRebuilding`. -/
  flags : Job → Bool
  /-- How many calls have been accepted and have not ended. -/
  active : Job → Nat
  /-- A finish function has answered "BUG: replica is not …". -/
  bug : Bool

namespace AgentServer

/-- `PreparePurge` and `PrepareRebuild`: why a call is refused. -/
def prepare (s : AgentServer) : Job → Option PrepareErr
  | .purge => if s.flags .purge then some .alreadyPurging else none
  | .rebuild =>
      if s.flags .purge then some .purging
      else if s.flags .rebuild then some .alreadyRebuilding else none

/-- A call comes, or one that was accepted is through and clears the flag. -/
inductive Event
  | call (job : Job)
  | finish (job : Job)
deriving DecidableEq

/-- The critical sections of the calls. -/
def step (s : AgentServer) : Event → Option AgentServer
  | .call job =>
      match s.prepare job with
      | some _ => some s
      | none => some { s with
          flags := Function.update s.flags job true
          active := Function.update s.active job (s.active job + 1) }
  | .finish job =>
      if s.active job = 0 then none
      else some {
        flags := Function.update s.flags job false
        active := Function.update s.active job (s.active job - 1)
        bug := s.bug || !s.flags job }

def idle : AgentServer := ⟨fun _ => false, fun _ => 0, false⟩

/-- Purges and rebuilds exclude each other. -/
structure Exclusive (s : AgentServer) : Prop where
  apart : ¬ (s.flags .purge = true ∧ s.flags .rebuild = true)
  /-- At most one of each is active, and its flag is set exactly as long. -/
  single : ∀ job, s.active job = if s.flags job then 1 else 0
  noBug : s.bug = false

/-- No purge is accepted while a rebuild is running. -/
def Apart (s : AgentServer) (e : Event) : Prop := e = .call .purge → s.flags .rebuild = false

instance (s : AgentServer) (e : Event) : Decidable (Apart s e) :=
  inferInstanceAs (Decidable (_ → _))

theorem exclusive_step {s s' : AgentServer} {e : Event} (h : Exclusive s) (hok : Apart s e)
    (hstep : s.step e = some s') : Exclusive s' := by
  cases e with
  | call job =>
    rw [step] at hstep
    cases hprep : s.prepare job with
    | some err =>
      rw [hprep] at hstep
      exact Option.some.inj hstep ▸ h
    | none =>
      rw [hprep] at hstep
      obtain rfl := Option.some.inj hstep
      -- no flag is set when a call is accepted
      have hnone : ∀ job', s.flags job' = false := by
        intro job'
        cases job with
        | purge =>
          have hrebuild := hok rfl
          cases job' <;> simp_all [prepare]
        | rebuild =>
          rw [prepare] at hprep
          split_ifs at hprep
          cases job' <;> simp_all
      refine ⟨?_, fun job' => ?_, h.noBug⟩
      · cases job <;> simp [hnone]
      · have hj := h.single job'
        by_cases hne : job' = job
        · subst hne
          simp [hj, hnone]
        · simp [Function.update_of_ne hne, hj]
  | finish job =>
    obtain ⟨hpos, hstep⟩ := Option.ite_none_left_eq_some.mp hstep
    obtain rfl := Option.some.inj hstep
    have hflag : s.flags job = true := by
      by_contra hno
      exact hpos (by rw [h.single, if_neg hno])
    refine ⟨fun hboth => ?_, fun job' => ?_, by simp [h.noBug, hflag]⟩
    · cases job <;> simp at hboth
    · have hj := h.single job'
      by_cases hne : job' = job
      · subst hne
        simp [hj, hflag]
      · simp [Function.update_of_ne hne, hj]

/-- **Purges and rebuilds exclude each other** in every interleaving in which no purge is accepted
while a rebuild is running. -/
theorem run_exclusive {events : List Event} (hok : Runs.Steady step Apart idle events)
    {s : AgentServer} (hrun : Runs.run step idle events = some s) : Exclusive s :=
  Runs.run_steady (fun _ _ _ h hok hstep => exclusive_step h hok hstep)
    ⟨by simp [idle], fun _ => rfl, rfl⟩ hok hrun

/-- A rebuild that is refused while a purge is running, and one after it. -/
theorem run_exclusive_inTurn : ∃ s, Runs.run step idle
      [.call .purge, .call .rebuild, .finish .purge, .call .rebuild] = some s
    ∧ s.flags .rebuild = true ∧ Exclusive s := by
  refine ⟨_, rfl, rfl, @run_exclusive
    [.call .purge, .call .rebuild, .finish .purge, .call .rebuild] ?_ _ rfl⟩
  decide

/-- A purge that is accepted while a rebuild is running. -/
theorem purge_while_rebuilding : ∃ s, Runs.run step idle [.call .rebuild, .call .purge] = some s
    ∧ s.flags .purge = true ∧ s.flags .rebuild = true :=
  ⟨_, rfl, rfl, rfl⟩

end AgentServer

end WeftBlock.Sync
