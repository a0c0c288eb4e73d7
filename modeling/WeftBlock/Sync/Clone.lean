import WeftBlock.Lib.Runs
import WeftBlock.Replica.Create

/-!
# Cloning a snapshot into a replica

`SnapshotClone` of `pkg/sync/rpc/server.go`, with `prepareClone`, `startCloning`, `postCloning` and
`FinishClone`, called any number of times at once. A call is at some stage, and the calls share
`isCloning` and the status. `prepareClone`, the update of the status and `FinishClone` hold a lock,
and are one step each; so is everything that is asked of somebody else.

The deferred function of the call is registered before `prepareClone` is called. So it also runs for
a call that was turned away: the status of the clone that is running is overwritten, and `isCloning`
is taken from it. And it ends with `err = s.FinishClone()`, so a call returns what `FinishClone`
says, whatever has failed before.
-/

namespace WeftBlock.Sync

/-- `SnapshotCloneRequest`. -/
structure CloneRequest where
  fromAddress : String
  snapshotFileName : String
  toHost : String
deriving DecidableEq

/-- `types.ProcessState`. -/
inductive ProcessState
  | unset | inProgress | complete | error
deriving DecidableEq

/-- `CloneStatus`. -/
structure CloneStatus where
  error : String
  progress : Int
  state : ProcessState
  fromReplicaAddress : String
  snapshotName : String
  processedSize : Int
  totalSize : Int
deriving DecidableEq

/-- What the calls share. -/
structure Shared where
  replicaAddress : String
  isCloning : Bool
  cloneStatus : CloneStatus
deriving DecidableEq

/-- What `startCloning` and `postCloning` have others do. -/
inductive Task
  /-- `launchReceiver`. -/
  | launching
  /-- `ExportVolume`, with a receiver for the disk at the port. -/
  | exporting (disk : String) (port : Nat)
  /-- `CreateNewSnapshotMetafile`. -/
  | creatingMeta
  /-- `reloadReplica`. -/
  | reloading (disk : String)
  /-- `replicaRevert`. -/
  | reverting (disk : String)
deriving DecidableEq

/-- Where a call is. -/
inductive Stage
  /-- The source replica is asked for its size and for the snapshot. -/
  | listing
  /-- `prepareClone`. -/
  | preparing (snapshotSize : Int)
  /-- `startCloning` and `postCloning`. -/
  | working (task : Task)
  /-- The deferred function: the update of the status. -/
  | recording (err : Option String)
  /-- The deferred function: `FinishClone`. -/
  | finishing
  | returned (err : Option String)
deriving DecidableEq

/-- A call of `SnapshotClone`. -/
structure Call where
  request : CloneRequest
  stage : Stage
  /-- History: whether `prepareClone` has let it in. -/
  admitted : Option Bool
  /-- History: how its steps went, the latest first. -/
  outcomes : List (Option String)
deriving DecidableEq

/-- The server. -/
structure Agent where
  shared : Shared
  calls : List Call
deriving DecidableEq

/-- What a call is answered by those it asks. -/
structure Answer where
  fault : Option String
  snapshotSize : Int
  port : Nat

/-- What happens. -/
inductive Event
  | call (request : CloneRequest)
  /-- The next step of a call. -/
  | step (i : Nat) (x : Answer)
  /-- A receiver reports. -/
  | progress (size : Int)

section Steps

-- how much is done, in percent: a division of floating point numbers
variable (percent : Int → Int → Int)

/-- The status as `prepareClone` sets it. -/
def CloneStatus.prepared (st : CloneStatus) (r : CloneRequest) (snapshotSize : Int) : CloneStatus :=
  let totalSize := if snapshotSize = 0 then 1 else snapshotSize
  { st with
    fromReplicaAddress := r.fromAddress
    snapshotName := r.snapshotFileName
    error := ""
    state := .inProgress
    totalSize := totalSize
    progress := percent st.processedSize totalSize }

/-- `UpdateSyncFileProgress`. -/
def CloneStatus.updateSyncFileProgress (st : CloneStatus) (size : Int) : CloneStatus :=
  { st with
    processedSize := st.processedSize + size
    progress := percent (st.processedSize + size) st.totalSize }

/-- The status as the deferred function sets it. -/
def CloneStatus.recorded (st : CloneStatus) : Option String → CloneStatus
  | some e => { st with error := e, state := .error }
  | none => { st with progress := 100, state := .complete }

/-- The error of a call that is turned away. -/
def CloneStatus.busy (st : CloneStatus) : String :=
  "replica is cloning snapshot " ++ st.snapshotName ++ " from replica address "
    ++ st.fromReplicaAddress

/-- What is put before the error of a task. -/
def Task.failure (s : Shared) (r : CloneRequest) : Task → String
  | .launching => "failed to launch receiver for snapshot " ++ r.snapshotFileName
  | .exporting _ port => "failed to export snapshot " ++ r.snapshotFileName ++ " from replica "
      ++ r.fromAddress ++ " to " ++ r.toHost ++ ":" ++ toString port
  | .creatingMeta => "failed creating meta snapshot file"
  | .reloading disk => "failed to reload replica " ++ s.replicaAddress
      ++ " during cloning snapshot " ++ disk
  | .reverting disk => "error on reverting to " ++ disk ++ " on " ++ s.replicaAddress

/-- The next task; the name of the snapshot is read from the status. -/
def Task.after (s : Shared) (x : Answer) : Task → Option Task
  | .launching => some (.exporting (generateSnapshotDiskName s.cloneStatus.snapshotName) x.port)
  | .exporting _ _ => some .creatingMeta
  | .creatingMeta => some (.reloading (generateSnapshotDiskName s.cloneStatus.snapshotName))
  | .reloading disk => some (.reverting disk)
  | .reverting _ => none

/-- The stage with the task, or the end of the work. -/
def Stage.ofTask : Option Task → Stage
  | some task => .working task
  | none => .recording none

/-- The call goes on to the stage after a step that ended so. -/
def Call.moved (c : Call) (outcome : Option String) (stage : Stage) : Call :=
  { c with stage := stage, outcomes := outcome :: c.outcomes }

/-- The next step of a call. -/
def Call.next (s : Shared) (c : Call) (x : Answer) : Option (Shared × Call) :=
  match c.stage with
  | .listing =>
    -- nothing is deferred yet
    match x.fault with
    | some e => some (s, c.moved (some e) (.returned (some e)))
    | none => some (s, c.moved none (.preparing x.snapshotSize))
  | .preparing snapshotSize =>
    if s.isCloning then
      let err := some s.cloneStatus.busy
      some (s, { c.moved err (.recording err) with admitted := some false })
    else
      some ({ s with
          isCloning := true
          cloneStatus := s.cloneStatus.prepared percent c.request snapshotSize },
        { c.moved none (.working .launching) with admitted := some true })
  | .working task =>
    match x.fault with
    | some e =>
      let err := some (task.failure s c.request ++ ": " ++ e)
      some (s, c.moved err (.recording err))
    | none => some (s, c.moved none (.ofTask (task.after s x)))
  | .recording err =>
    some ({ s with cloneStatus := s.cloneStatus.recorded err }, { c with stage := .finishing })
  | .finishing =>
    -- the error is that of `FinishClone` now
    if s.isCloning then some ({ s with isCloning := false }, { c with stage := .returned none })
    else some (s, { c with stage := .returned (some "BUG: replica is not cloning") })
  | .returned _ => none

/-- One step of the server. -/
def step (a : Agent) : Event → Option Agent
  | .call request => some { a with calls := a.calls ++ [⟨request, .listing, none, []⟩] }
  | .step i x =>
    match a.calls[i]? with
    | none => none
    | some c => (c.next percent a.shared x).map (fun r => ⟨r.1, a.calls.set i r.2⟩)
  | .progress size =>
    some { a with shared := { a.shared with
      cloneStatus := a.shared.cloneStatus.updateSyncFileProgress percent size } }

end Steps

/-- A server that has just been started. -/
def Agent.started (replicaAddress : String) : Agent :=
  ⟨⟨replicaAddress, false, ⟨"", 0, .unset, "", "", 0, 0⟩⟩, []⟩

/-! ## What is expected -/

/-- The call is between `prepareClone` and its end. -/
def Call.Running (c : Call) : Prop := c.admitted = some true ∧ ∀ e, c.stage ≠ .returned e

/-- All its steps have succeeded. -/
def Call.Flawless (c : Call) : Prop := ∀ o ∈ c.outcomes, o = none

/-- Nil for what succeeded, one clone at a time, and `isCloning` as long as it runs. -/
structure Truthful (a : Agent) : Prop where
  result : ∀ c ∈ a.calls, ∀ e, c.stage = .returned e → (e = none ↔ c.Flawless)
  one : ∀ (i j : Nat) (c d : Call), a.calls[i]? = some c → a.calls[j]? = some d →
    c.Running → d.Running → i = j
  cloning : ∀ c ∈ a.calls, c.Running → a.shared.isCloning = true

/-- A step of a call that is turned away, or has been, changes nothing that is shared. -/
def Unobtrusive (a : Agent) (e : Event) (a' : Agent) : Prop :=
  ∀ (i : Nat) (x : Answer) (c : Call), e = .step i x → a'.calls[i]? = some c →
    c.admitted = some false → a'.shared = a.shared

/-- A run in which this is so all the time. -/
def Honest (percent : Int → Int → Int) (replicaAddress : String) (events : List Event) : Prop :=
  Runs.Steady (step percent)
    (fun a e => ∀ a', step percent a e = some a' → Truthful a' ∧ Unobtrusive a e a')
    (.started replicaAddress) events

/-- Something is to be done by others next. -/
def Stage.Working : Stage → Bool
  | .working _ => true
  | _ => false

/-- `prepareClone` is next. -/
def Stage.Preparing : Stage → Bool
  | .preparing _ => true
  | _ => false

/-- No call comes to `prepareClone` while another one is cloning, and no step after that fails. -/
def Undisturbed (a : Agent) : Event → Prop
  | .step i x => ∀ c ∈ a.calls[i]?, (c.stage.Preparing → a.shared.isCloning = false) ∧
      (c.stage.Working → x.fault = none)
  | _ => True

instance (a : Agent) : (e : Event) → Decidable (Undisturbed a e)
  | .step i x => inferInstanceAs (Decidable (∀ c ∈ a.calls[i]?, _))
  | .call _ => .isTrue trivial
  | .progress _ => .isTrue trivial

/-! ## Steps -/

variable {a a' : Agent} {replicaAddress : String} {c : Call} {events : List Event} {e : Event}
  {x : Answer} {s s' : Shared}

section Proofs

variable {percent : Int → Int → Int}

variable {i : Nat} {calls : List Call} {owner : Option Nat}

theorem step_step (h : step percent a (.step i x) = some a') :
    ∃ c s' c', a.calls[i]? = some c ∧ c.next percent a.shared x = some (s', c') ∧
      a' = ⟨s', a.calls.set i c'⟩ := by
  cases hc : a.calls[i]? with
  | none =>
    rw [step, hc] at h
    simp at h
  | some c =>
    rw [step, hc] at h
    obtain ⟨r, hr, rfl⟩ := Option.map_eq_some_iff.mp h
    exact ⟨c, r.1, r.2, rfl, hr, rfl⟩

/-! ## Undisturbed runs -/

/-- What can be said of a call by its stage, as long as no clone is disturbed. -/
def Call.Smooth (c : Call) : Prop :=
  match c.stage with
  | .listing | .preparing _ => c.admitted = none ∧ c.Flawless
  | .recording (some _) => False
  | .returned (some _) => c.admitted = none ∧ ¬ c.Flawless
  | _ => c.admitted = some true ∧ c.Flawless

/-- Only `prepareClone` and `FinishClone` touch `isCloning`, and a call runs in between. -/
theorem Call.Smooth.next {c c' : Call} (h : c.Smooth)
    (hprep : c.stage.Preparing → s.isCloning = false) (hwork : c.stage.Working → x.fault = none)
    (hown : c.Running → s.isCloning = true) (hn : c.next percent s x = some (s', c')) :
    c'.Smooth ∧ (((c.Running ↔ c'.Running) ∧ s'.isCloning = s.isCloning) ∨
      (s.isCloning = false ∧ c'.Running ∧ s'.isCloning = true) ∨
      (c.Running ∧ ¬ c'.Running ∧ s'.isCloning = false)) := by
  obtain ⟨request, stage, admitted, outcomes⟩ := c
  cases stage with
  | listing =>
    obtain ⟨hadm, hfl⟩ := h
    cases hx : x.fault with
    | none =>
      simp only [Call.next, hx, Option.some.injEq, Prod.mk.injEq] at hn
      obtain ⟨rfl, rfl⟩ := hn
      exact ⟨⟨hadm, List.forall_mem_cons.mpr ⟨rfl, hfl⟩⟩,
        Or.inl ⟨by simp [Running, moved], rfl⟩⟩
    | some e =>
      simp only [Call.next, hx, Option.some.injEq, Prod.mk.injEq] at hn
      obtain ⟨rfl, rfl⟩ := hn
      refine ⟨⟨hadm, fun hfl' => ?_⟩, Or.inl ⟨by simp_all [Running, moved], rfl⟩⟩
      exact absurd (hfl' (some e) List.mem_cons_self) (by simp)
  | preparing size =>
    simp only [Call.next, hprep rfl, Bool.false_eq_true, if_false, Option.some.injEq,
      Prod.mk.injEq] at hn
    obtain ⟨rfl, rfl⟩ := hn
    exact ⟨⟨rfl, List.forall_mem_cons.mpr ⟨rfl, h.2⟩⟩,
      Or.inr (Or.inl ⟨hprep rfl, by simp [Running, moved], rfl⟩)⟩
  | working task =>
    obtain ⟨hadm, hfl⟩ := h
    simp only [Call.next, hwork rfl, Option.some.injEq, Prod.mk.injEq] at hn
    obtain ⟨rfl, rfl⟩ := hn
    have hfl' : ∀ o ∈ none :: outcomes, o = none := List.forall_mem_cons.mpr ⟨rfl, hfl⟩
    -- the work goes on or is done
    cases task.after s x with
    | none => exact ⟨⟨hadm, hfl'⟩, Or.inl ⟨by simp [Running, moved, Stage.ofTask], rfl⟩⟩
    | some task => exact ⟨⟨hadm, hfl'⟩, Or.inl ⟨by simp [Running, moved, Stage.ofTask], rfl⟩⟩
  | recording err =>
    cases err with
    | some e => exact h.elim
    | none =>
      simp only [Call.next, Option.some.injEq, Prod.mk.injEq] at hn
      obtain ⟨rfl, rfl⟩ := hn
      exact ⟨h, Or.inl ⟨by simp [Running], rfl⟩⟩
  | finishing =>
    have hrun : Running ⟨request, .finishing, admitted, outcomes⟩ := ⟨h.1, by simp⟩
    simp only [Call.next, hown hrun, if_true, Option.some.injEq, Prod.mk.injEq] at hn
    obtain ⟨rfl, rfl⟩ := hn
    exact ⟨h, Or.inr (Or.inr ⟨hrun, fun hr => hr.2 none rfl, rfl⟩)⟩
  | returned err => exact absurd hn (by simp [Call.next])

/-- The call at the index runs. -/
def RunsAt (calls : List Call) (i : Nat) : Prop := ∃ c ∈ calls[i]?, c.Running

theorem runsAt_iff (hi : calls[i]? = some c) :
    RunsAt calls i ↔ c.Running := by
  constructor
  · rintro ⟨d, hd, hr⟩
    obtain rfl : c = d := Option.some.inj (hi.symm.trans hd)
    exact hr
  · exact fun hr => ⟨c, hi, hr⟩

theorem runsAt_set (hi : calls[i]? = some c) (c' : Call) (j : Nat) :
    RunsAt (calls.set i c') j ↔ if j = i then c'.Running else RunsAt calls j := by
  have hlt : i < calls.length := (List.getElem?_eq_some_iff.mp hi).1
  by_cases hj : j = i
  · rw [if_pos hj, hj]
    exact runsAt_iff (List.getElem?_set_self hlt)
  · rw [if_neg hj, RunsAt, List.getElem?_set_ne (Ne.symm hj)]
    rfl

/-- A call that has just been made does not run yet. -/
theorem runsAt_append (calls : List Call) (request : CloneRequest) (i : Nat) :
    RunsAt (calls ++ [⟨request, .listing, none, []⟩]) i ↔ RunsAt calls i := by
  by_cases hi : i < calls.length
  · rw [RunsAt, List.getElem?_append_left hi]
    rfl
  · have hge : calls.length ≤ i := not_lt.mp hi
    constructor
    · rintro ⟨c, hc, hr⟩
      rw [List.getElem?_append_right hge] at hc
      have hc' := List.mem_singleton.mp (List.mem_of_getElem? hc)
      rw [hc'] at hr
      exact absurd hr.1 (by simp)
    · rintro ⟨c, hc, -⟩
      rw [List.getElem?_eq_none hge] at hc
      simp at hc

/-- One call runs, or none does. -/
structure Owned (a : Agent) (owner : Option Nat) : Prop where
  isCloning : a.shared.isCloning = owner.isSome
  runsAt : ∀ i, RunsAt a.calls i ↔ owner = some i

/-- The states of an undisturbed run. -/
structure Orderly (a : Agent) : Prop where
  smooth : ∀ c ∈ a.calls, c.Smooth
  owned : ∃ owner, Owned a owner

theorem Owned.running {a : Agent} (h : Owned a owner) (hi : a.calls[i]? = some c) :
    c.Running ↔ owner = some i :=
  (runsAt_iff hi).symm.trans (h.runsAt i)

theorem Owned.cloning {a : Agent} (h : Owned a owner) (hc : c ∈ a.calls) (hr : c.Running) :
    a.shared.isCloning = true := by
  obtain ⟨i, hi⟩ := List.getElem?_of_mem hc
  rw [h.isCloning, (h.running hi).mp hr]
  rfl

theorem Orderly.step (h : Orderly a) (hok : Undisturbed a e)
    (hs : Sync.step percent a e = some a') : Orderly a' := by
  obtain ⟨hsmooth, owner, hown⟩ := h
  cases e with
  | call request =>
    obtain rfl := Option.some.inj hs
    refine ⟨fun c hc => ?_, owner, hown.isCloning, fun i => ?_⟩
    · rcases List.mem_append.mp hc with hc | hc
      · exact hsmooth c hc
      · rw [List.mem_singleton] at hc
        subst hc
        exact ⟨rfl, fun o ho => absurd ho List.not_mem_nil⟩
    · exact (runsAt_append a.calls request i).trans (hown.runsAt i)
  | progress size =>
    obtain rfl := Option.some.inj hs
    exact ⟨hsmooth, owner, hown.isCloning, hown.runsAt⟩
  | step i x =>
    obtain ⟨c, s', c', hc, hn, rfl⟩ := step_step hs
    have hmem : c ∈ a.calls := List.mem_of_getElem? hc
    obtain ⟨hprep, hwork⟩ := hok c hc
    obtain ⟨hsm', hcases⟩ := (hsmooth c hmem).next hprep hwork (hown.cloning hmem) hn
    refine ⟨fun d hd => ?_, ?_⟩
    · obtain hd | rfl := List.mem_or_eq_of_mem_set hd
      · exact hsmooth d hd
      · exact hsm'
    rcases hcases with ⟨hiff, hsame⟩ | ⟨hfree, hr', htrue⟩ | ⟨hr, hr', hfalse⟩
    · refine ⟨owner, hsame.trans hown.isCloning, fun j => ?_⟩
      rw [runsAt_set hc, ← hown.runsAt]
      split
      next hj => rw [← hiff, hj, runsAt_iff hc]
      next => rfl
    · -- nobody was running, so this one is the only one
      have hnone : owner = none := by
        cases owner with
        | none => rfl
        | some k => exact absurd (hfree.symm.trans hown.isCloning) (by simp)
      refine ⟨some i, htrue, fun j => ?_⟩
      rw [runsAt_set hc, hown.runsAt, hnone]
      split
      next hj => simp [hr', hj]
      next hj => simp [Ne.symm hj]
    · have howner : owner = some i := (hown.running hc).mp hr
      refine ⟨none, hfalse, fun j => ?_⟩
      rw [runsAt_set hc, hown.runsAt, howner]
      split
      next => simp [hr']
      next hj => simp [Ne.symm hj]

theorem Orderly.truthful {a : Agent} (h : Orderly a) : Truthful a := by
  obtain ⟨hsmooth, owner, hown⟩ := h
  refine ⟨fun c hc e he => ?_, fun i j c d hi hj hc hd => ?_, fun c hc hr => hown.cloning hc hr⟩
  · have hsm := hsmooth c hc
    rw [Call.Smooth, he] at hsm
    cases e with
    | none => exact iff_of_true rfl hsm.2
    | some e => exact iff_of_false (by simp) hsm.2
  · have h₁ := (hown.running hi).mp hc
    have h₂ := (hown.running hj).mp hd
    exact Option.some.inj (h₁.symm.trans h₂)

theorem Call.Smooth.not_rejected (h : c.Smooth) : c.admitted ≠ some false := by
  intro hadm
  unfold Call.Smooth at h
  split at h <;> simp_all

theorem orderly_started (replicaAddress : String) : Orderly (.started replicaAddress) := by
  refine ⟨fun c hc => absurd hc List.not_mem_nil, none, rfl, fun i => ?_⟩
  simp [RunsAt, Agent.started]

theorem honest_of_undisturbed
    (h : Runs.Steady (step percent) Undisturbed (.started replicaAddress) events) :
    Honest percent replicaAddress events := by
  refine Runs.Steady.imp_of_inv (fun a e ha hok => ⟨fun a' hs => ?_, fun a' hs => ha.step hok hs⟩)
    (orderly_started replicaAddress) h
  have ha' := ha.step hok hs
  refine ⟨ha'.truthful, fun i x c _ hc hadm => ?_⟩
  exact absurd hadm (ha'.smooth c (List.mem_of_getElem? hc)).not_rejected

/-! ## Honest runs -/

/-- A step of a call that was let in has failed. -/
def Call.Failed (c : Call) : Prop := c.admitted = some true ∧ ¬ c.Flawless

/-- What can be said of a call by its stage. -/
def Call.Placed (c : Call) : Prop :=
  match c.stage with
  | .listing | .preparing _ => c.admitted = none
  | .working _ | .recording none => c.admitted = some true
  | .recording (some _) => c.admitted ≠ none ∧ ¬ c.Flawless
  | .finishing => c.admitted ≠ none
  | .returned _ => True

theorem Call.not_flawless_of_mem {e : String} (h : some e ∈ c.outcomes) :
    ¬ c.Flawless :=
  fun hf => absurd (hf (some e) h) (by simp)

theorem Call.not_flawless_of_subset {c c' : Call} (hs : c.outcomes ⊆ c'.outcomes)
    (h : ¬ c.Flawless) : ¬ c'.Flawless :=
  fun hf => h (fun o ho => hf o (hs ho))

/-- What one step of one call can be, whatever the others do. -/
structure Call.Goes (s : Shared) (c : Call) (x : Answer) (s' : Shared) (c' : Call) : Prop where
  placed : c'.Placed
  /-- What `prepareClone` has said stays. -/
  admitted : c.admitted ≠ none → c'.admitted = c.admitted
  outcomes : ¬ c.Flawless → ¬ c'.Flawless
  /-- Who writes an error to the status. -/
  error : s'.cloneStatus.state = .error →
    s.cloneStatus.state = .error ∨ c'.Failed ∨ c'.admitted = some false
  /-- What those do that are turned away. -/
  rejected : c'.admitted = some false → (∃ e, c'.stage = .recording e) ∨
    s'.cloneStatus.state = .error ∨ (c.admitted = some false ∧ ∀ e, c.stage ≠ .recording e)
  returned : c'.admitted = some true → ∀ e, c'.stage = .returned e →
    c.Running ∧ (s.isCloning = true → e = none)
  /-- What comes of a disturbance. -/
  disturbed : (c.stage.Preparing ∧ s.isCloning = true) ∨ (c.stage.Working ∧ x.fault ≠ none) →
    c'.Failed ∨ c'.admitted = some false

theorem Call.Placed.next {c c' : Call} (h : c.Placed)
    (hn : c.next percent s x = some (s', c')) : c.Goes s x s' c' := by
  obtain ⟨request, stage, admitted, outcomes⟩ := c
  cases stage with
  | listing =>
    obtain rfl : admitted = none := h
    cases hx : x.fault with
    | none =>
      simp only [Call.next, hx, Option.some.injEq, Prod.mk.injEq] at hn
      obtain ⟨rfl, rfl⟩ := hn
      exact ⟨rfl, fun h => absurd rfl h,
        not_flawless_of_subset (List.subset_cons_self _ _), Or.inl,
        fun h => absurd h (by simp [moved]), fun h => absurd h (by simp [moved]),
        by simp [Stage.Preparing, Stage.Working]⟩
    | some e =>
      simp only [Call.next, hx, Option.some.injEq, Prod.mk.injEq] at hn
      obtain ⟨rfl, rfl⟩ := hn
      exact ⟨trivial, fun h => absurd rfl h,
        not_flawless_of_subset (List.subset_cons_self _ _), Or.inl,
        fun h => absurd h (by simp [moved]), fun h => absurd h (by simp [moved]),
        by simp [Stage.Preparing, Stage.Working]⟩
  | preparing size =>
    obtain rfl : admitted = none := h
    cases hc : s.isCloning with
    | true =>
      simp only [Call.next, hc, if_true, Option.some.injEq, Prod.mk.injEq] at hn
      obtain ⟨rfl, rfl⟩ := hn
      exact ⟨⟨by simp, not_flawless_of_mem List.mem_cons_self⟩, fun h => absurd rfl h,
        not_flawless_of_subset (List.subset_cons_self _ _), Or.inl, fun _ => Or.inl ⟨_, rfl⟩,
        fun h => absurd h (by simp), fun _ => Or.inr rfl⟩
    | false =>
      simp only [Call.next, hc, Bool.false_eq_true, if_false, Option.some.injEq,
        Prod.mk.injEq] at hn
      obtain ⟨rfl, rfl⟩ := hn
      exact ⟨rfl, fun h => absurd rfl h, not_flawless_of_subset (List.subset_cons_self _ _),
        fun h => absurd h (by simp [CloneStatus.prepared]), fun h => absurd h (by simp),
        fun _ e he => absurd he (by simp [moved]), by simp [hc, Stage.Working]⟩
  | working task =>
    obtain rfl : admitted = some true := h
    cases hx : x.fault with
    | none =>
      simp only [Call.next, hx, Option.some.injEq, Prod.mk.injEq] at hn
      obtain ⟨rfl, rfl⟩ := hn
      refine ⟨?_, fun _ => rfl, not_flawless_of_subset (List.subset_cons_self _ _), Or.inl,
        fun h => absurd h (by simp [moved]), fun _ e he => ?_, by simp [hx, Stage.Preparing]⟩
      · cases task.after s x <;> rfl
      · cases hafter : task.after s x <;> simp [moved, hafter, Stage.ofTask] at he
    | some e =>
      simp only [Call.next, hx, Option.some.injEq, Prod.mk.injEq] at hn
      obtain ⟨rfl, rfl⟩ := hn
      exact ⟨⟨by simp [moved], not_flawless_of_mem List.mem_cons_self⟩, fun _ => rfl,
        not_flawless_of_subset (List.subset_cons_self _ _), Or.inl,
        fun h => absurd h (by simp [moved]),
        fun _ e he => absurd he (by simp [moved]),
        fun _ => Or.inl ⟨rfl, not_flawless_of_mem List.mem_cons_self⟩⟩
  | recording err =>
    simp only [Call.next, Option.some.injEq, Prod.mk.injEq] at hn
    obtain ⟨rfl, rfl⟩ := hn
    have hadm : admitted ≠ none := by
      cases err with
      | none => exact Option.ne_none_iff_exists'.mpr ⟨true, h⟩
      | some e => exact h.1
    refine ⟨hadm, fun _ => rfl, id, fun he => ?_, fun hrej => ?_,
      fun _ e he => absurd he (by simp), by simp [Stage.Preparing, Stage.Working]⟩
    · cases err with
      | none => exact absurd he (by simp [CloneStatus.recorded])
      | some e =>
        obtain ⟨b, rfl⟩ := Option.ne_none_iff_exists'.mp hadm
        cases b with
        | true => exact Or.inr (Or.inl ⟨rfl, h.2⟩)
        | false => exact Or.inr (Or.inr rfl)
    · cases err with
      | none => exact absurd (h.symm.trans hrej) (by simp)
      | some e => exact Or.inr (Or.inl rfl)
  | finishing =>
    cases hc : s.isCloning with
    | true =>
      simp only [Call.next, hc, if_true, Option.some.injEq, Prod.mk.injEq] at hn
      obtain ⟨rfl, rfl⟩ := hn
      exact ⟨trivial, fun _ => rfl, id, Or.inl, fun h => Or.inr (Or.inr ⟨h, by simp⟩),
        fun h e he => ⟨⟨h, by simp⟩, fun _ => (Stage.returned.inj he).symm⟩,
        by simp [Stage.Preparing, Stage.Working]⟩
    | false =>
      simp only [Call.next, hc, Bool.false_eq_true, if_false, Option.some.injEq,
        Prod.mk.injEq] at hn
      obtain ⟨rfl, rfl⟩ := hn
      exact ⟨trivial, fun _ => rfl, id, Or.inl, fun h => Or.inr (Or.inr ⟨h, by simp⟩),
        fun h e he => ⟨⟨h, by simp⟩, fun hcl => absurd (hc.symm.trans hcl) (by simp)⟩,
        by simp [Stage.Preparing, Stage.Working]⟩
  | returned err => exact absurd hn (by simp [Call.next])

theorem Honest.truthful {a : Agent} (h : Honest percent replicaAddress events)
    (hrun : Runs.run (step percent) (.started replicaAddress) events = some a) : Truthful a :=
  Runs.run_steady (fun _ _ a' _ hok hs => (hok a' hs).1) (orderly_started replicaAddress).truthful h
    hrun

/-- What the calls keep to themselves, some call has for good. -/
theorem exists_step {P : Call → Prop}
    (hP : ∀ s c x s' c', c.Goes s x s' c' → P c → P c') (ha : ∀ c ∈ a.calls, c.Placed)
    (hs : step percent a e = some a') (h : ∃ c ∈ a.calls, P c) : ∃ c ∈ a'.calls, P c := by
  obtain ⟨d, hd, hp⟩ := h
  cases e with
  | call request =>
    obtain rfl := Option.some.inj hs
    exact ⟨d, List.mem_append_left _ hd, hp⟩
  | progress size =>
    obtain rfl := Option.some.inj hs
    exact ⟨d, hd, hp⟩
  | step i x =>
    obtain ⟨c, s', c', hc, hn, rfl⟩ := step_step hs
    have hgoes := (ha c (List.mem_of_getElem? hc)).next hn
    obtain ⟨j, hj⟩ := List.getElem?_of_mem hd
    by_cases hij : i = j
    · subst hij
      obtain rfl : c = d := Option.some.inj (hc.symm.trans hj)
      have hlt : i < a.calls.length := (List.getElem?_eq_some_iff.mp hc).1
      exact ⟨c', List.mem_set hlt c', hP _ _ _ _ _ hgoes hp⟩
    · exact ⟨d, List.mem_of_getElem? ((List.getElem?_set_ne hij).trans hj), hp⟩

theorem Call.Goes.failed {c c' : Call} (h : c.Goes s x s' c') (hf : c.Failed) : c'.Failed := by
  obtain ⟨hadm, hfl⟩ := hf
  exact ⟨(h.admitted (by simp [hadm])).trans hadm, h.outcomes hfl⟩

/-- The states of an honest run. -/
structure Watched (a : Agent) : Prop where
  placed : ∀ c ∈ a.calls, c.Placed
  truthful : Truthful a
  error : a.shared.cloneStatus.state = .error → ∃ c ∈ a.calls, c.Failed
  rejected : ∀ c ∈ a.calls, c.admitted = some false →
    (∃ e, c.stage = .recording e) ∨ ∃ c ∈ a.calls, c.Failed
  returned : ∀ c ∈ a.calls, c.admitted = some true → ∀ e, c.stage = .returned e → e = none

theorem Watched.step (h : Watched a) (ht : Truthful a')
    (hu : Unobtrusive a e a') (hs : Sync.step percent a e = some a') : Watched a' := by
  have hfailed : (∃ c ∈ a.calls, c.Failed) → ∃ c ∈ a'.calls, c.Failed :=
    exists_step (fun _ _ _ _ _ hg hf => hg.failed hf) h.placed hs
  cases e with
  | call request =>
    obtain rfl := Option.some.inj hs
    have hold : ∀ c ∈ a.calls ++ [⟨request, .listing, none, []⟩],
        c ∈ a.calls ∨ c = ⟨request, .listing, none, []⟩ := by
      intro c hc
      rwa [List.mem_append, List.mem_singleton] at hc
    refine ⟨fun c hc => ?_, ht, fun he => hfailed (h.error he), fun c hc hadm => ?_,
      fun c hc hadm => ?_⟩
    · rcases hold c hc with hc | rfl
      · exact h.placed c hc
      · exact rfl
    · rcases hold c hc with hc | rfl
      · exact (h.rejected c hc hadm).imp_right hfailed
      · simp at hadm
    · rcases hold c hc with hc | rfl
      · exact h.returned c hc hadm
      · simp at hadm
  | progress size =>
    obtain rfl := Option.some.inj hs
    exact ⟨h.placed, ht, h.error, h.rejected, h.returned⟩
  | step i x =>
    obtain ⟨c, s', c', hc, hn, rfl⟩ := step_step hs
    have hmem : c ∈ a.calls := List.mem_of_getElem? hc
    have hlt : i < a.calls.length := (List.getElem?_eq_some_iff.mp hc).1
    have hgoes := (h.placed c hmem).next hn
    have hquiet : c'.admitted = some false → s' = a.shared :=
      hu i x c' rfl (List.getElem?_set_self hlt)
    have herror : s'.cloneStatus.state = .error → ∃ d ∈ a.calls.set i c', d.Failed := by
      intro he
      rcases hgoes.error he with hwas | hf | hrej
      · exact hfailed (h.error hwas)
      · exact ⟨c', List.mem_set hlt c', hf⟩
      · rw [hquiet hrej] at he
        exact hfailed (h.error he)
    refine ⟨fun d hd => ?_, ht, herror, fun d hd hadm => ?_, fun d hd hadm => ?_⟩
    · rcases List.mem_or_eq_of_mem_set hd with hd | rfl
      · exact h.placed d hd
      · exact hgoes.placed
    · rcases List.mem_or_eq_of_mem_set hd with hd | rfl
      · exact (h.rejected d hd hadm).imp_right hfailed
      rcases hgoes.rejected hadm with hrec | he | ⟨hrej, hnot⟩
      · exact Or.inl hrec
      · exact Or.inr (herror he)
      · rcases h.rejected c hmem hrej with ⟨e, he⟩ | hf
        · exact absurd he (hnot e)
        · exact Or.inr (hfailed hf)
    · rcases List.mem_or_eq_of_mem_set hd with hd | rfl
      · exact h.returned d hd hadm
      intro e he
      -- the call was running until now
      obtain ⟨hrun, hnone⟩ := hgoes.returned hadm e he
      exact hnone (h.truthful.cloning c hmem hrun)

theorem watched_started (replicaAddress : String) : Watched (.started replicaAddress) :=
  ⟨fun _ hc => absurd hc List.not_mem_nil, (orderly_started replicaAddress).truthful,
    fun h => absurd h (by simp [Agent.started]), fun _ hc => absurd hc List.not_mem_nil,
    fun _ hc => absurd hc List.not_mem_nil⟩

/-- A clone has been disturbed. -/
def Marred (a : Agent) : Prop := ∃ c ∈ a.calls, c.Failed ∨ c.admitted = some false

/-- Where all calls have returned it is too late to hide it. -/
theorem Watched.not_marred {a : Agent} (h : Watched a)
    (hend : ∀ c ∈ a.calls, ∃ e, c.stage = .returned e) : ¬ Marred a := by
  have hfailed : ∀ c ∈ a.calls, ¬ c.Failed := by
    intro c hc hf
    obtain ⟨e, he⟩ := hend c hc
    exact hf.2 ((h.truthful.result c hc e he).mp (h.returned c hc hf.1 e he))
  rintro ⟨c, hc, hf | hrej⟩
  · exact hfailed c hc hf
  · rcases h.rejected c hc hrej with ⟨e, he⟩ | ⟨d, hd, hf⟩
    · obtain ⟨e', he'⟩ := hend c hc
      exact absurd (he.symm.trans he') (by simp)
    · exact hfailed d hd hf

theorem marred_step (ha : ∀ c ∈ a.calls, c.Placed) (h : Marred a)
    (hs : step percent a e = some a') : Marred a' := by
  refine exists_step (fun s c x s' c' hg hm => ?_) ha hs h
  rcases hm with hf | hrej
  · exact Or.inl (hg.failed hf)
  · exact Or.inr ((hg.admitted (by simp [hrej])).trans hrej)

theorem undisturbed_or_marred (ha : ∀ c ∈ a.calls, c.Placed)
    (hs : step percent a e = some a') : Undisturbed a e ∨ Marred a' := by
  by_cases hok : Undisturbed a e
  · exact Or.inl hok
  cases e with
  | call request => exact absurd trivial hok
  | progress size => exact absurd trivial hok
  | step i x =>
    obtain ⟨c, s', c', hc, hn, rfl⟩ := step_step hs
    have hlt : i < a.calls.length := (List.getElem?_eq_some_iff.mp hc).1
    have hgoes := (ha c (List.mem_of_getElem? hc)).next hn
    refine Or.inr ⟨c', List.mem_set hlt c', hgoes.disturbed ?_⟩
    by_contra hno
    refine hok (fun d hd => ?_)
    obtain rfl : c = d := Option.some.inj (hc.symm.trans hd)
    rw [not_or, not_and, not_and, not_not] at hno
    exact ⟨fun hp => Bool.eq_false_iff.mpr (hno.1 hp), hno.2⟩

theorem undisturbed_of_honest {a : Agent} (h : Honest percent replicaAddress events)
    (hrun : Runs.run (step percent) (.started replicaAddress) events = some a)
    (hend : ∀ c ∈ a.calls, ∃ e, c.stage = .returned e) :
    Runs.Steady (step percent) Undisturbed (.started replicaAddress) events := by
  have hstep : ∀ a e a', Watched a →
      (∀ a', step percent a e = some a' → Truthful a' ∧ Unobtrusive a e a') →
      step percent a e = some a' → Watched a' ∧ (Undisturbed a e ∨ Marred a') :=
    fun a e a' hw hok hs =>
      ⟨hw.step (hok a' hs).1 (hok a' hs).2 hs, undisturbed_or_marred hw.placed hs⟩
  have hw : Watched a := Runs.run_steady (fun a e a' hw hok hs => (hstep a e a' hw hok hs).1)
    (watched_started replicaAddress) h hrun
  exact Runs.Steady.imp_of_end hstep (fun a e a' hw hm hs => marred_step hw.placed hm hs)
    (watched_started replicaAddress) h hrun (hw.not_marred hend)

end Proofs

/--
**A run is honest as long as no clone is disturbed**, and if all calls have returned it was honest
only then: a call that was let in and failed has returned nil, and one that was turned away has
written its error over the status of the clone that was running, or ended it.
-/
theorem honest_iff_undisturbed (percent : Int → Int → Int) (replicaAddress : String)
    (events : List Event) :
    (Runs.Steady (step percent) Undisturbed (.started replicaAddress) events →
      Honest percent replicaAddress events) ∧
    ∀ a, Runs.run (step percent) (.started replicaAddress) events = some a →
      (∀ c ∈ a.calls, ∃ e, c.stage = .returned e) →
      (Honest percent replicaAddress events ↔
        Runs.Steady (step percent) Undisturbed (.started replicaAddress) events) :=
  ⟨honest_of_undisturbed, fun _ hrun hend =>
    ⟨fun h => undisturbed_of_honest h hrun hend, honest_of_undisturbed⟩⟩

/-! ## A clone that fails -/

/-- Everything is answered. -/
def Answer.fine : Answer := ⟨none, 4096, 9700⟩

/-- One clone from its call to its end. -/
def oneClone : List Event :=
  .call ⟨"10.0.0.1:9502", "daily", "10.0.0.2"⟩ :: List.replicate 9 (.step 0 .fine)

/-- Whole percents. -/
def wholePercent (processed total : Int) : Int := processed * 100 / total

theorem oneClone_honest : Honest wholePercent "10.0.0.2:9502" oneClone :=
  (honest_iff_undisturbed wholePercent "10.0.0.2:9502" oneClone).1 (by decide +kernel)

/-- The receiver can not be launched. -/
def failedClone : List Event :=
  [.call ⟨"10.0.0.1:9502", "daily", "10.0.0.2"⟩, .step 0 .fine, .step 0 .fine,
    .step 0 { Answer.fine with fault := some "no port" }, .step 0 .fine, .step 0 .fine]

/-- A second call comes while the first one is exporting. -/
def secondClone : List Event :=
  .call ⟨"10.0.0.1:9502", "daily", "10.0.0.2"⟩ :: .call ⟨"10.0.0.3:9502", "weekly", "10.0.0.2"⟩ ::
    (List.replicate 3 (.step 0 .fine) ++ List.replicate 4 (.step 1 .fine))

/-- The clone that failed returns nil. -/
theorem failedClone_run :
    (Runs.run (step wholePercent) (.started "10.0.0.2:9502") failedClone).map
        (fun a => a.calls.map fun c => (c.stage, c.outcomes)) =
      some [(.returned none,
        [some "failed to launch receiver for snapshot daily: no port", none, none])] := by
  decide +kernel

/-- The call that is turned away returns nil too, and the first clone is not one any more. -/
theorem secondClone_run :
    (Runs.run (step wholePercent) (.started "10.0.0.2:9502") secondClone).map
        (fun a => (a.shared.isCloning, a.shared.cloneStatus.state,
          a.calls.map fun c => (c.stage, c.admitted))) =
      some (false, .error, [(.working (.exporting "volume-snap-daily.img" 9700), some true),
        (.returned none, some false)]) := by
  decide +kernel

theorem failedClone_not_honest :
    ¬ Honest wholePercent "10.0.0.2:9502" failedClone ∧
      ¬ Honest wholePercent "10.0.0.2:9502" secondClone := by
  constructor
  · intro h
    obtain ⟨a, ha, hcalls⟩ := Option.map_eq_some_iff.mp failedClone_run
    obtain ⟨c, hc, hlast⟩ := List.map_eq_singleton_iff.mp hcalls
    obtain ⟨hstage, houtcomes⟩ := Prod.mk.inj hlast
    have hflawless := ((h.truthful ha).result c (by simp [hc]) none hstage).mp rfl
    exact Call.not_flawless_of_mem (by rw [houtcomes]; exact List.mem_cons_self) hflawless
  · intro h
    obtain ⟨a, ha, hstate⟩ := Option.map_eq_some_iff.mp secondClone_run
    obtain ⟨hidle, hstate⟩ := Prod.mk.inj hstate
    obtain ⟨c, cs, hc, hfirst, -⟩ := List.map_eq_cons_iff.mp (Prod.mk.inj hstate).2
    obtain ⟨hstage, hadm⟩ := Prod.mk.inj hfirst
    have hcloning := (h.truthful ha).cloning c (by simp [hc]) ⟨hadm, by simp [hstage]⟩
    exact absurd (hidle.symm.trans hcloning) (by simp)

end WeftBlock.Sync
