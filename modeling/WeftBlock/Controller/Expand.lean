import WeftBlock.Controller.Operations

/-!
# Expanding a volume

`Expand` of `pkg/controller/control.go`, run to its end: the backends are expanded
first, then the frontend, and the size of the controller follows if both succeed.
One replica that expands is enough for the backends to count as expanded; those that
failed are then out of sync even if they rolled back. If all of them failed, only
those that did not roll back are.

Whoever is out of sync is handed to `handleErrorNoLock`, which was written for
failed writes: it leaves a replica alone whose error mentions an existing snapshot,
and one that ran out of space if no other RW replica is left.
-/

namespace WeftBlock

open DataConn Maps

/-- `types.ErrorCode`. -/
inductive ErrorCode
  | resultUnknown
  | functionFailedWithoutRollback
  | functionFailedRollbackSucceeded
  | functionFailedRollbackFailed
  /-- Any other code a replica may send. -/
  | other (code : List UInt8)
deriving DecidableEq

def ErrorCode.text : ErrorCode → List UInt8
  | .resultUnknown => DataConn.text "ResultUnknown"
  | .functionFailedWithoutRollback => DataConn.text "FunctionFailedWithoutRollback"
  | .functionFailedRollbackSucceeded => DataConn.text "FunctionFailedRollbackSucceeded"
  | .functionFailedRollbackFailed => DataConn.text "FunctionFailedRollbackFailed"
  | .other code => code

/-- `types.Error`. -/
structure CodedError where
  code : ErrorCode
  message : List UInt8
  rollbackMessage : List UInt8
deriving DecidableEq

/-- `Error()` of it. -/
def CodedError.text (e : CodedError) : List UInt8 :=
  DataConn.text "error: code = " ++ e.code.text ++ DataConn.text ", message = " ++ e.message
    ++ if e.rollbackMessage = [] then [] else
      DataConn.text ", rollbackMessage: " ++ e.rollbackMessage

/-- What a backend's `Expand` returns when it fails. -/
inductive ExpandErr
  /-- A `*types.Error`. -/
  | coded (e : CodedError)
  /-- Any other error. -/
  | plain (e : Err)
deriving DecidableEq

/-- `errWithCode`: another error is taken for one with an unknown result. -/
def ExpandErr.withCode : ExpandErr → CodedError
  | .coded e => e
  | .plain e => ⟨.resultUnknown, e.text, []⟩

/-- The replica has gone back to where it was. -/
def ExpandErr.rolledBack (e : ExpandErr) : Bool :=
  e.withCode.code = .functionFailedRollbackSucceeded

/-- The error as the controller handles it. -/
def ExpandErr.err (e : ExpandErr) : Err := .other e.withCode.text

namespace Replicator

variable {β : Type}

/-- What the backends make of an expansion: how many there are, the errors, and the
errors of those that are out of sync. -/
structure Expansion where
  rwReplicaCount : Nat
  errs : AList (fun _ : String => Err)
  outOfSyncErrs : AList (fun _ : String => Err)

/-- The calls of `Expand` to the backends that are not in error. -/
def expandAll (expand : String → Option ExpandErr) :
    List (String × BackendWrapper β) → Option Expansion
  | [] => some ⟨0, ∅, ∅⟩
  | (address, b) :: rest =>
    if b.mode = .ERR then expandAll expand rest
    else if b.backend = none then none
    else
      (expandAll expand rest).map (fun x =>
        match expand address with
        | none => { x with rwReplicaCount := x.rwReplicaCount + 1 }
        | some e =>
          ⟨x.rwReplicaCount + 1, x.errs.insert address e.err,
            if e.rolledBack then x.outOfSyncErrs else x.outOfSyncErrs.insert address e.err⟩)

/--
`Expand`: whether the expansion succeeded, the errors that need to be handled, and
those that are recorded.
-/
def expand (order : MapOrder) (r : Replicator β) (answers : String → Option ExpandErr) :
    Option (Bool × Option Controller.BackendError × Option Controller.BackendError) :=
  (expandAll answers (entries order r.backends)).map (fun x =>
    if x.errs.keys.length ≠ 0 then
      if x.errs.keys.length < x.rwReplicaCount then (true, some ⟨x.errs, ∅⟩, some ⟨x.errs, ∅⟩)
      else if x.outOfSyncErrs.keys.length ≠ 0 then
        (false, some ⟨x.outOfSyncErrs, ∅⟩, some ⟨x.errs, ∅⟩)
      else (false, none, some ⟨x.errs, ∅⟩)
    else (true, none, none))

end Replicator

namespace Controller

variable {β : Type}

/-- The errors of `startExpansion`. -/
inductive ExpansionErr
  /-- `controller expansion is in progress`. -/
  | inProgress
  /-- `requested expansion size %v not multiple of volume sector size %v`. -/
  | notMultiple (size : Int)
  /-- `controller cannot be expanded to a smaller size %v`. -/
  | smaller (size : Int)
deriving DecidableEq

/-- `startExpansion`. -/
def startExpansion (c : Controller β) (size : Int) : Except ExpansionErr (Controller β) :=
  if c.isExpanding then .error .inProgress
  else if size % volumeSectorSize ≠ 0 then .error (.notMultiple size)
  else if c.size = size then .ok c
  else if size < c.size then .error (.smaller size)
  else .ok { c with isExpanding := true }

/-- `finishExpansion`. -/
def finishExpansion (c : Controller β) (expanded : Bool) (size : Int) : Controller β :=
  { c with size := if expanded then size else c.size, isExpanding := false }

/-- What everyone answers to an expansion. -/
structure ExpandAnswers where
  snapshots : SnapshotAnswers
  expand : String → Option ExpandErr
  /-- `none` when there is no frontend. -/
  frontend : Option (Option Err)

/-- The frontend has followed, or there is none. -/
def ExpandAnswers.frontendOk (answers : ExpandAnswers) : Bool :=
  match answers.frontend with
  | some (some _) => false
  | _ => true

/-- What the goroutine of `Expand` does under the lock; the flag is `expanded`. -/
def expandBackend (order : MapOrder) (c : Controller β) (answers : ExpandAnswers) :
    Option (Controller β × Bool) :=
  match c.canDoSnapshot order answers.snapshots with
  | none => none
  | some (some _) => some (c, false)
  | some none =>
    match c.backend.expand order answers.expand with
    | none => none
    | some (_, _, none) => some (c, true)
    | some (expansionSuccess, errsNeedToBeHandled, some _) =>
      (c.handleErrorNoLock order (errsNeedToBeHandled.map .backend)).map
        (fun (c, _) => (c, expansionSuccess))

/-- `Expand`, until its goroutine has finished. -/
def expand (order : MapOrder) (c : Controller β) (size : Int) (answers : ExpandAnswers) :
    Option (Controller β × Option ExpansionErr) :=
  match c.startExpansion size with
  | .error e => some (c, some e)
  | .ok c =>
    (c.expandBackend order answers).map (fun (c, expanded) =>
      (c.finishExpansion (expanded && answers.frontendOk) size, none))

end Controller

/-! ## What the backends answer -/

namespace Replicator

variable {β : Type}

/-- **The calls**, if every backend that is asked is there. -/
theorem expandAll_eq (expand : String → Option ExpandErr) {l : List (String × BackendWrapper β)}
    (hlive : ∀ e ∈ l, e.2.mode ≠ .ERR → e.2.backend ≠ none) :
    expandAll expand l = some ⟨(asked l).length,
      gather (fun a => (expand a).map ExpandErr.err) ((asked l).map Prod.fst),
      gather (fun a => (expand a).bind (fun e => if !e.rolledBack then some e.err else none))
        ((asked l).map Prod.fst)⟩ := by
  induction l with
  | nil => rfl
  | cons e l ih =>
    rw [expandAll, ih (fun x hx => hlive x (List.mem_cons_of_mem _ hx)), asked_cons]
    by_cases hm : e.2.mode = .ERR
    · rw [if_pos hm, if_pos hm]
    · rw [if_neg hm, if_neg hm, if_neg (hlive e List.mem_cons_self hm), Option.map_some]
      cases hf : expand e.1 with
      | none => simp [hf, gather]
      | some f => cases hrb : f.rolledBack <;> simp [hf, hrb, gather]

end Replicator

variable {answers : ExpandAnswers}

namespace Controller

variable {β : Type}

/-- Some replica that is not in error expands. -/
def someExpands (c : Controller β) (answers : ExpandAnswers) : Bool :=
  c.replicas.any (fun r => r.mode ≠ .ERR && (answers.expand r.address).isNone)

/--
The error that is handled for an address: any error if some replica expands, and
otherwise one that came without a rollback.
-/
def handledError (c : Controller β) (answers : ExpandAnswers) (a : String) : Option Err :=
  if c.replicas.any (fun r => r.address = a && r.mode ≠ .ERR) then
    (answers.expand a).bind (fun e =>
      if c.someExpands answers || !e.rolledBack then some e.err else none)
  else none

variable {c : Controller β}

theorem someExpands_iff :
    c.someExpands answers = true
      ↔ ∃ a, (∃ m, ⟨a, m⟩ ∈ c.replicas ∧ m ≠ .ERR) ∧ answers.expand a = none := by
  unfold someExpands
  rw [List.any_eq_true]
  simp only [Bool.and_eq_true, decide_eq_true_eq, Option.isNone_iff_eq_none]
  constructor
  · intro hex
    obtain ⟨r, hr, hm, hn⟩ := hex
    exact ⟨r.address, ⟨r.mode, hr, hm⟩, hn⟩
  · intro hex
    obtain ⟨a, ⟨m, hr, hm⟩, hn⟩ := hex
    exact ⟨_, hr, hm, hn⟩

/-- A snapshot is only possible when someone can be asked. -/
theorem exists_asked_of_canDoSnapshot (h : Consistent c) {order : MapOrder}
    {answers : SnapshotAnswers} (hcan : c.canDoSnapshot order answers = some none) :
    ∃ a m, ⟨a, m⟩ ∈ c.replicas ∧ m ≠ .ERR := by
  by_contra hno
  have hnil : Replicator.asked (entries order c.backend.backends) = [] := by
    refine List.eq_nil_iff_forall_not_mem.mpr (fun e he => hno ?_)
    exact ⟨e.1, (h.mem_asked order).mp (List.mem_map_of_mem he)⟩
  rw [canDoSnapshot, collect_eq (h.entries_live order), hnil] at hcan
  simp at hcan

/-- **The backends' part**: it succeeds if some replica expands, and demotes for handled errors. -/
theorem expandBackend_spec (h : Consistent c) {order : MapOrder}
    (hcan : c.canDoSnapshot order answers.snapshots = some none) :
    ∃ c' marked, c.expandBackend order answers = some (c', c.someExpands answers)
      ∧ Moded c c' (markErr marked) ∧ ∀ r ∈ c.replicas, r.mode ≠ .ERR →
        (r.address ∈ marked ↔ Demoted c (c.handledError answers) r.address) := by
  obtain ⟨a₀, m₀, hr₀, hm₀⟩ := exists_asked_of_canDoSnapshot h hcan
  have hmem : ∀ a, a ∈ (Replicator.asked (entries order c.backend.backends)).map Prod.fst
      ↔ ∃ m, ⟨a, m⟩ ∈ c.replicas ∧ m ≠ .ERR := fun a => h.mem_asked order
  have hnd : ((Replicator.asked (entries order c.backend.backends)).map Prod.fst).Nodup :=
    (List.filter_sublist.map _).nodup (nodup_entries order c.backend.backends)
  unfold expandBackend Replicator.expand
  rw [hcan, Replicator.expandAll_eq answers.expand (h.entries_live order), Option.map_some,
    ← List.length_map (f := Prod.fst)]
  generalize (Replicator.asked (entries order c.backend.backends)).map Prod.fst = asked at hmem hnd
  dsimp only
  have hsome : (gather (fun a => (answers.expand a).map ExpandErr.err) asked).keys.length
      < asked.length ↔ c.someExpands answers = true := by
    rw [keys_gather _ hnd, List.length_filter_lt_length_iff_exists, someExpands_iff]
    simp [hmem]
  have hhandled : ∀ a, c.handledError answers a = if a ∈ asked then (answers.expand a).bind
      (fun e => if c.someExpands answers || !e.rolledBack then some e.err else none) else none :=
    fun a => if_congr (any_asked.trans (hmem a).symm) rfl rfl
  -- no errors to be handled: no one is marked
  have hnone : ∀ errors : AList (fun _ : String => Err), ¬ errors.keys.length ≠ 0 →
      (∀ a, errors.lookup a = c.handledError answers a) → ∀ r ∈ c.replicas, r.mode ≠ .ERR →
      (r.address ∈ ([] : List String) ↔ Demoted c (c.handledError answers) r.address) := by
    intro errors hlen hlook r _ _
    refine ⟨fun hin => absurd hin List.not_mem_nil, fun hdem => ?_⟩
    obtain ⟨y, hy, -⟩ := hdem
    have hin := AList.mem_keys.mp ((mem_iff_lookup errors _).mpr ⟨y, (hlook _).trans hy⟩)
    exact absurd (List.length_pos_of_mem hin).ne' hlen
  have hhandle : ∀ errors : AList (fun _ : String => Err), errors.keys.length ≠ 0 →
      (∀ a, errors.lookup a = c.handledError answers a) →
      ∃ c' err marked, c.handleErrorNoLock order (some (.backend ⟨errors, ∅⟩)) = some (c', err)
        ∧ Moded c c' (markErr marked) ∧ ∀ r ∈ c.replicas, r.mode ≠ .ERR →
          (r.address ∈ marked ↔ Demoted c (c.handledError answers) r.address) := by
    intro errors hlen hlook
    obtain ⟨a, ha⟩ := List.exists_mem_of_length_pos (Nat.pos_of_ne_zero hlen)
    have hdem := handleErrorNoLock_demoted h order ⟨a, AList.mem_keys.mpr ha⟩
    rwa [funext hlook] at hdem
  cases hexp : c.someExpands answers with
  | true =>
    have hlook : ∀ a, (gather (fun a => (answers.expand a).map ExpandErr.err) asked).lookup a
        = c.handledError answers a := by
      intro a
      rw [lookup_gather, hhandled, hexp]
      simp [Option.map_eq_bind]
    by_cases h0 : (gather (fun a => (answers.expand a).map ExpandErr.err) asked).keys.length ≠ 0
    · obtain ⟨c', err, marked, he, hm, hmark⟩ := hhandle _ h0 hlook
      rw [if_pos h0, if_pos (hsome.mpr hexp)]
      refine ⟨c', marked, ?_, hm, hmark⟩
      simp only [Option.map_some]
      rw [he]
      rfl
    · rw [if_neg h0]
      exact ⟨c, [], rfl, Moded.refl h, hnone _ h0 hlook⟩
  | false =>
    have hlt := mt hsome.mp (by simp [hexp])
    have h0 : (gather (fun a => (answers.expand a).map ExpandErr.err) asked).keys.length ≠ 0 := by
      have := List.length_pos_of_mem ((hmem a₀).mpr ⟨m₀, hr₀, hm₀⟩)
      omega
    rw [if_pos h0, if_neg hlt]
    have hlook : ∀ a, (gather (fun a => (answers.expand a).bind
        (fun e => if !e.rolledBack then some e.err else none)) asked).lookup a
          = c.handledError answers a := by
      intro a
      rw [lookup_gather, hhandled, hexp]
      simp
    by_cases hos : (gather (fun a => (answers.expand a).bind
        (fun e => if !e.rolledBack then some e.err else none)) asked).keys.length ≠ 0
    · obtain ⟨c', err, marked, he, hm, hmark⟩ := hhandle _ hos hlook
      rw [if_pos hos]
      refine ⟨c', marked, ?_, hm, hmark⟩
      simp only [Option.map_some]
      rw [he]
      rfl
    · rw [if_neg hos]
      exact ⟨c, [], rfl, Moded.refl h, hnone _ hos hlook⟩

end Controller

end WeftBlock
