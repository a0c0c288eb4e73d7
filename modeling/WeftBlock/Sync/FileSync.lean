import WeftBlock.Lib.Maps
import WeftBlock.Lib.Runs

/-!
# Syncing files from several replicas at once

`fileSyncRemote` of `pkg/sync/rpc/server.go`. One worker for each source takes files from a map that
all of them share, has each file sent and puts it back if that fails. A worker looks at the map in
its own rounds; it stops when it finds the map empty, when it finds a file that has failed too often,
or when the server is shut down.

What carries the proofs is an account of each file: it is in the map, or in the hands of one worker,
or has been transferred, and never more than one of these. Its attempts are its failures, plus the
one that is going on, plus the one that succeeded.
-/

namespace WeftBlock.Sync

open Maps

/-- `types.SyncRetryCount`. -/
def syncRetryCount : Nat := 3

/-- `SyncFileInfo`. -/
structure SyncFileInfo where
  fromFileName : String
  toFileName : String

/-- `FilesSyncRequest`; of the map of the sources only the addresses are used. -/
structure FilesSyncRequest where
  fromAddress : String
  fromAddressMap : List String
  toHost : String
  syncFileInfoList : List SyncFileInfo

inductive SyncErr
  /-- "no files or remote replicas for sync" -/
  | nothingToSync
  /-- "cannot connect to any remote replica for file sync" -/
  | cannotConnect
  /-- The errors of files that have failed too often; the later ones are secondary. -/
  | aggregated (errors : List String)
  /-- "some files failed to sync" -/
  | unsynced (fileNames : List String)
deriving DecidableEq

/-- The addresses, with the single one of old engines. -/
def FilesSyncRequest.sources (req : FilesSyncRequest) : List String :=
  if req.fromAddressMap = [] ∧ req.fromAddress ≠ "" then [req.fromAddress] else req.fromAddressMap

def FilesSyncRequest.fileList (req : FilesSyncRequest) : List String :=
  req.syncFileInfoList.map SyncFileInfo.toFileName

/-- The sources a client can be made for, as many as there are files. -/
def FilesSyncRequest.connect (req : FilesSyncRequest) (order : MapOrder) (reachable : String → Bool) :
    Except SyncErr (List String) :=
  let concurrentCount := min req.sources.length req.syncFileInfoList.length
  if concurrentCount < 1 then .error .nothingToSync
  else
    let connected := ((order.enum req.sources).filter reachable).take concurrentCount
    if connected = [] then .error .cannotConnect else .ok connected

/-! ## The workers -/

/-- Where a worker is. -/
inductive Phase
  /-- For the ticker. -/
  | waiting
  /-- `launchReceiver`. -/
  | launching (info : SyncFileInfo)
  /-- `SendFile`. -/
  | sending (info : SyncFileInfo) (port : Int)
  /-- The deferred function. -/
  | failed (info : SyncFileInfo) (err : String)
  | exited

def Phase.isExited : Phase → Bool
  | .exited => true
  | _ => false

structure Worker where
  fromAddress : String
  phase : Phase

/-- What the workers share. -/
structure Table where
  unsyncedFileMap : AList (fun _ : String => SyncFileInfo)
  unsyncedFileRetryMap : String → Nat
  /-- The files `fileRetryBackoff` knows. -/
  fileRetryBackoff : String → Bool
  aggregatedError : List String
  /-- `s.ctx.Done()`. -/
  cancelled : Bool
  /-- History: how often the file has been taken. -/
  attempts : String → Nat
  /-- History: how often it has been transferred. -/
  successes : String → Nat

/-- What a worker does, and what it is answered. -/
inductive Move
  /-- A round, with the order of the map and the files whose time has not come yet. -/
  | tick (order : MapOrder) (early : String → Bool)
  | stop
  | launch (r : Except String Int)
  | send (err : Option String)
  | requeue

/-- One more. -/
def bump (f : String → Nat) (fileName : String) : String → Nat :=
  Function.update f fileName (f fileName + 1)

/-- Some file has failed too often. -/
def Table.GivenUp (t : Table) : Prop := ∃ f ∈ t.unsyncedFileMap.keys,
  syncRetryCount ≤ t.unsyncedFileRetryMap f

instance (t : Table) : Decidable t.GivenUp :=
  inferInstanceAs (Decidable (∃ f ∈ t.unsyncedFileMap.keys, _))

/-- The file is taken out of the map. -/
def Table.take (t : Table) (fileName : String) (info : SyncFileInfo) : Table :=
  { t with
    unsyncedFileMap := t.unsyncedFileMap.erase fileName
    attempts := bump t.attempts info.toFileName }

/-- A round of a worker. -/
def Worker.round (w : Worker) (t : Table) (order : MapOrder) (early : String → Bool) :
    Table × Worker :=
  if t.GivenUp then (t, { w with phase := .exited })
  else
    match (entries order t.unsyncedFileMap).find?
        (fun f => !(t.fileRetryBackoff f.1 && early f.1)) with
    | some (fileName, info) => (t.take fileName info, { w with phase := .launching info })
    | none => (t, if t.unsyncedFileMap.keys = [] then { w with phase := .exited } else w)

/-- The file goes back, and may have failed too often. -/
def Table.requeue (t : Table) (toHost : String) (info : SyncFileInfo) (err : String) : Table :=
  let t := { t with
    unsyncedFileMap := t.unsyncedFileMap.insert info.toFileName info
    unsyncedFileRetryMap := bump t.unsyncedFileRetryMap info.toFileName }
  if syncRetryCount ≤ t.unsyncedFileRetryMap info.toFileName then
    { t with aggregatedError := t.aggregatedError ++ ["Replica " ++ toHost ++ " file "
        ++ info.toFileName ++ " syncing has failed for " ++ toString syncRetryCount
        ++ " times, will error out: " ++ err] }
  else
    { t with fileRetryBackoff := Function.update t.fileRetryBackoff info.toFileName true }

/-- The next step of a worker. -/
def Worker.next (toHost : String) (t : Table) (w : Worker) (m : Move) : Option (Table × Worker) :=
  match w.phase, m with
  | .waiting, .tick order early => some (w.round t order early)
  | .waiting, .stop => if t.cancelled then some (t, { w with phase := .exited }) else none
  | .launching info, .launch (.ok port) => some (t, { w with phase := .sending info port })
  | .launching info, .launch (.error e) =>
    some (t, { w with phase := .failed info ("replica " ++ toHost
      ++ " failed to launch receiver for file " ++ info.toFileName ++ " from remote replica "
      ++ w.fromAddress ++ ": " ++ e) })
  | .sending info _, .send none =>
    some ({ t with successes := bump t.successes info.toFileName }, { w with phase := .waiting })
  | .sending info _, .send (some e) => some (t, { w with phase := .failed info e })
  -- the round ends with `false` whatever the deferred function has set
  | .failed info err, .requeue => some (t.requeue toHost info err, { w with phase := .waiting })
  | _, _ => none

/-- A call of `fileSyncRemote`. -/
structure Pool where
  /-- It has returned before there were any workers. -/
  refused : Option SyncErr
  table : Table
  workers : List Worker

/-- What happens. -/
inductive SyncEvent
  | cancel
  | step (i : Nat) (m : Move)

def Table.ofFiles (files : List SyncFileInfo) : Table :=
  ⟨files.foldl (fun m info => m.insert info.toFileName info) ∅, fun _ => 0, fun _ => false, [], false,
    fun _ => 0, fun _ => 0⟩

/-- The beginning of `fileSyncRemote`. -/
def fileSyncRemote (req : FilesSyncRequest) (order : MapOrder) (reachable : String → Bool) : Pool :=
  match req.connect order reachable with
  | .error e => ⟨some e, .ofFiles [], []⟩
  | .ok addresses => ⟨none, .ofFiles req.syncFileInfoList, addresses.map (⟨·, .waiting⟩)⟩

/-- One step of the call. -/
def Pool.step (toHost : String) (p : Pool) : SyncEvent → Option Pool
  | .cancel =>
    if p.table.cancelled then none else some { p with table := { p.table with cancelled := true } }
  | .step i m =>
    match p.workers[i]? with
    | none => none
    | some w => (w.next toHost p.table m).map
        (fun r => { p with table := r.1, workers := p.workers.set i r.2 })

/-- What the call returns once `wg.Wait` has. -/
def Pool.result (p : Pool) : Option (Except SyncErr Unit) :=
  match p.refused with
  | some e => some (.error e)
  | none =>
    if ∀ w ∈ p.workers, w.phase.isExited = true then
      if p.table.aggregatedError ≠ [] then some (.error (.aggregated p.table.aggregatedError))
      else if p.table.unsyncedFileMap.keys ≠ [] then
        some (.error (.unsynced p.table.unsyncedFileMap.keys))
      else some (.ok ())
    else none

/-! ## The account of a file -/

/-- The file a worker has in its hands. -/
def Phase.file : Phase → Option SyncFileInfo
  | .launching info | .sending info _ | .failed info _ => some info
  | .waiting | .exited => none

/-- Whether the file is in the map. -/
def Table.listed (t : Table) (f : String) : Nat := if (t.unsyncedFileMap.lookup f).isSome then 1 else 0

/-- Whether the worker has it in its hands. -/
def Worker.holds (w : Worker) (f : String) : Bool := w.phase.file.map SyncFileInfo.toFileName = some f

def Worker.held (w : Worker) (f : String) : Nat := if w.holds f then 1 else 0

/-- The worker is having the file transferred. -/
def Worker.Transfers (w : Worker) (f : String) : Prop :=
  ∃ info : SyncFileInfo, info.toFileName = f ∧
    (w.phase = .launching info ∨ ∃ port, w.phase = .sending info port)

variable {f : String}

theorem Worker.Transfers.holds {w : Worker} (h : w.Transfers f) : w.holds f = true := by
  obtain ⟨info, hf, hphase | ⟨port, hphase⟩⟩ := h
  · simp [Worker.holds, hphase, Phase.file, hf]
  · simp [Worker.holds, hphase, Phase.file, hf]

/-- What the map and the counters have to do with each other. -/
structure Table.Sound (t : Table) : Prop where
  keyed : ∀ f info, t.unsyncedFileMap.lookup f = some info → info.toFileName = f
  /-- A file that has failed too often stays in the map. -/
  spent : ∀ f, syncRetryCount ≤ t.unsyncedFileRetryMap f →
    t.listed f = 1 ∧ t.unsyncedFileRetryMap f = syncRetryCount
  error : t.aggregatedError ≠ [] → ∃ f, syncRetryCount ≤ t.unsyncedFileRetryMap f

/-- What one step of one worker does to the account of every file. -/
structure Balanced (t : Table) (w : Worker) (t' : Table) (w' : Worker) : Prop where
  sound : t'.Sound
  place : ∀ f, t'.listed f + w'.held f + t'.successes f = t.listed f + w.held f + t.successes f
  attempts : ∀ f, t'.attempts f + (t.unsyncedFileRetryMap f + w.held f + t.successes f) =
    t.attempts f + (t'.unsyncedFileRetryMap f + w'.held f + t'.successes f)
  /-- Only who has the file in its hands can fail with it. -/
  retries : ∀ f, w.held f = 0 → t'.unsyncedFileRetryMap f = t.unsyncedFileRetryMap f
  successes : ∀ f, t.successes f ≤ t'.successes f

theorem bump_eq (c : String → Nat) (f g : String) : bump c f g = c g + if g = f then 1 else 0 := by
  by_cases h : g = f
  · rw [if_pos h, h]
    exact Function.update_self ..
  · rw [if_neg h]
    exact Function.update_of_ne h ..

variable {info : SyncFileInfo} {t : Table} {i : Nat} {p : Pool} {fileList : List String}

theorem held_of_file {w : Worker} (h : w.phase.file = some info) (f : String) :
    w.held f = if f = info.toFileName then 1 else 0 := by
  simp [Worker.held, Worker.holds, h, eq_comm]

theorem held_of_none {w : Worker} (h : w.phase.file = none) (f : String) : w.held f = 0 := by
  simp [Worker.held, Worker.holds, h]

theorem Table.listed_eq_one :
    t.listed f = 1 ↔ ∃ info, t.unsyncedFileMap.lookup f = some info := by
  rw [Table.listed, ← Option.isSome_iff_exists]
  split <;> simp_all

theorem Table.keys_eq_nil_iff : t.unsyncedFileMap.keys = [] ↔ ∀ f, t.listed f = 0 := by
  have hmem : ∀ f, t.listed f = 1 ↔ f ∈ t.unsyncedFileMap.keys := fun f => by
    rw [Table.listed_eq_one, ← mem_iff_lookup, AList.mem_keys]
  rw [List.eq_nil_iff_forall_not_mem]
  refine forall_congr' (fun f => ?_)
  rw [← hmem, Table.listed]
  split <;> simp

theorem Table.not_givenUp (h : ¬ t.GivenUp) (hf : t.listed f = 1) :
    t.unsyncedFileRetryMap f < syncRetryCount := by
  obtain ⟨info, hinfo⟩ := Table.listed_eq_one.mp hf
  by_contra hge
  exact h ⟨f, AList.mem_keys.mpr ((mem_iff_lookup _ f).mpr ⟨info, hinfo⟩), not_lt.mp hge⟩

variable {w w' : Worker}

/-- A worker that holds nothing and does nothing. -/
theorem Balanced.idle (ht : t.Sound) (h : w.phase.file = w'.phase.file) :
    Balanced t w t w' := by
  have hheld : ∀ f, w'.held f = w.held f := fun f => by simp [Worker.held, Worker.holds, h]
  exact ⟨ht, fun f => by rw [hheld], fun f => by rw [hheld], fun _ _ => rfl, fun _ => le_rfl⟩

theorem listed_take (t : Table) (info : SyncFileInfo) (f : String) :
    (t.take info.toFileName info).listed f = if f = info.toFileName then 0 else t.listed f := by
  rw [Table.listed, Table.take, lookup_erase_eq]
  split
  · rfl
  · rfl

/-- A file that has not failed too often leaves the map. -/
theorem balanced_take (ht : t.Sound) (hw : w.phase.file = none) (hw' : w'.phase.file = some info)
    (hlisted : t.listed info.toFileName = 1)
    (hretry : t.unsyncedFileRetryMap info.toFileName < syncRetryCount) :
    Balanced t w (t.take info.toFileName info) w' := by
  refine ⟨⟨fun f i hi => ?_, fun f hf => ?_, ht.error⟩, fun f => ?_, fun f => ?_, fun _ _ => rfl,
    fun _ => le_rfl⟩
  · rw [Table.take, lookup_erase_eq] at hi
    split at hi
    · simp at hi
    · exact ht.keyed f i hi
  · have hne : f ≠ info.toFileName := by
      rintro rfl
      exact absurd hf (not_le.mpr hretry)
    rw [listed_take, if_neg hne]
    exact ht.spent f hf
  · rw [listed_take, held_of_none hw, held_of_file hw']
    by_cases hf : f = info.toFileName
    · rw [if_pos hf, if_pos hf, hf, hlisted]
      rfl
    · rw [if_neg hf, if_neg hf]
      rfl
  · rw [held_of_none hw, held_of_file hw']
    simp only [Table.take, bump_eq]
    omega

theorem balanced_round {w : Worker} (ht : t.Sound) (hw : w.phase = .waiting) (order : MapOrder)
    (early : String → Bool) :
    Balanced t w (w.round t order early).1 (w.round t order early).2 := by
  have hnone : w.phase.file = none := by rw [hw]; rfl
  by_cases hgiven : t.GivenUp
  · rw [Worker.round, if_pos hgiven]
    exact Balanced.idle ht hnone
  rw [Worker.round, if_neg hgiven]
  cases hfind : (entries order t.unsyncedFileMap).find?
      (fun f => !(t.fileRetryBackoff f.1 && early f.1)) with
  | none =>
    dsimp only
    split
    · exact Balanced.idle ht hnone
    · exact Balanced.idle ht rfl
  | some entry =>
    obtain ⟨fileName, info⟩ := entry
    have hlookup : t.unsyncedFileMap.lookup fileName = some info :=
      mem_entries.mp (List.mem_of_find?_eq_some hfind)
    obtain rfl := ht.keyed _ _ hlookup
    have hlisted : t.listed info.toFileName = 1 := Table.listed_eq_one.mpr ⟨info, hlookup⟩
    exact balanced_take ht hnone rfl hlisted (Table.not_givenUp hgiven hlisted)

section Requeue

variable (t : Table) (toHost : String) (info : SyncFileInfo) (err : String)

/-- Whether or not it was for the last time. -/
theorem requeue_fields :
    (t.requeue toHost info err).unsyncedFileMap = t.unsyncedFileMap.insert info.toFileName info ∧
    (t.requeue toHost info err).unsyncedFileRetryMap = bump t.unsyncedFileRetryMap info.toFileName ∧
    (t.requeue toHost info err).attempts = t.attempts ∧
    (t.requeue toHost info err).successes = t.successes := by
  rw [Table.requeue]
  split
  · exact ⟨rfl, rfl, rfl, rfl⟩
  · exact ⟨rfl, rfl, rfl, rfl⟩

theorem requeue_aggregatedError :
    (t.requeue toHost info err).aggregatedError = t.aggregatedError ∨
      syncRetryCount ≤ bump t.unsyncedFileRetryMap info.toFileName info.toFileName := by
  rw [Table.requeue]
  split
  next h => exact Or.inr h
  next => exact Or.inl rfl

theorem listed_requeue (f : String) :
    (t.requeue toHost info err).listed f = if f = info.toFileName then 1 else t.listed f := by
  rw [Table.listed, (requeue_fields t toHost info err).1, lookup_insert_eq]
  split
  · rfl
  · rfl

end Requeue

section

variable {t : Table} {info : SyncFileInfo} (ht : t.Sound) (hw : w.phase.file = some info)
  (hw' : w'.phase.file = none)
include ht hw hw'

/-- A file that is in somebody's hands has not failed too often, and goes back. -/
theorem balanced_requeue (hlisted : t.listed info.toFileName = 0) (toHost err : String) :
    Balanced t w (t.requeue toHost info err) w' := by
  obtain ⟨hmap, hretry, hattempts, hsuccesses⟩ := requeue_fields t toHost info err
  have hlt : t.unsyncedFileRetryMap info.toFileName < syncRetryCount := by
    by_contra hge
    have hspent := (ht.spent _ (not_lt.mp hge)).1
    omega
  refine ⟨⟨fun f i hi => ?_, fun f hf => ?_, fun herr => ?_⟩, fun f => ?_, fun f => ?_,
    fun f hf => ?_, fun f => by rw [hsuccesses]⟩
  · rw [hmap, lookup_insert_eq] at hi
    split at hi
    next hf => rw [hf, ← Option.some.inj hi]
    next => exact ht.keyed f i hi
  · rw [hretry, bump_eq] at hf ⊢
    rw [listed_requeue]
    by_cases hname : f = info.toFileName
    · subst hname
      rw [if_pos rfl] at hf
      rw [if_pos rfl, if_pos rfl]
      exact ⟨rfl, by omega⟩
    · rw [if_neg hname] at hf
      rw [if_neg hname, if_neg hname]
      exact ht.spent f hf
  · rw [hretry]
    rcases requeue_aggregatedError t toHost info err with hsame | hlast
    · rw [hsame] at herr
      obtain ⟨f, hf⟩ := ht.error herr
      refine ⟨f, hf.trans ?_⟩
      rw [bump_eq]
      exact Nat.le_add_right _ _
    · exact ⟨info.toFileName, hlast⟩
  · rw [listed_requeue, hsuccesses, held_of_none hw', held_of_file hw]
    by_cases hname : f = info.toFileName
    · rw [if_pos hname, if_pos hname, hname, hlisted]
    · rw [if_neg hname, if_neg hname]
  · rw [hretry, hattempts, hsuccesses, held_of_none hw', held_of_file hw, bump_eq]
    omega
  · rw [held_of_file hw] at hf
    rw [hretry, bump_eq, hf, Nat.add_zero]

/-- A file that has been transferred leaves the hands of the worker for good. -/
theorem balanced_success :
    Balanced t w { t with successes := bump t.successes info.toFileName } w' := by
  refine ⟨⟨ht.keyed, ht.spent, ht.error⟩, fun f => ?_, fun f => ?_, fun _ _ => rfl, fun f => ?_⟩
  · rw [held_of_none hw', held_of_file hw]
    change t.listed f + 0 + bump t.successes info.toFileName f = _
    rw [bump_eq]
    omega
  · rw [held_of_none hw', held_of_file hw]
    simp only [bump_eq]
    omega
  · change t.successes f ≤ bump t.successes info.toFileName f
    rw [bump_eq]
    exact Nat.le_add_right _ _

end

variable {toHost : String} {m : Move}

/-- **Every step of a worker keeps the account of every file.** -/
theorem balanced_next {t t' : Table} (ht : t.Sound)
    (hone : ∀ f, t.listed f + w.held f ≤ 1) (hn : w.next toHost t m = some (t', w')) :
    Balanced t w t' w' := by
  unfold Worker.next at hn
  split at hn
  next order early hw =>
    obtain ⟨rfl, rfl⟩ := Prod.mk.inj (Option.some.inj hn)
    exact balanced_round ht hw order early
  next hw =>
    split at hn
    · obtain ⟨rfl, rfl⟩ := Prod.mk.inj (Option.some.inj hn)
      exact Balanced.idle ht (by rw [hw]; rfl)
    · simp at hn
  next hw =>
    obtain ⟨rfl, rfl⟩ := Prod.mk.inj (Option.some.inj hn)
    exact Balanced.idle ht (by rw [hw]; rfl)
  next hw =>
    obtain ⟨rfl, rfl⟩ := Prod.mk.inj (Option.some.inj hn)
    exact Balanced.idle ht (by rw [hw]; rfl)
  next hw =>
    obtain ⟨rfl, rfl⟩ := Prod.mk.inj (Option.some.inj hn)
    exact balanced_success ht (by rw [hw]; rfl) rfl
  next hw =>
    obtain ⟨rfl, rfl⟩ := Prod.mk.inj (Option.some.inj hn)
    exact Balanced.idle ht (by rw [hw]; rfl)
  next info err hw =>
    obtain ⟨rfl, rfl⟩ := Prod.mk.inj (Option.some.inj hn)
    have hfile : w.phase.file = some info := by rw [hw]; rfl
    have h := hone info.toFileName
    rw [held_of_file hfile, if_pos rfl] at h
    exact balanced_requeue ht hfile rfl (by omega) toHost err
  next => exact absurd hn (by simp)

/-! ## The call -/

/-- How many workers have the file in their hands. -/
def holders (workers : List Worker) (f : String) : Nat := workers.countP (·.holds f)

variable {workers : List Worker}

theorem holders_set {w : Worker} (hi : workers[i]? = some w) (w' : Worker) (f : String) :
    holders (workers.set i w') f + w.held f = holders workers f + w'.held f := by
  obtain ⟨hlt, rfl⟩ := List.getElem?_eq_some_iff.mp hi
  have hpos : workers[i].holds f = true → 0 < holders workers f := fun h =>
    List.countP_pos_iff.mpr ⟨workers[i], List.getElem_mem hlt, h⟩
  rw [holders, List.countP_set hlt]
  change holders workers f - workers[i].held f + w'.held f + workers[i].held f = _
  have hle : workers[i].held f ≤ holders workers f := by
    rw [Worker.held]
    split
    next h => exact hpos h
    next => exact Nat.zero_le _
  omega

theorem holders_eq_zero (h : ∀ w ∈ workers, w.phase.file = none)
    (f : String) : holders workers f = 0 :=
  List.countP_eq_zero.mpr (fun w hw => by simp [Worker.holds, h w hw])

/-- The account of every file. -/
structure Accounted (fileList : List String) (p : Pool) : Prop where
  sound : p.table.Sound
  place : ∀ f, p.table.listed f + holders p.workers f + p.table.successes f =
    if f ∈ fileList then 1 else 0
  attempts : ∀ f, p.table.attempts f =
    p.table.unsyncedFileRetryMap f + holders p.workers f + p.table.successes f

theorem Pool.step_step {p p' : Pool} (h : p.step toHost (.step i m) = some p') :
    ∃ w t' w', p.workers[i]? = some w ∧ w.next toHost p.table m = some (t', w') ∧
      p' = { p with table := t', workers := p.workers.set i w' } := by
  cases hw : p.workers[i]? with
  | none =>
    rw [Pool.step, hw] at h
    simp at h
  | some w =>
    rw [Pool.step, hw] at h
    obtain ⟨r, hr, rfl⟩ := Option.map_eq_some_iff.mp h
    exact ⟨w, r.1, r.2, rfl, hr, rfl⟩

theorem Pool.step_cancel {p p' : Pool} (h : p.step toHost .cancel = some p') :
    p.table.cancelled = false ∧ p' = { p with table := { p.table with cancelled := true } } := by
  rw [Pool.step] at h
  split at h
  · simp at h
  next hc => exact ⟨Bool.eq_false_iff.mpr hc, (Option.some.inj h).symm⟩

theorem held_le_holders {w : Worker} (hi : workers[i]? = some w) (f : String) :
    w.held f ≤ holders workers f := by
  have hfree : Worker.held ⟨w.fromAddress, .waiting⟩ f = 0 := held_of_none rfl f
  have h := holders_set hi ⟨w.fromAddress, .waiting⟩ f
  omega

/-- What a step of a worker does to the account. -/
theorem Accounted.balanced {t' : Table} (h : Accounted fileList p) (hw : p.workers[i]? = some w)
    (hn : w.next toHost p.table m = some (t', w')) : Balanced p.table w t' w' := by
  refine balanced_next h.sound (fun f => ?_) hn
  have h1 := h.place f
  have h2 := held_le_holders hw f
  split at h1 <;> omega

variable {e : SyncEvent}

theorem Accounted.step {fileList : List String} {p p' : Pool}
    (h : Accounted fileList p) (hs : p.step toHost e = some p') : Accounted fileList p' := by
  cases e with
  | cancel =>
    obtain ⟨-, rfl⟩ := Pool.step_cancel hs
    exact ⟨⟨h.sound.keyed, h.sound.spent, h.sound.error⟩, h.place, h.attempts⟩
  | step i m =>
    obtain ⟨w, t', w', hw, hn, rfl⟩ := Pool.step_step hs
    have hb := h.balanced hw hn
    refine ⟨hb.sound, fun f => ?_, fun f => ?_⟩
    · have h1 := hb.place f
      have h2 := holders_set hw w' f
      rw [← h.place f]
      change t'.listed f + holders (p.workers.set i w') f + t'.successes f = _
      omega
    · have h1 := hb.attempts f
      have h2 := holders_set hw w' f
      have h3 := h.attempts f
      change t'.attempts f =
        t'.unsyncedFileRetryMap f + holders (p.workers.set i w') f + t'.successes f
      omega

/-- The files of the request are in the map under their names. -/
theorem lookup_foldl_insert (files : List SyncFileInfo) (m : AList (fun _ : String => SyncFileInfo))
    (f : String) :
    ((files.foldl (fun m info => m.insert info.toFileName info) m).lookup f).isSome =
      (decide (f ∈ files.map SyncFileInfo.toFileName) || (m.lookup f).isSome) := by
  induction files generalizing m with
  | nil => simp
  | cons info files ih =>
    rw [List.foldl_cons, ih, lookup_insert_eq]
    by_cases hf : f = info.toFileName
    · simp [hf]
    · simp [hf]

theorem keyed_foldl_insert {files : List SyncFileInfo} {m : AList (fun _ : String => SyncFileInfo)}
    (hm : ∀ f info, m.lookup f = some info → info.toFileName = f) (f : String) (info : SyncFileInfo)
    (h : (files.foldl (fun m info => m.insert info.toFileName info) m).lookup f = some info) :
    info.toFileName = f := by
  induction files generalizing m with
  | nil => exact hm f info h
  | cons first files ih =>
    refine ih (fun g i hi => ?_) h
    rw [lookup_insert_eq] at hi
    split at hi
    next hg => rw [hg, ← Option.some.inj hi]
    next => exact hm g i hi

theorem accounted_ofFiles (refused : Option SyncErr) (files : List SyncFileInfo)
    (addresses : List String) : Accounted (files.map SyncFileInfo.toFileName)
      ⟨refused, .ofFiles files, addresses.map (⟨·, .waiting⟩)⟩ := by
  have hidle : ∀ f, holders (addresses.map (fun a => ⟨a, .waiting⟩)) f = 0 := by
    refine holders_eq_zero (fun w hw => ?_)
    obtain ⟨a, -, rfl⟩ := List.mem_map.mp hw
    rfl
  refine ⟨⟨fun f info h => keyed_foldl_insert (fun _ _ hi => absurd hi (by simp)) f info h,
    fun f hf => absurd hf (by simp [Table.ofFiles, syncRetryCount]), fun h => absurd rfl h⟩,
    fun f => ?_, fun f => ?_⟩
  · change Table.listed _ f + holders _ f + 0 = _
    rw [hidle, Table.listed, Table.ofFiles, lookup_foldl_insert]
    simp
  · change 0 = 0 + holders _ f + 0
    rw [hidle]

/-- The files that are accounted for: none, if there are no workers. -/
def FilesSyncRequest.accepted (req : FilesSyncRequest) (order : MapOrder)
    (reachable : String → Bool) : List String :=
  match req.connect order reachable with
  | .error _ => []
  | .ok _ => req.fileList

theorem accounted_start (req : FilesSyncRequest) (order : MapOrder) (reachable : String → Bool) :
    Accounted (req.accepted order reachable) (fileSyncRemote req order reachable) := by
  rw [FilesSyncRequest.accepted, fileSyncRemote]
  cases req.connect order reachable with
  | error e => exact accounted_ofFiles (some e) [] []
  | ok addresses => exact accounted_ofFiles none req.syncFileInfoList addresses

section Account

variable {fileList : List String} {p : Pool} (h : Accounted fileList p)
include h

/-- No two workers have the same file in their hands. -/
theorem Accounted.apart {i j : Nat} {v w : Worker} (hi : p.workers[i]? = some v)
    (hj : p.workers[j]? = some w) (hv : v.holds f = true) (hw : w.holds f = true) : i = j := by
  by_contra hij
  -- without the first one the second one is still there
  have hfree : Worker.held ⟨v.fromAddress, .waiting⟩ f = 0 := held_of_none rfl f
  have hset := holders_set hi ⟨v.fromAddress, .waiting⟩ f
  have hj' : (p.workers.set i ⟨v.fromAddress, .waiting⟩)[j]? = some w := by
    rw [List.getElem?_set_ne hij]
    exact hj
  have hle := held_le_holders hj' f
  have h1 : v.held f = 1 := if_pos hv
  have h2 : w.held f = 1 := if_pos hw
  have hplace := h.place f
  split at hplace <;> omega

theorem Accounted.attempts_le (f : String) : p.table.attempts f ≤ syncRetryCount := by
  have hattempts := h.attempts f
  have hplace := h.place f
  by_cases hspent : syncRetryCount ≤ p.table.unsyncedFileRetryMap f
  · obtain ⟨hlisted, heq⟩ := h.sound.spent f hspent
    split at hplace <;> omega
  · split at hplace <;> omega

/-- A file that has been transferred is nowhere else. -/
theorem Accounted.transferred (hf : 0 < p.table.successes f) :
    p.table.listed f = 0 ∧ holders p.workers f = 0 := by
  have hplace := h.place f
  split at hplace <;> omega

theorem Accounted.of_listed (hf : p.table.listed f = 1) :
    f ∈ fileList ∧ p.table.successes f = 0 := by
  have hplace := h.place f
  split at hplace
  next hmem => exact ⟨hmem, by omega⟩
  next => omega

/-- Once the workers are gone, the map tells what is missing. -/
theorem Accounted.result_iff (hrefused : p.refused = none) {r : Except SyncErr Unit}
    (hr : p.result = some r) : r = .ok () ↔ ∀ f ∈ fileList, 0 < p.table.successes f := by
  rw [Pool.result, hrefused] at hr
  dsimp only at hr
  split at hr
  swap
  · simp at hr
  next hexited =>
  split at hr
  next herror =>
    obtain rfl := Option.some.inj hr
    obtain ⟨f, hf⟩ := h.sound.error herror
    obtain ⟨hmem, hzero⟩ := h.of_listed (h.sound.spent f hf).1
    exact iff_of_false (by simp) (fun hall => absurd (hall f hmem) (by omega))
  next =>
    split at hr
    next hkeys =>
      obtain rfl := Option.some.inj hr
      obtain ⟨f, hf⟩ := List.exists_mem_of_ne_nil _ hkeys
      have hlisted := Table.listed_eq_one.mpr ((mem_iff_lookup _ f).mp (AList.mem_keys.mp hf))
      obtain ⟨hmem, hzero⟩ := h.of_listed hlisted
      exact iff_of_false (by simp) (fun hall => absurd (hall f hmem) (by omega))
    next hkeys =>
      obtain rfl := Option.some.inj hr
      refine iff_of_true rfl (fun f hf => ?_)
      have hlisted : p.table.listed f = 0 := Table.keys_eq_nil_iff.mp (not_not.mp hkeys) f
      have hholders : holders p.workers f = 0 := by
        refine holders_eq_zero (fun w hw => ?_) f
        have hphase := hexited w hw
        cases hp : w.phase <;> simp_all [Phase.file, Phase.isExited]
      have hplace := h.place f
      rw [if_pos hf] at hplace
      omega

end Account

/-- What `fileSyncRemote` owes to whoever called it. -/
structure Lossless (req : FilesSyncRequest) (p : Pool) : Prop where
  /-- Nil for the whole list only. -/
  result : ∀ r, p.result = some r →
    (r = .ok () ↔ ∀ info ∈ req.syncFileInfoList, 0 < p.table.successes info.toFileName)
  apart : ∀ (i j : Nat) (v w : Worker) (f : String), p.workers[i]? = some v →
    p.workers[j]? = some w → v.Transfers f → w.Transfers f → i = j
  attempts : ∀ f, p.table.attempts f ≤ syncRetryCount

/-! ## After the last transfer -/

/-- Nothing is left to do but to stop. -/
structure Drained (p : Pool) : Prop where
  refused : p.refused = none
  keys : p.table.unsyncedFileMap.keys = []
  error : p.table.aggregatedError = []
  idle : ∀ w ∈ p.workers, w.phase.file = none

/-- The workers that have not stopped, and the shutdown that may still come. -/
def Pool.weight (p : Pool) : Nat :=
  p.workers.countP (fun w => !w.phase.isExited) + if p.table.cancelled then 0 else 1

theorem round_of_nil (hkeys : t.unsyncedFileMap.keys = []) (w : Worker) (order : MapOrder)
    (early : String → Bool) : w.round t order early = (t, { w with phase := .exited }) := by
  have hgiven : ¬ t.GivenUp := by
    rintro ⟨f, hf, -⟩
    rw [hkeys] at hf
    exact absurd hf List.not_mem_nil
  have hentries : entries order t.unsyncedFileMap = [] := by
    rw [← List.map_eq_nil_iff, map_fst_entries, hkeys]
    exact List.perm_nil.mp (order.perm [])
  rw [Worker.round, if_neg hgiven, hentries, List.find?_nil, if_pos hkeys]

theorem next_of_nil {t t' : Table} (hkeys : t.unsyncedFileMap.keys = []) (hw : w.phase.file = none)
    (hn : w.next toHost t m = some (t', w')) :
    t' = t ∧ w.phase = .waiting ∧ w'.phase = .exited := by
  unfold Worker.next at hn
  split at hn
  next order early hphase =>
    rw [round_of_nil hkeys] at hn
    obtain ⟨rfl, rfl⟩ := Prod.mk.inj (Option.some.inj hn)
    exact ⟨rfl, hphase, rfl⟩
  next hphase =>
    split at hn
    · obtain ⟨rfl, rfl⟩ := Prod.mk.inj (Option.some.inj hn)
      exact ⟨rfl, hphase, rfl⟩
    · simp at hn
  all_goals simp_all [Phase.file]

theorem Drained.step {p p' : Pool} (h : Drained p)
    (hs : p.step toHost e = some p') : Drained p' ∧ p'.weight < p.weight := by
  cases e with
  | cancel =>
    obtain ⟨hc, rfl⟩ := Pool.step_cancel hs
    exact ⟨⟨h.refused, h.keys, h.error, h.idle⟩, by simp [Pool.weight, hc]⟩
  | step i m =>
    obtain ⟨w, t', w', hw, hn, rfl⟩ := Pool.step_step hs
    obtain ⟨hlt, hget⟩ := List.getElem?_eq_some_iff.mp hw
    have hmem : w ∈ p.workers := List.mem_of_getElem? hw
    obtain ⟨rfl, hwaiting, hexited⟩ := next_of_nil h.keys (h.idle w hmem) hn
    refine ⟨⟨h.refused, h.keys, h.error, fun v hv => ?_⟩, ?_⟩
    · rcases List.mem_or_eq_of_mem_set hv with hv | rfl
      · exact h.idle v hv
      · rw [hexited]
        rfl
    · have hpos : 0 < p.workers.countP (fun w => !w.phase.isExited) :=
        List.countP_pos_iff.mpr ⟨w, hmem, by simp [hwaiting, Phase.isExited]⟩
      have hset : (p.workers.set i w').countP (fun w => !w.phase.isExited) =
          p.workers.countP (fun w => !w.phase.isExited) - 1 := by
        rw [List.countP_set hlt, hget, hwaiting, hexited]
        rfl
      simp only [Pool.weight, hset]
      omega

theorem Drained.done (h : Drained p) :
    p.result = some (.ok ()) ∨ ∃ e, (p.step toHost e).isSome := by
  by_cases hall : ∀ w ∈ p.workers, w.phase.isExited = true
  · left
    rw [Pool.result, h.refused]
    rw [if_pos hall, if_neg (not_not.mpr h.error), if_neg (not_not.mpr h.keys)]
  · right
    push Not at hall
    obtain ⟨w, hw, hphase⟩ := hall
    obtain ⟨i, hi⟩ := List.getElem?_of_mem hw
    have hwaiting : w.phase = .waiting := by
      have hidle := h.idle w hw
      cases hp : w.phase <;> simp_all [Phase.file, Phase.isExited]
    refine ⟨.step i (.tick .listed (fun _ => false)), ?_⟩
    rw [Pool.step, hi]
    simp [Worker.next, hwaiting]

theorem Drained.finishes (h : Drained p) (toHost : String) :
    Runs.Finishes (Pool.step toHost) (fun p => p.result = some (.ok ())) p :=
  Runs.finishes_of_weight (fun _ _ _ h hs => h.step hs) (fun _ h => h.done) h

theorem Accounted.drained (h : Accounted fileList p) (hrefused : p.refused = none)
    (hall : ∀ f ∈ fileList, 0 < p.table.successes f) : Drained p := by
  have hzero : ∀ f, p.table.listed f = 0 ∧ holders p.workers f = 0 := by
    intro f
    have hplace := h.place f
    split at hplace
    next hf => exact h.transferred (hall f hf)
    next => omega
  have hkeys := Table.keys_eq_nil_iff.mpr (fun f => (hzero f).1)
  refine ⟨hrefused, hkeys, ?_, fun w hw => ?_⟩
  · by_contra herror
    obtain ⟨f, hf⟩ := h.sound.error herror
    have h1 := (h.sound.spent f hf).1
    have h2 := (hzero f).1
    omega
  · cases hfile : w.phase.file with
    | none => rfl
    | some info =>
      have hholds : w.holds info.toFileName = true := by simp [Worker.holds, hfile]
      have hpos : 0 < holders p.workers info.toFileName :=
        List.countP_pos_iff.mpr ⟨w, hw, hholds⟩
      have h2 := (hzero info.toFileName).2
      omega

/-- A file that has been transferred is not taken again. -/
theorem Accounted.step_attempts {p p' : Pool} (h : Accounted fileList p)
    (hs : p.step toHost e = some p') (hf : 0 < p.table.successes f) :
    p'.table.successes f = p.table.successes f ∧ p'.table.attempts f = p.table.attempts f := by
  cases e with
  | cancel =>
    obtain ⟨-, rfl⟩ := Pool.step_cancel hs
    exact ⟨rfl, rfl⟩
  | step i m =>
    obtain ⟨w, t', w', hw, hn, rfl⟩ := Pool.step_step hs
    have hb := h.balanced hw hn
    obtain ⟨hlisted, hholders⟩ := h.transferred hf
    have hheld := held_le_holders hw f
    have hretries := hb.retries f (by omega)
    have hplace := hb.place f
    have hattempts := hb.attempts f
    have hsuccesses := hb.successes f
    change t'.successes f = _ ∧ t'.attempts f = _
    omega

/-- What every state of a call has. -/
structure Tracked (req : FilesSyncRequest) (order : MapOrder) (reachable : String → Bool) (p : Pool) :
    Prop where
  accounted : Accounted (req.accepted order reachable) p
  refused : p.refused = (fileSyncRemote req order reachable).refused

section Tracked

variable {req : FilesSyncRequest} {order : MapOrder} {reachable : String → Bool} {p p' : Pool}

theorem Tracked.step (h : Tracked req order reachable p)
    (hs : p.step toHost e = some p') : Tracked req order reachable p' := by
  refine ⟨h.accounted.step hs, ?_⟩
  cases e with
  | cancel =>
    obtain ⟨-, rfl⟩ := Pool.step_cancel hs
    exact h.refused
  | step i m =>
    obtain ⟨w, t', w', -, -, rfl⟩ := Pool.step_step hs
    exact h.refused

variable {events : List SyncEvent}

theorem tracked_run
    (hrun : Runs.run (Pool.step req.toHost) (fileSyncRemote req order reachable) events = some p) :
    Tracked req order reachable p :=
  Runs.run_invariant (fun _ _ _ h hs => h.step hs) ⟨accounted_start req order reachable, rfl⟩ hrun

/-- A call that has workers accounts for all the files, and one that has none for no file. -/
theorem Tracked.accepted (h : Tracked req order reachable p) :
    (p.refused = none ∧ req.accepted order reachable = req.fileList) ∨
      ((∃ e, p.refused = some e) ∧ req.accepted order reachable = []) := by
  rw [h.refused, fileSyncRemote, FilesSyncRequest.accepted]
  cases req.connect order reachable with
  | ok addresses => exact Or.inl ⟨rfl, rfl⟩
  | error e => exact Or.inr ⟨⟨e, rfl⟩, rfl⟩

/-- Files that have all been transferred belong to a call that has workers. -/
theorem Tracked.refused_of_all (h : Tracked req order reachable p) (hne : req.syncFileInfoList ≠ [])
    (hall : ∀ info ∈ req.syncFileInfoList, 0 < p.table.successes info.toFileName) :
    p.refused = none ∧ req.accepted order reachable = req.fileList := by
  rcases h.accepted with hyes | ⟨-, hnil⟩
  · exact hyes
  · obtain ⟨info, hinfo⟩ := List.exists_mem_of_ne_nil _ hne
    have hplace := h.accounted.place info.toFileName
    rw [hnil, if_neg List.not_mem_nil] at hplace
    exact absurd (hall info hinfo) (by omega)

theorem forall_fileList {P : String → Prop} :
    (∀ f ∈ req.fileList, P f) ↔ ∀ info ∈ req.syncFileInfoList, P info.toFileName :=
  List.forall_mem_map

theorem Tracked.lossless (h : Tracked req order reachable p) (hne : req.syncFileInfoList ≠ []) :
    Lossless req p := by
  refine ⟨fun r hr => ?_, fun i j v w f hi hj hv hw => ?_, h.accounted.attempts_le⟩
  · rcases h.accepted with ⟨hnone, hlist⟩ | ⟨⟨e, he⟩, -⟩
    · rw [h.accounted.result_iff hnone hr, hlist, forall_fileList]
    · -- it was refused: nothing has been transferred
      rw [Pool.result, he] at hr
      obtain rfl := Option.some.inj hr
      refine iff_of_false (by simp) (fun hall => ?_)
      exact absurd (he.symm.trans (h.refused_of_all hne hall).1) (by simp)
  · exact h.accounted.apart hi hj hv.holds hw.holds

/-- From one state of a call to a later one. -/
theorem Tracked.run_attempts (h : Tracked req order reachable p)
    (hrun : Runs.run (Pool.step toHost) p events = some p') (hf : 0 < p.table.successes f) :
    Tracked req order reachable p' ∧ 0 < p'.table.successes f ∧
      p'.table.attempts f = p.table.attempts f := by
  have hkeep : ∀ q e q', (Tracked req order reachable q ∧ 0 < q.table.successes f ∧
      q.table.attempts f = p.table.attempts f) → q.step toHost e = some q' →
      Tracked req order reachable q' ∧ 0 < q'.table.successes f ∧
        q'.table.attempts f = p.table.attempts f := by
    rintro q e q' ⟨hq, hpos, hsame⟩ hs
    obtain ⟨hsucc, hatt⟩ := hq.accounted.step_attempts hs hpos
    exact ⟨hq.step hs, hsucc.symm ▸ hpos, hatt.trans hsame⟩
  exact Runs.run_invariant hkeep ⟨h, hf, rfl⟩ hrun

end Tracked

/--
**Files that are synced in parallel are not lost.** The call returns nil exactly when every file of
the list has been transferred; no file is transferred by two workers at once or attempted too often;
a file that has been transferred is left alone from then on; and when all of them have been, nil is
what the call comes to.
-/
theorem fileSyncRemote_lossless (req : FilesSyncRequest) (hne : req.syncFileInfoList ≠ [])
    (order : MapOrder) (reachable : String → Bool) (events : List SyncEvent) (p : Pool)
    (hrun : Runs.run (Pool.step req.toHost) (fileSyncRemote req order reachable) events = some p) :
    Lossless req p ∧
    (∀ (k : Nat) (q : Pool) (f : String),
      Runs.run (Pool.step req.toHost) (fileSyncRemote req order reachable) (events.take k) = some q →
      0 < q.table.successes f →
      p.table.attempts f = q.table.attempts f ∧ ∀ w ∈ p.workers, ¬ w.Transfers f) ∧
    ((∀ info ∈ req.syncFileInfoList, 0 < p.table.successes info.toFileName) →
      Runs.Finishes (Pool.step req.toHost) (fun p => p.result = some (.ok ())) p) := by
  have hp := tracked_run hrun
  refine ⟨hp.lossless hne, fun k q f hk hf => ?_, fun hall => ?_⟩
  · rw [← List.take_append_drop k events, Runs.run_append hk] at hrun
    obtain ⟨-, hpos, hsame⟩ := (tracked_run hk).run_attempts hrun hf
    refine ⟨hsame, fun w hw htransfers => ?_⟩
    have hholders := (hp.accounted.transferred hpos).2
    exact absurd htransfers.holds (by simpa using List.countP_eq_zero.mp hholders w hw)
  · obtain ⟨hnone, hlist⟩ := hp.refused_of_all hne hall
    refine (hp.accounted.drained hnone ?_).finishes req.toHost
    rw [hlist]
    exact forall_fileList.mpr hall

/-- A file that is transferred in the second attempt. -/
def oneFile : FilesSyncRequest :=
  ⟨"", ["10.0.0.1:9502"], "10.0.0.2", [⟨"volume-snap-a.img", "volume-snap-a.img"⟩]⟩

def oneFileEvents : List SyncEvent :=
  [.step 0 (.tick .listed (fun _ => false)), .step 0 (.launch (.ok 9700)), .step 0 (.send (some "EOF")),
    .step 0 .requeue, .step 0 (.tick .listed (fun _ => true)),
    .step 0 (.tick .listed (fun _ => false)), .step 0 (.launch (.ok 9701)), .step 0 (.send none),
    .cancel, .step 0 .stop]

theorem oneFile_lossless :
    ∃ p, Runs.run (Pool.step oneFile.toHost) (fileSyncRemote oneFile .listed (fun _ => true))
        oneFileEvents = some p ∧ p.result = some (.ok ()) ∧ Lossless oneFile p := by
  have hresult : (Runs.run (Pool.step oneFile.toHost)
      (fileSyncRemote oneFile .listed (fun _ => true)) oneFileEvents).map Pool.result =
      some (some (.ok ())) := rfl
  obtain ⟨p, hp, hr⟩ := Option.map_eq_some_iff.mp hresult
  exact ⟨p, hp, hr, (fileSyncRemote_lossless oneFile (by simp [oneFile]) .listed (fun _ => true)
    oneFileEvents p hp).1⟩

end WeftBlock.Sync
