import WeftBlock.Controller.Reachable
import WeftBlock.Replica.Create

/-!
# A revert among other calls

`Controller.Revert` of `pkg/controller/revert.go` looks at the replicas three times without the
lock, at their modes, at their disks and to make a client for each, looks at the state of the
frontend, and only then takes the lock and reverts the replicas it has clients for. Other calls
come in between.

What a loop over `c.replicas` sees is the array of the slice as it was when the loop began.
Modes are set and replicas spliced out in that array; a replica that is added may go into it, or
into a new one, which the loop does not see. `cells` are the elements that the present loop goes
through, and `live` says whether they are still those of `c.replicas`.
-/

namespace WeftBlock

open DataConn Maps

namespace Controller

variable {β : Type}

/-- The frontend of the volume. -/
structure Frontend where
  name : String
  up : Bool

/-- A disk as `GetReplicaDisksAndHead` lists it. -/
structure ListedDisk where
  name : String
  removed : Bool

/-- What the replicas answer during a revert, by their addresses. -/
structure RevertAnswers where
  getReplicaDisksAndHead : String → Except Err (List ListedDisk)
  newReplicaClient : String → Except Err Unit
  getReplica : String → Except Err Unit
  revert : String → Except Err Unit

/-- The errors of `Revert`. -/
inductive RevertErr
  /-- `not valid state to revert, rebuilding in process or all replica are in ERR state` -/
  | notValidState
  /-- An error of a replica, passed on. -/
  | replica (e : Err)
  /-- `cannot revert to removed snapshot %v` -/
  | removedSnapshot (name : String)
  /-- `cannot do revert since the target snapshot %v is not found` -/
  | notFound (name : String)
  /-- `cannot revert %s during rebuilding process` -/
  | rebuilding (address : String)
  /-- `backend %s does not support revert` -/
  | notSupported (address : String)
  /-- `volume frontend enabled, aborting snapshot revert` -/
  | frontendEnabled
  /-- `failed to revert to %v on all replicas` -/
  | failedOnAll (name : String)
deriving DecidableEq

/-- How far `Revert` has come. -/
inductive RevertPc
  | idle
  /-- The loop over the modes, with what it has seen. -/
  | modes (i : Nat) (rw wo : Bool)
  /-- The loop that looks for the snapshot. -/
  | disks (i : Nat)
  /-- The loop of `clientsAndSnapshot`, with the addresses that have a client. -/
  | clients (i : Nat) (clients : List String)
  /-- Before the state of the frontend is looked at. -/
  | ready (clients : List String)
  /-- After that, before the lock. -/
  | checked (clients : List String)
  /-- With the lock: the clients that are left, and whether one has been reverted. -/
  | reverting (todo : List String) (minimalSuccess : Bool)
  /-- It has returned, while these were the replicas. -/
  | done (err : Option RevertErr) (replicas : List Replica)
deriving DecidableEq

/-- A controller with its frontend, and one call of `Revert`. -/
structure RevertWorld (β : Type) where
  ctl : Controller β
  frontend : Option Frontend
  /-- Calls of `StartFrontend` that have released the lock and are about to start the frontend. -/
  starting : Nat
  name : String
  pc : RevertPc
  cells : List Replica
  live : Bool
  /-- History: what has been reverted by this call, and to which disk. -/
  reverted : List (String × String)
  /-- History: the first replica has been asked to revert. -/
  begun : Bool
  /-- History: the frontend has been up since then, before the return. -/
  upSeen : Bool

namespace RevertWorld

/-- `c.FrontendState() == "up"` -/
def up (w : RevertWorld β) : Bool := w.frontend.any (fun f => f.up)

/-- The disk of the snapshot. -/
def disk (w : RevertWorld β) : String := generateSnapshotDiskName w.name

/-- A loop over `c.replicas` begins. -/
def enter (w : RevertWorld β) (pc : RevertPc) : RevertWorld β :=
  { w with pc := pc, cells := w.ctl.replicas, live := true }

/-- `Revert` returns. -/
def finish (w : RevertWorld β) (err : Option RevertErr) : RevertWorld β :=
  { w with pc := .done err w.ctl.replicas }

/-- The loop over the disks of one replica: found or not, or an error. -/
def search (w : RevertWorld β) : List ListedDisk → Except RevertErr Bool
  | [] => .ok false
  | d :: ds =>
    if d.name ≠ w.disk then search w ds
    else if d.removed then .error (.removedSnapshot w.name) else .ok true

/-- One replica in the loop that looks for the snapshot. -/
def findDisk (answers : RevertAnswers) (w : RevertWorld β) (i : Nat) (r : Replica) :
    RevertWorld β :=
  if r.mode ≠ .RW then { w with pc := .disks (i + 1) }
  else
    match answers.getReplicaDisksAndHead r.address with
    | .error e => w.finish (some (.replica e))
    | .ok disks =>
      match w.search disks with
      | .error e => w.finish (some e)
      | .ok true => w.enter (.clients 0 [])
      | .ok false => { w with pc := .disks (i + 1) }

/-- `strings.HasPrefix(replica.Address, "tcp://")` -/
def isTcp (address : String) : Bool := address.toList.take 6 == "tcp://".toList

/-- One replica in the loop of `clientsAndSnapshot`. -/
def addClient (answers : RevertAnswers) (w : RevertWorld β) (i : Nat) (clients : List String)
    (r : Replica) : RevertWorld β :=
  if r.mode = .WO then w.finish (some (.rebuilding r.address))
  else if r.mode ≠ .RW then { w with pc := .clients (i + 1) clients }
  else if isTcp r.address = false then w.finish (some (.notSupported r.address))
  else
    match answers.newReplicaClient r.address, answers.getReplica r.address with
    | .error e, _ => w.finish (some (.replica e))
    | .ok _, .error e => w.finish (some (.replica e))
    | .ok _, .ok _ => { w with pc := .clients (i + 1) (clients.insert r.address) }

/-- One client in the last loop, with the lock. -/
def revertClient (order : MapOrder) (answers : RevertAnswers) (w : RevertWorld β)
    (address : String) (todo : List String) (minimalSuccess : Bool) : Option (RevertWorld β) :=
  let w := { w with begun := true, upSeen := w.upSeen || w.up }
  match answers.revert address with
  | .ok _ => some { w with
      pc := .reverting todo true, reverted := w.reverted ++ [(address, w.disk)] }
  | .error _ =>
    (w.ctl.setReplicaModeNoLock order address .ERR).map (fun ctl =>
      { w with pc := .reverting todo minimalSuccess, ctl := ctl })

/-- `Revert` goes on. -/
def next (order : MapOrder) (answers : RevertAnswers) (w : RevertWorld β) :
    Option (RevertWorld β) :=
  match w.pc with
  | .idle => none
  | .modes i rw wo =>
    match w.cells[i]? with
    | some r => some { w with
        pc := .modes (i + 1) (rw || decide (r.mode = .RW)) (wo || decide (r.mode = .WO)) }
    | none => some (if rw && !wo then w.enter (.disks 0) else w.finish (some .notValidState))
  | .disks i =>
    match w.cells[i]? with
    | some r => some (w.findDisk answers i r)
    | none => some (w.finish (some (.notFound w.name)))
  | .clients i clients =>
    match w.cells[i]? with
    | some r => some (w.addClient answers i clients r)
    | none => some { w with pc := .ready clients }
  | .ready clients =>
    some (if w.up then w.finish (some .frontendEnabled) else { w with pc := .checked clients })
  | .checked clients => some { w with pc := .reverting (order.enum clients) false }
  | .reverting [] minimalSuccess =>
    some (w.finish (if minimalSuccess then none else some (.failedOnAll w.name)))
  | .reverting (address :: todo) minimalSuccess =>
    w.revertClient order answers address todo minimalSuccess
  | .done _ _ => none

/-- The other calls that take the lock. -/
inductive Call (β : Type)
  /-- `moved` says whether there was no room for the replica in the array. -/
  | addReplica (address : String) (snapshotRequired : Bool) (mode : Mode) (answers : AddAnswers β)
      (moved : Bool)
  | removeReplica (address : String)
  | setReplicaMode (address : String) (mode : Mode)
  | verifyRebuildReplica (address : String) (answers : VerifyAnswers)
  | handleError (err : IOErr)

/-- The request to the controller. -/
def Call.request (up : Bool) : Call β → Request β
  | .addReplica address snapshotRequired mode answers _ =>
    .addReplica address snapshotRequired mode answers
  | .removeReplica address => .removeReplica address up
  | .setReplicaMode address mode => .setReplicaMode address mode
  | .verifyRebuildReplica address answers => .verifyRebuildReplica address answers
  | .handleError err => .handleError err

/-- The replicas go into a new array. -/
def Call.moves : Call β → Bool
  | .addReplica _ _ _ _ moved => moved
  | _ => false

/-- The elements a loop over the old slice sees, when the replicas are changed in place. -/
def shifted (cells replicas : List Replica) : List Replica :=
  (replicas ++ cells.drop replicas.length).take cells.length

/-- The controller after a call, and what it changed under the loops. -/
def setReplicas (w : RevertWorld β) (ctl : Controller β) (moved : Bool) : RevertWorld β :=
  let live := w.live && !(moved && decide (w.ctl.replicas.length < ctl.replicas.length))
  let cells := if live then shifted w.cells ctl.replicas else w.cells
  { w with ctl := ctl, live := live, cells := cells }

/-- `Revert` has the lock. -/
def locked (w : RevertWorld β) : Bool :=
  match w.pc with
  | .reverting _ _ => true
  | _ => false

/-- What can happen. -/
inductive Event (β : Type)
  | revert (name : String)
  | next (order : MapOrder) (answers : RevertAnswers)
  | call (order : MapOrder) (call : Call β)
  /-- `StartFrontend` up to the release of the lock; `created` tells how `NewFrontend` ended. -/
  | startFrontend (frontend : String) (created : Bool)
  /-- The rest of it, without the lock. -/
  | startup (ok : Bool)
  | shutdownFrontend

/-- The part of `StartFrontend` that has the lock. -/
def startFrontend (w : RevertWorld β) (frontend : String) (created : Bool) : RevertWorld β :=
  if w.ctl.isExpanding ∨ frontend = "" ∨ w.frontend.any (fun f => f.name ≠ frontend ∧ f.up)
      ∨ created = false
    then w
    else { w with frontend := some ⟨frontend, false⟩, starting := w.starting + 1 }

/-- `startFrontend`: it does something if there are replicas and a frontend. -/
def startup (w : RevertWorld β) (ok : Bool) : RevertWorld β :=
  let w := { w with starting := w.starting - 1 }
  match w.frontend with
  | none => w
  | some f =>
    if 0 < w.ctl.replicas.length ∧ ok then
      { w with
        frontend := some { f with up := true }, upSeen := w.upSeen || (w.begun && w.locked) }
    else w

/-- One step. -/
def step (w : RevertWorld β) : Event β → Option (RevertWorld β)
  | .revert name =>
    match w.pc with
    | .idle => some ({ w with name := name }.enter (.modes 0 false false))
    | _ => none
  | .next order answers => w.next order answers
  | .call order call =>
    if w.locked then none
    else (w.ctl.serve order (call.request w.up)).map (fun ctl => w.setReplicas ctl call.moves)
  | .startFrontend frontend created =>
    if w.locked then none else some (w.startFrontend frontend created)
  | .startup ok => if w.starting = 0 then none else some (w.startup ok)
  | .shutdownFrontend =>
    if w.locked then none
    else some { w with frontend := w.frontend.map (fun f => { f with up := false }) }

/-- Before `Revert` is called. -/
def start (ctl : Controller β) (frontend : Option Frontend) (starting : Nat) : RevertWorld β where
  ctl := ctl
  frontend := frontend
  starting := starting
  name := ""
  pc := .idle
  cells := []
  live := false
  reverted := []
  begun := false
  upSeen := false

/-! ## The property -/

/--
**Revert is uniform**: when it returns nil, the replicas that are not in error have been
reverted by this call, and the frontend has not been up since the first of them was.
-/
def Uniform (w : RevertWorld β) : Prop :=
  ∀ replicas, w.pc = .done none replicas →
    (∀ r ∈ replicas, r.mode = .RW ∨ r.mode = .WO → (r.address, w.disk) ∈ w.reverted)
    ∧ w.upSeen = false

/-- The clients are being made. -/
def listing (w : RevertWorld β) : Bool :=
  match w.pc with
  | .clients _ _ => true
  | _ => false

/-- The clients are being made, or are there and wait for the lock. -/
def waiting (w : RevertWorld β) : Bool :=
  match w.pc with
  | .clients _ _ | .ready _ | .checked _ => true
  | _ => false

/-- The frontend has been looked at, and `Revert` has not returned. -/
def looked (w : RevertWorld β) : Bool :=
  match w.pc with
  | .checked _ | .reverting _ _ => true
  | _ => false

/--
**What must not come in between**: a replica that is added from the time the clients are made
until the lock is taken, one that is removed while they are made, and a frontend that comes up
after it has been looked at.
-/
def Undisturbed (w : RevertWorld β) : Event β → Prop
  | .call _ (.addReplica _ _ _ _ _) => w.waiting = false
  | .call _ (.removeReplica _) => w.listing = false
  | .startup ok => ok = true → w.looked = false
  | _ => True

/-! ## The calls that come in between -/

/-- The replicas of `c'` that are well are replicas of `c` that are well there. -/
structure Shrunk (c c' : Controller β) : Prop where
  consistent : Consistent c'
  well : ∀ r' ∈ c'.replicas, r'.mode ≠ .ERR →
    ∃ r ∈ c.replicas, r.address = r'.address ∧ r.mode ≠ .ERR

variable {c c' : Controller β}

/-- A replica that is well where only modes were set was well before, in the same place. -/
theorem well_getElem? (hc : Regraded c c') {j : Nat} {r' : Replica}
    (hr' : c'.replicas[j]? = some r') (hm : r'.mode ≠ .ERR) :
    ∃ r, c.replicas[j]? = some r ∧ r.address = r'.address ∧ r.mode ≠ .ERR := by
  have haddr : (c.replicas.map (fun r => r.address))[j]? = some r'.address := by
    rw [← hc.addresses, List.getElem?_map, hr']
    rfl
  rw [List.getElem?_map] at haddr
  obtain ⟨r, hr, ha⟩ := Option.map_eq_some_iff.mp haddr
  refine ⟨r, hr, ha, fun herr => ?_⟩
  -- a replica in error stays in error, and there is only one with this address
  have hsticky : ⟨r.address, .ERR⟩ ∈ c'.replicas :=
    hc.sticky _ (herr ▸ List.mem_of_getElem? hr)
  have heq := hc.consistent.eq_of_address (List.mem_of_getElem? hr') hsticky ha.symm
  exact hm (congrArg Replica.mode heq)

theorem shrunk_of_regraded (hc : Regraded c c') : Shrunk c c' := by
  refine ⟨hc.consistent, fun r' hr' hm => ?_⟩
  obtain ⟨j, hj⟩ := List.getElem?_of_mem hr'
  obtain ⟨r, hr, ha, hne⟩ := well_getElem? hc hj hm
  exact ⟨r, List.mem_of_getElem? hr, ha, hne⟩

/-- The call only sets modes. -/
def Call.regrades : Call β → Bool
  | .addReplica _ _ _ _ _ | .removeReplica _ => false
  | _ => true

/-- The call adds a replica. -/
def Call.adds : Call β → Bool
  | .addReplica _ _ _ _ _ => true
  | _ => false

section

variable {c c' : Controller β} (h : Consistent c) {order : MapOrder} {up : Bool} {call : Call β}
include h

theorem serve_regraded (hcall : call.regrades = true)
    (hs : c.serve order (call.request up) = some c') : Regraded c c' := by
  cases call with
  | addReplica address snapshotRequired mode answers moved =>
    exact absurd hcall (by simp [Call.regrades])
  | removeReplica address => exact absurd hcall (by simp [Call.regrades])
  | setReplicaMode address mode =>
    obtain ⟨c₁, err, he, hc⟩ := setReplicaMode_regraded h order address mode
    rw [Call.request, serve, he] at hs
    exact Option.some.inj hs ▸ hc
  | verifyRebuildReplica address answers =>
    obtain ⟨c₁, err, he, hc⟩ := verifyRebuildReplica_regraded h order address answers
    rw [Call.request, serve, he] at hs
    exact Option.some.inj hs ▸ hc
  | handleError err =>
    obtain ⟨c₁, err', he, hc⟩ := handleErrorNoLock_regraded h order (some err)
    rw [Call.request, serve, he] at hs
    exact Option.some.inj hs ▸ hc

theorem serve_shrunk (hcall : call.adds = false)
    (hs : c.serve order (call.request up) = some c') : Shrunk c c' := by
  by_cases hr : call.regrades = true
  · exact shrunk_of_regraded (serve_regraded h hr hs)
  cases call with
  | removeReplica address =>
    obtain ⟨c₁, err, he, hc, -, hsub⟩ := removeReplica_spec h order address up
    rw [Call.request, serve, he] at hs
    obtain rfl : c₁ = c' := Option.some.inj hs
    exact ⟨hc, fun r hr hm => ⟨r, hsub hr, rfl, hm⟩⟩
  | addReplica address snapshotRequired mode answers moved =>
    exact absurd hcall (by simp [Call.adds])
  | setReplicaMode address mode => exact absurd rfl hr
  | verifyRebuildReplica address answers => exact absurd rfl hr
  | handleError err => exact absurd rfl hr

end

/-! ## The invariant -/

/-- Every replica that is well has its address among these. -/
def Covered (c : Controller β) (P : String → Prop) : Prop :=
  ∀ r ∈ c.replicas, r.mode ≠ .ERR → P r.address

theorem Covered.shrunk {P : String → Prop} (h : Covered c P) (hc : Shrunk c c') : Covered c' P := by
  intro r' hr' hm
  obtain ⟨r, hr, ha, hne⟩ := hc.well r' hr' hm
  exact ha ▸ h r hr hne

/-- What holds where `Revert` has come to. -/
def Stage (w : RevertWorld β) : RevertPc → Prop
  | .clients i cs => w.live = true ∧ w.cells = w.ctl.replicas
      ∧ ∀ j < i, ∀ r, w.ctl.replicas[j]? = some r → r.mode ≠ .ERR → r.address ∈ cs
  | .ready cs => Covered w.ctl (fun a => a ∈ cs)
  | .checked cs => Covered w.ctl (fun a => a ∈ cs) ∧ w.up = false
  | .reverting todo _ =>
    Covered w.ctl (fun a => a ∈ todo ∨ (a, w.disk) ∈ w.reverted) ∧ w.up = false
  | .done none replicas => ∀ r ∈ replicas, r.mode ≠ .ERR → (r.address, w.disk) ∈ w.reverted
  | _ => True

/-- What holds all the time, if nothing comes in between. -/
structure Inv (w : RevertWorld β) : Prop where
  consistent : Consistent w.ctl
  down : w.upSeen = false
  stage : w.Stage w.pc

section

variable {w : RevertWorld β} (h : Inv w)
include h

theorem Inv.uniform : w.Uniform := by
  intro replicas hpc
  have hstage := h.stage
  rw [hpc] at hstage
  refine ⟨fun r hr hm => hstage r hr ?_, h.down⟩
  rcases hm with hm | hm
  · rw [hm]; simp
  · rw [hm]; simp

theorem Inv.fail (e : RevertErr) : Inv (w.finish (some e)) :=
  ⟨h.consistent, h.down, trivial⟩

theorem inv_findDisk (answers : RevertAnswers) (i : Nat)
    (r : Replica) : Inv (w.findDisk answers i r) := by
  have hnext : Inv { w with pc := .disks (i + 1) } := ⟨h.consistent, h.down, trivial⟩
  unfold findDisk
  by_cases hrw : r.mode ≠ .RW
  · rw [if_pos hrw]
    exact hnext
  rw [if_neg hrw]
  cases answers.getReplicaDisksAndHead r.address with
  | error e => exact h.fail _
  | ok disks =>
    dsimp only
    cases w.search disks with
    | error e => exact h.fail _
    | ok found =>
      cases found with
      | false => exact hnext
      | true => exact ⟨h.consistent, h.down, rfl, rfl, fun j hj => absurd hj (by omega)⟩

end

theorem listed_succ {i : Nat} {cs cs' : List String} {r : Replica}
    (h : ∀ j < i, ∀ r, c.replicas[j]? = some r → r.mode ≠ .ERR → r.address ∈ cs)
    (hr : c.replicas[i]? = some r) (hin : r.mode ≠ .ERR → r.address ∈ cs') (hsub : cs ⊆ cs') :
    ∀ j < i + 1, ∀ r, c.replicas[j]? = some r → r.mode ≠ .ERR → r.address ∈ cs' := by
  intro j hj s hs hm
  rcases Nat.lt_succ_iff_lt_or_eq.mp hj with hlt | rfl
  · exact hsub (h j hlt s hs hm)
  · obtain rfl : r = s := Option.some.inj (hr.symm.trans hs)
    exact hin hm

theorem inv_addClient {w : RevertWorld β} (h : Inv w) (answers : RevertAnswers) {i : Nat}
    {cs : List String} (hpc : w.pc = .clients i cs) {r : Replica} (hr : w.cells[i]? = some r) :
    Inv (w.addClient answers i cs r) := by
  have hstage := h.stage
  rw [hpc] at hstage
  obtain ⟨hlive, hcells, hlisted⟩ := hstage
  rw [hcells] at hr
  unfold addClient
  by_cases hwo : r.mode = .WO
  · rw [if_pos hwo]
    exact h.fail _
  rw [if_neg hwo]
  by_cases hrw : r.mode ≠ .RW
  · rw [if_pos hrw]
    have herr : r.mode = .ERR := by
      cases hm : r.mode with
      | WO => exact absurd hm hwo
      | RW => exact absurd hm hrw
      | ERR => rfl
    exact ⟨h.consistent, h.down, hlive, hcells,
      listed_succ hlisted hr (fun hm => absurd herr hm) (fun _ ha => ha)⟩
  rw [if_neg hrw]
  by_cases htcp : isTcp r.address = false
  · rw [if_pos htcp]
    exact h.fail _
  rw [if_neg htcp]
  cases answers.newReplicaClient r.address with
  | error e => exact h.fail _
  | ok _ =>
    cases answers.getReplica r.address with
    | error e => exact h.fail _
    | ok _ =>
      exact ⟨h.consistent, h.down, hlive, hcells,
        listed_succ hlisted hr (fun _ => List.mem_insert_self)
          (fun _ ha => List.mem_insert_of_mem ha)⟩

section

variable {w w' : RevertWorld β} (h : Inv w) (order : MapOrder) (answers : RevertAnswers)
include h

/-- A client that is done with has been reverted, or its replica is in error by now. -/
theorem inv_revertClient {address : String} {todo : List String} {success : Bool}
    (hpc : w.pc = .reverting (address :: todo) success)
    (hs : w.revertClient order answers address todo success = some w') : Inv w' := by
  have hstage := h.stage
  rw [hpc] at hstage
  obtain ⟨hcov, hup⟩ := hstage
  have hdown : (w.upSeen || w.up) = false := by rw [h.down, hup]; rfl
  unfold revertClient at hs
  cases hrev : answers.revert address with
  | ok _ =>
    rw [hrev] at hs
    obtain rfl := Option.some.inj hs
    refine ⟨h.consistent, hdown, fun r hr hm => ?_, hup⟩
    rcases hcov r hr hm with hin | hin
    · rcases List.mem_cons.mp hin with heq | hin
      · exact Or.inr (List.mem_append_right _ (List.mem_singleton.mpr (heq ▸ rfl)))
      · exact Or.inl hin
    · exact Or.inr (List.mem_append_left _ hin)
  | error e =>
    obtain ⟨c', he, hset⟩ := setReplicaModeNoLock_spec h.consistent order address .ERR (by simp)
    rw [hrev] at hs
    dsimp only at hs
    rw [he] at hs
    obtain rfl := Option.some.inj hs
    refine ⟨hset.consistent, hdown, fun r' hr' hm => ?_, hup⟩
    change r' ∈ c'.replicas at hr'
    rw [hset.replicas] at hr'
    obtain ⟨r, hr, rfl⟩ := List.mem_map.mp hr'
    have hwell : r.mode ≠ .ERR := fun hh =>
      hm (by rw [setTo, if_neg (fun hc => hc.2 hh)]; exact hh)
    have hne : r.address ≠ address := fun hh => hm (by rw [setTo, if_pos ⟨hh, hwell⟩])
    rw [address_setTo]
    rcases hcov r hr hwell with hin | hin
    · rcases List.mem_cons.mp hin with heq | hin
      · exact absurd heq hne
      · exact Or.inl hin
    · exact Or.inr hin

theorem inv_next (hs : w.next order answers = some w') : Inv w' := by
  have hstage := h.stage
  unfold next at hs
  cases hpc : w.pc with
  | idle => rw [hpc] at hs; exact absurd hs (by simp)
  | modes i rw wo =>
    rw [hpc] at hs
    dsimp only at hs
    cases hr : w.cells[i]? with
    | some r =>
      rw [hr] at hs
      obtain rfl := Option.some.inj hs
      exact ⟨h.consistent, h.down, trivial⟩
    | none =>
      rw [hr] at hs
      obtain rfl := Option.some.inj hs
      by_cases hdo : (rw && !wo) = true
      · rw [if_pos hdo]
        exact ⟨h.consistent, h.down, trivial⟩
      · rw [if_neg hdo]
        exact h.fail _
  | disks i =>
    rw [hpc] at hs
    dsimp only at hs
    cases hr : w.cells[i]? with
    | some r =>
      rw [hr] at hs
      exact Option.some.inj hs ▸ inv_findDisk h answers i r
    | none =>
      rw [hr] at hs
      exact Option.some.inj hs ▸ h.fail _
  | clients i cs =>
    rw [hpc] at hs hstage
    dsimp only at hs
    cases hr : w.cells[i]? with
    | some r =>
      rw [hr] at hs
      exact Option.some.inj hs ▸ inv_addClient h answers hpc hr
    | none =>
      -- the loop has come to the end of the replicas
      rw [hr] at hs
      obtain rfl := Option.some.inj hs
      obtain ⟨-, hcells, hlisted⟩ := hstage
      refine ⟨h.consistent, h.down, fun r hin hm => ?_⟩
      obtain ⟨j, hj⟩ := List.getElem?_of_mem hin
      rw [hcells] at hr
      have hlt := (List.getElem?_eq_some_iff.mp hj).1
      have hle := List.getElem?_eq_none_iff.mp hr
      exact hlisted j (lt_of_lt_of_le hlt hle) r hj hm
  | ready cs =>
    rw [hpc] at hs hstage
    obtain rfl := Option.some.inj hs
    by_cases hup : w.up = true
    · rw [if_pos hup]
      exact h.fail _
    · rw [if_neg hup]
      exact ⟨h.consistent, h.down, hstage, Bool.eq_false_iff.mpr hup⟩
  | checked cs =>
    rw [hpc] at hs hstage
    obtain rfl := Option.some.inj hs
    refine ⟨h.consistent, h.down, fun r hr hm => ?_, hstage.2⟩
    exact Or.inl ((order.perm cs).mem_iff.mpr (hstage.1 r hr hm))
  | reverting todo success =>
    cases todo with
    | nil =>
      rw [hpc] at hs hstage
      obtain rfl := Option.some.inj hs
      cases success with
      | false => exact h.fail _
      | true =>
        refine ⟨h.consistent, h.down, fun r hr hm => ?_⟩
        rcases hstage.1 r hr hm with hin | hin
        · simp at hin
        · exact hin
    | cons address todo =>
      rw [hpc] at hs
      exact inv_revertClient h order answers hpc hs
  | done err replicas => rw [hpc] at hs; exact absurd hs (by simp)

end

/-- In place, where as many replicas remain, the loop sees what the controller has. -/
theorem shifted_eq {cells replicas : List Replica} (h : replicas.length = cells.length) :
    shifted cells replicas = replicas := by
  rw [shifted, h, List.drop_length, List.append_nil, ← h, List.take_length]

section

variable {w : RevertWorld β}

theorem stage_setReplicas (h : Inv w) {order : MapOrder} {call : Call β}
    (hok : w.Undisturbed (.call order call)) (hlock : w.locked = false)
    (hs : w.ctl.serve order (call.request w.up) = some c') :
    (w.setReplicas c' call.moves).Stage w.pc := by
  have hstage := h.stage
  have hshrunk : w.waiting = true → Shrunk w.ctl c' := by
    intro hwait
    refine serve_shrunk h.consistent ?_ hs
    cases call with
    | addReplica address snapshotRequired mode answers moved =>
      exact absurd (hok.symm.trans hwait) (by simp)
    | removeReplica address => rfl
    | setReplicaMode address mode => rfl
    | verifyRebuildReplica address answers => rfl
    | handleError err => rfl
  cases hpc : w.pc with
  | idle => trivial
  | modes i rw wo => trivial
  | disks i => trivial
  | clients i cs =>
    rw [hpc] at hstage
    obtain ⟨hlive, hcells, hlisted⟩ := hstage
    have hmode : call.regrades = true := by
      cases call with
      | addReplica address snapshotRequired mode answers moved =>
        simp [Undisturbed, waiting, hpc] at hok
      | removeReplica address => simp [Undisturbed, listing, hpc] at hok
      | setReplicaMode address mode => rfl
      | verifyRebuildReplica address answers => rfl
      | handleError err => rfl
    have hre := serve_regraded h.consistent hmode hs
    have hlen : c'.replicas.length = w.ctl.replicas.length := by
      have := congrArg List.length hre.addresses
      rwa [List.length_map, List.length_map] at this
    have hnot : decide (w.ctl.replicas.length < c'.replicas.length) = false := by
      rw [hlen]; simp
    have hset : w.setReplicas c' call.moves
        = { w with ctl := c', live := true, cells := c'.replicas } := by
      simp [setReplicas, hlive, hnot, shifted_eq (hcells ▸ hlen)]
    rw [hset]
    refine ⟨rfl, rfl, fun j hj r' hr' hm => ?_⟩
    obtain ⟨r, hr, ha, hne⟩ := well_getElem? hre hr' hm
    exact ha ▸ hlisted j hj r hr hne
  | ready cs =>
    rw [hpc] at hstage
    exact Covered.shrunk hstage (hshrunk (by rw [waiting, hpc]))
  | checked cs =>
    rw [hpc] at hstage
    exact ⟨Covered.shrunk hstage.1 (hshrunk (by rw [waiting, hpc])), hstage.2⟩
  | reverting todo success => rw [locked, hpc] at hlock; exact absurd hlock (by simp)
  | done err replicas =>
    rw [hpc] at hstage
    cases err with
    | none => exact hstage
    | some e => trivial

/-- The frontend may change, if it does not come up after it has been looked at. -/
theorem Inv.setFrontend (h : Inv w) (frontend : Option Frontend)
    (starting : Nat) (hup : w.looked = true → frontend.any (fun f => f.up) = false) :
    Inv { w with frontend := frontend, starting := starting } := by
  refine ⟨h.consistent, h.down, ?_⟩
  have hstage := h.stage
  cases hpc : w.pc with
  | idle => trivial
  | modes i rw wo => trivial
  | disks i => trivial
  | clients i cs => rw [hpc] at hstage; exact hstage
  | ready cs => rw [hpc] at hstage; exact hstage
  | checked cs => rw [hpc] at hstage; exact ⟨hstage.1, hup (by rw [looked, hpc])⟩
  | reverting todo success => rw [hpc] at hstage; exact ⟨hstage.1, hup (by rw [looked, hpc])⟩
  | done err replicas =>
    rw [hpc] at hstage
    cases err with
    | none => exact hstage
    | some e => trivial

/-- Where the frontend has been looked at, it is down. -/
theorem Inv.up_of_looked (h : Inv w) (hl : w.looked = true) : w.up = false := by
  have hstage := h.stage
  unfold looked at hl
  split at hl
  next cs hpc => rw [hpc] at hstage; exact hstage.2
  next todo success hpc => rw [hpc] at hstage; exact hstage.2
  next => exact absurd hl (by simp)

theorem looked_of_locked (h : w.locked = true) : w.looked = true := by
  unfold locked at h
  split at h
  next todo success hpc => rw [looked, hpc]
  next => exact absurd h (by simp)

theorem inv_startup (h : Inv w) {ok : Bool}
    (hok : w.Undisturbed (.startup ok)) : Inv (w.startup ok) := by
  have hsame : Inv { w with starting := w.starting - 1 } :=
    h.setFrontend w.frontend _ h.up_of_looked
  unfold startup
  dsimp only
  split
  next => exact hsame
  next f hf =>
    by_cases hup : 0 < w.ctl.replicas.length ∧ ok = true
    · rw [if_pos hup]
      have hl : w.looked = false := hok hup.2
      have hlock : locked { w with starting := w.starting - 1 } = false := by
        refine Bool.eq_false_iff.mpr fun hh => ?_
        have hlooked : w.looked = true := looked_of_locked (w := w) hh
        exact absurd (hl.symm.trans hlooked) (by simp)
      rw [hlock, Bool.and_false, Bool.or_false]
      exact h.setFrontend _ _ (fun hh => absurd (hl.symm.trans hh) (by simp))
    · rw [if_neg hup]
      exact hsame

theorem inv_startFrontend (h : Inv w) (frontend : String) (created : Bool) :
    Inv (w.startFrontend frontend created) := by
  unfold startFrontend
  split
  · exact h
  · exact h.setFrontend _ _ (fun _ => rfl)

end

/-- **One step.** -/
theorem inv_step {w w' : RevertWorld β} (h : Inv w) {e : Event β} (hok : w.Undisturbed e)
    (hs : w.step e = some w') : Inv w' := by
  cases e with
  | revert name =>
    simp only [step] at hs
    split at hs
    next =>
      obtain rfl := Option.some.inj hs
      exact ⟨h.consistent, h.down, trivial⟩
    next => exact absurd hs (by simp)
  | next order answers => exact inv_next h order answers hs
  | call order call =>
    obtain ⟨hlock, hs⟩ := Option.ite_none_left_eq_some.mp hs
    obtain ⟨c', hc', rfl⟩ := Option.map_eq_some_iff.mp hs
    obtain ⟨c₁, he, hk⟩ := serve_kept h.consistent order (call.request w.up)
    obtain rfl : c₁ = c' := Option.some.inj (he.symm.trans hc')
    exact ⟨hk.consistent, h.down,
      stage_setReplicas h hok (Bool.eq_false_iff.mpr hlock) hc'⟩
  | startFrontend frontend created =>
    obtain ⟨-, hs⟩ := Option.ite_none_left_eq_some.mp hs
    exact Option.some.inj hs ▸ inv_startFrontend h frontend created
  | startup ok =>
    obtain ⟨-, hs⟩ := Option.ite_none_left_eq_some.mp hs
    exact Option.some.inj hs ▸ inv_startup h hok
  | shutdownFrontend =>
    obtain ⟨-, hs⟩ := Option.ite_none_left_eq_some.mp hs
    obtain rfl := Option.some.inj hs
    refine h.setFrontend _ _ (fun _ => ?_)
    cases w.frontend with
    | none => rfl
    | some f => rfl

/-! ## Runs -/

/-- What happens, one event after the other. -/
def run (w : RevertWorld β) (events : List (Event β)) : Option (RevertWorld β) :=
  Runs.run step w events

/--
**Revert is uniform**, among whatever calls, as long as nothing comes in between that must not.
-/
theorem run_uniform {c₀ : Controller β} (hfresh : c₀.Fresh) (reqs : List (MapOrder × Request β))
    {c : Controller β} (hrun : c₀.run reqs = some c) (frontend : Option Frontend) (starting : Nat)
    (events : List (Event β))
    (hok : Runs.Steady step Undisturbed (start c frontend starting) events) {w : RevertWorld β}
    (hw : (start c frontend starting).run events = some w) : w.Uniform := by
  obtain ⟨c', he, hc, -⟩ := run_kept (consistent_fresh hfresh) reqs
  obtain rfl := Option.some.inj (he.symm.trans hrun)
  have hstart : Inv (start c' frontend starting) := ⟨hc, rfl, trivial⟩
  exact (Runs.run_steady (fun _ _ _ h hok hs => inv_step h hok hs) hstart hok hw).uniform

/-- Replicas that do what they are asked, and have the disk. -/
def willing (disk : String) : RevertAnswers where
  getReplicaDisksAndHead _ := .ok [⟨disk, false⟩]
  newReplicaClient _ := .ok ()
  getReplica _ := .ok ()
  revert _ := .ok ()

/-- Three replicas. -/
def trio : List (MapOrder × Request Nat) :=
  [ (.listed, .addReplica "tcp://a" false .RW (faultless 1)),
    (.listed, .addReplica "tcp://b" false .RW (faultless 2)),
    (.listed, .addReplica "tcp://c" false .RW (faultless 3)) ]

/-- `Revert` goes on, `n` times. -/
def onward (n : Nat) : List (Event Nat) :=
  List.replicate n (.next .listed (willing (generateSnapshotDiskName "s")))

theorem steady_onward (n : Nat) (w : RevertWorld Nat) :
    Runs.Steady step Undisturbed w (onward n) := by
  induction n generalizing w with
  | zero => trivial
  | succ n ih => exact ⟨trivial, fun w' _ => ih w'⟩

/-- Where `Revert` has come to on the three replicas, and what it has done. -/
def outcome (events : List (Event Nat)) : Option (RevertPc × List (String × String) × Bool) :=
  (Controller.run blank trio).bind (fun c =>
    ((start c none 0).run events).map (fun w => (w.pc, w.reverted, w.upSeen)))

theorem run_uniform_trio : ∃ c w, Controller.run blank trio = some c
    ∧ (start c none 0).run (.revert "s" :: onward 15) = some w
    ∧ w.pc = .done none [⟨"tcp://a", .RW⟩, ⟨"tcp://b", .RW⟩, ⟨"tcp://c", .RW⟩]
    ∧ w.Uniform := by
  have hout : outcome (.revert "s" :: onward 15)
      = some (.done none [⟨"tcp://a", .RW⟩, ⟨"tcp://b", .RW⟩, ⟨"tcp://c", .RW⟩],
        [("tcp://c", "volume-snap-s.img"), ("tcp://b", "volume-snap-s.img"),
          ("tcp://a", "volume-snap-s.img")], false) := by
    decide +kernel
  obtain ⟨c, hc, hout⟩ := Option.bind_eq_some_iff.mp hout
  obtain ⟨w, hw, hw'⟩ := Option.map_eq_some_iff.mp hout
  have hsteady : Runs.Steady step Undisturbed (start c none 0) (.revert "s" :: onward 15) :=
    ⟨trivial, fun w' _ => steady_onward 15 w'⟩
  exact ⟨c, w, hc, hw, congrArg Prod.fst hw', run_uniform ⟨rfl, rfl⟩ trio hc none 0 _ hsteady hw⟩

/-- A replica is added before the lock is taken. -/
def added : List (Event Nat) :=
  .revert "s" :: onward 10
    ++ .call .listed (.addReplica "tcp://d" false .WO (faultless 4) true) :: onward 5

/-- The frontend comes up after it has been looked at. -/
def started : List (Event Nat) :=
  .startFrontend "f" true :: .revert "s" :: onward 10 ++ .startup true :: onward 5

/-- The first replica is removed when it has its client: the loop goes on with the third. -/
def removed : List (Event Nat) :=
  .revert "s" :: onward 6 ++ .call .listed (.removeReplica "tcp://a") :: onward 8

theorem not_uniform_of_outcome {events : List (Event Nat)} {replicas : List Replica}
    {reverted : List (String × String)} {upSeen : Bool}
    (h : outcome events = some (.done none replicas, reverted, upSeen))
    (hbad : upSeen = true ∨ ∃ r ∈ replicas, (r.mode = .RW ∨ r.mode = .WO)
      ∧ r.address ∉ reverted.map (fun x => x.1)) :
    ∃ c w, Controller.run blank trio = some c ∧ (start c none 0).run events = some w
      ∧ w.pc = .done none replicas ∧ ¬ w.Uniform := by
  obtain ⟨c, hc, h⟩ := Option.bind_eq_some_iff.mp h
  obtain ⟨w, hw, hw'⟩ := Option.map_eq_some_iff.mp h
  have hpc : w.pc = .done none replicas := congrArg Prod.fst hw'
  obtain ⟨rfl, rfl⟩ := Prod.mk.inj (congrArg Prod.snd hw')
  refine ⟨c, w, hc, hw, hpc, fun hu => ?_⟩
  obtain ⟨hall, hdown⟩ := hu replicas hpc
  rcases hbad with hup | ⟨r, hr, hm, hne⟩
  · exact absurd (hdown.symm.trans hup) (by simp)
  · exact hne (List.mem_map.mpr ⟨_, hall r hr hm, rfl⟩)

/--
Nil is returned, although a replica that is WO has not been reverted; while the frontend is up;
although a replica that is RW has not been reverted.
-/
theorem runs_not_uniform :
    (∃ c w, Controller.run blank trio = some c ∧ (start c none 0).run added = some w
      ∧ w.pc = .done none
        [⟨"tcp://a", .RW⟩, ⟨"tcp://b", .RW⟩, ⟨"tcp://c", .RW⟩, ⟨"tcp://d", .WO⟩] ∧ ¬ w.Uniform)
    ∧ (∃ c w, Controller.run blank trio = some c ∧ (start c none 0).run started = some w
      ∧ w.pc = .done none [⟨"tcp://a", .RW⟩, ⟨"tcp://b", .RW⟩, ⟨"tcp://c", .RW⟩] ∧ ¬ w.Uniform)
    ∧ ∃ c w, Controller.run blank trio = some c ∧ (start c none 0).run removed = some w
      ∧ w.pc = .done none [⟨"tcp://b", .RW⟩, ⟨"tcp://c", .RW⟩] ∧ ¬ w.Uniform := by
  have hadded : outcome added
      = some (.done none [⟨"tcp://a", .RW⟩, ⟨"tcp://b", .RW⟩, ⟨"tcp://c", .RW⟩, ⟨"tcp://d", .WO⟩],
        [("tcp://c", "volume-snap-s.img"), ("tcp://b", "volume-snap-s.img"),
          ("tcp://a", "volume-snap-s.img")], false) := by decide +kernel
  have hstarted : outcome started
      = some (.done none [⟨"tcp://a", .RW⟩, ⟨"tcp://b", .RW⟩, ⟨"tcp://c", .RW⟩],
        [("tcp://c", "volume-snap-s.img"), ("tcp://b", "volume-snap-s.img"),
          ("tcp://a", "volume-snap-s.img")], true) := by decide +kernel
  have hremoved : outcome removed
      = some (.done none [⟨"tcp://b", .RW⟩, ⟨"tcp://c", .RW⟩],
        [("tcp://c", "volume-snap-s.img"), ("tcp://a", "volume-snap-s.img")], false) := by
    decide +kernel
  refine ⟨not_uniform_of_outcome hadded (Or.inr ⟨⟨"tcp://d", .WO⟩, ?_⟩),
    not_uniform_of_outcome hstarted (Or.inl rfl),
    not_uniform_of_outcome hremoved (Or.inr ⟨⟨"tcp://b", .RW⟩, ?_⟩)⟩
  · decide
  · decide

end RevertWorld

end Controller

end WeftBlock
