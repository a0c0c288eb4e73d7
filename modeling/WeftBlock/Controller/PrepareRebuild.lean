import WeftBlock.Controller.UnmapBlame
import WeftBlock.Replica.Faithful

/-!
# Preparing a rebuild

`PrepareRebuildReplica` of `pkg/controller/rebuild.go`, with the replicas it talks to.
It resets the revision counter of the replica to 0 and *then* looks whether there is
such a replica, whether it is WO, and whether there is another one to rebuild it
from. A request that is turned down by one of these checks has already reset the
counter of a replica that may be healthy. And the counter is reset through the
backend at the address, which is nil for a replica that `Start` could not reach.

`prepareRebuildReplica_harmless_iff` says exactly when a request is harmless.
-/

namespace WeftBlock

open DataConn Maps

namespace Controller

variable {β : Type}

/-! ## The replicas behind the controller -/

/-- A replica server: its counter, and the replica it has open. -/
structure Remote where
  revisionCounter : Int
  replica : Option WeftBlock.Replica

/-- How a call to a replica fails: before it did anything, or with its answer lost. -/
inductive CallFault
  | refused (e : Err)
  | lost (e : Err)

/-- `SetRevisionCounter` of the server, which answers nil when it has no replica open. -/
def Remote.setRevisionCounter (r : Remote) (counter : Int) : Remote :=
  if r.replica.isNone then r else { r with revisionCounter := counter }

/-- `RemoveDiffDisk` of the server, with force. -/
def Remote.removeDiffDisk (pick : Finset String → String) (r : Remote) (name : String) :
    Remote × Except ReplicaErr Unit :=
  match r.replica with
  | none => (r, .ok ())
  | some replica =>
    let (replica, err) := replica.removeDiffDisk pick name true
    ({ r with replica := some replica }, err)

/-- The metadata file `name` of the replica becomes `disk`. -/
def Remote.putMeta (r : Remote) (name : String) (disk : Disk) : Remote :=
  { r with replica := r.replica.map (fun r =>
      { r with dir := { r.dir with metas := r.dir.metas.insert name disk } }) }

/-- `DisplayChain`: the disks from the head down that are not marked as removed. -/
def displayChain (r : WeftBlock.Replica) : List String :=
  match chain r.diskData r.info.head with
  | .error _ => []
  | .ok l => l.filter (fun name => ¬ r.removed name)

/-- The controller and the replica servers, by address. -/
structure Cluster (β : Type) where
  controller : Controller β
  remotes : String → Remote

/-- `SyncFileInfo`. -/
structure SyncFileInfo where
  fromFileName : String
  toFileName : String
  actualSize : Int
deriving DecidableEq, Repr

/-- What a preparation leaves open: the orders of its maps, the sizes, and the calls that fail. -/
structure RebuildEnv where
  order : MapOrder
  pick : Finset String → String
  /-- The size of a disk at an address. -/
  diskSize : String → String → Int
  setRevisionCounter : Option CallFault
  /-- `GetReplica`, by address. -/
  getReplica : String → Option Err
  /-- The client that removes the extra disks. -/
  removeClient : Option Err
  removeDisk : String → Option CallFault
  syncFile : Option CallFault

/-- The errors of `PrepareRebuildReplica`. -/
inductive PrepareErr
  /-- `failed to set revision counter for %v`. -/
  | setRevisionCounter (address : String) (e : CtlErr)
  /-- What `getCurrentAndRWReplica` says. -/
  | noReplica (e : CtlErr)
  /-- `invalid mode %v for replica %v to prepare rebuild`. -/
  | invalidMode (mode : Mode) (address : String)
  /-- `cannot get replica for %v`. -/
  | getReplica (address : String) (e : Err)
  /-- `replica on %v does not have any non-removed disks`. -/
  | noDisks (address : String)
  /-- `cannot create replica client for address %v`. -/
  | removeClient (address : String) (e : Err)
  /-- `cannot remove disk %v`: the call failed, or the replica refused. -/
  | removeDisk (name : String) (e : Err ⊕ ReplicaErr)
  /-- The metadata of the head could not be sent. -/
  | syncFile (e : Option Err)

namespace Cluster

/-- The replica at an address becomes another one. -/
def set (w : Cluster β) (address : String) (r : Remote) : Cluster β :=
  { w with remotes := Function.update w.remotes address r }

theorem remotes_set (w : Cluster β) (address : String) (r : Remote) (a : String) :
    (w.set address r).remotes a = if a = address then r else w.remotes a :=
  Function.update_apply ..

/-- `SetRevisionCounter` of the replicator. -/
def setRevisionCounter (w : Cluster β) (address : String) (counter : Int)
    (fault : Option CallFault) : Option (Cluster β × Option CtlErr) :=
  match w.controller.backend.backends.lookup address with
  | none => some (w, some (.noSuchBackend address))
  | some b =>
    if b.backend = none then none
    else
      let done := w.set address ((w.remotes address).setRevisionCounter counter)
      match fault with
      | some (.refused e) => some (w, some (.backend e))
      | some (.lost e) => some (done, some (.backend e))
      | none => some (done, none)

/-- `GetReplicaDisksAndHead`: the disks but the head and the backing file, and the head. -/
def getReplicaDisksAndHead (env : RebuildEnv) (w : Cluster β) (address : String) :
    Except PrepareErr (AList (fun _ : String => Disk) × String) :=
  match env.getReplica address, (w.remotes address).replica with
  | some e, _ => .error (.getReplica address e)
  | none, none => .error (.noDisks address)
  | none, some r =>
    match displayChain r with
    | [] => .error (.noDisks address)
    | head :: _ =>
      .ok ((r.diskData.erase head).erase ((r.info.backingFile.map BackingFile.path).getD ""), head)

/-- The loop of `removeExtraDisks`. -/
def removeDisks (env : RebuildEnv) : List String → Remote → Remote × Option PrepareErr
  | [], r => (r, none)
  | disk :: rest, r =>
    match env.removeDisk disk with
    | some (.refused e) => (r, some (.removeDisk disk (.inl e)))
    | some (.lost e) => ((r.removeDiffDisk env.pick disk).1, some (.removeDisk disk (.inl e)))
    | none =>
      match r.removeDiffDisk env.pick disk with
      | (r, .error e) => (r, some (.removeDisk disk (.inr e)))
      | (r, .ok ()) => removeDisks env rest r

/-- `removeExtraDisks`. -/
def removeExtraDisks (env : RebuildEnv) (extraDisks : List String) (address : String)
    (r : Remote) : Remote × Option PrepareErr :=
  if extraDisks.length = 0 then (r, none)
  else
    match env.removeClient with
    | some e => (r, some (.removeClient address e))
    | none => removeDisks env extraDisks r

/-- `syncFile` of the metadata of a head. -/
def syncHeadMeta (env : RebuildEnv) (w : Cluster β) (fromHead toHead fromAddress toAddress : String) :
    Cluster β × Option PrepareErr :=
  match (w.remotes fromAddress).replica.bind (fun r => r.dir.metas.lookup fromHead) with
  | none => (w, some (.syncFile none))
  | some disk =>
    let done := w.set toAddress ((w.remotes toAddress).putMeta toHead disk)
    match env.syncFile with
    | some (.refused e) => (w, some (.syncFile (some e)))
    | some (.lost e) => (done, some (.syncFile (some e)))
    | none => (done, none)

/-- Each disk and its metadata file, which counts as empty. -/
def syncFileInfoList (env : RebuildEnv) (fromDisks : AList (fun _ : String => Disk))
    (address : String) : List SyncFileInfo :=
  (entries env.order fromDisks).flatMap (fun e =>
    [⟨e.1, e.1, env.diskSize address e.1⟩, ⟨e.1 ++ ".meta", e.1 ++ ".meta", 0⟩])

/-- What `PrepareRebuildReplica` does once it has found the two replicas. -/
def prepareFiles (env : RebuildEnv) (w : Cluster β) (address rwAddress : String) :
    Cluster β × Except PrepareErr (List SyncFileInfo) :=
  match w.getReplicaDisksAndHead env rwAddress, w.getReplicaDisksAndHead env address with
  | .error e, _ => (w, .error e)
  | .ok _, .error e => (w, .error e)
  | .ok (fromDisks, fromHead), .ok (toDisks, toHead) =>
    let extraDisks := ((entries env.order toDisks).map (fun e => e.1)).filter (· ∉ fromDisks)
    match removeExtraDisks env extraDisks address (w.remotes address) with
    | (r, some e) => (w.set address r, .error e)
    | (r, none) =>
      match (w.set address r).syncHeadMeta env fromHead toHead rwAddress address with
      | (w, some e) => (w, .error e)
      | (w, none) => (w, .ok (syncFileInfoList env fromDisks rwAddress))

/-- The checks of `PrepareRebuildReplica`, and what follows them. -/
def checkAndPrepare (env : RebuildEnv) (w : Cluster β) (address : String) :
    Cluster β × Except PrepareErr (List SyncFileInfo) :=
  match w.controller.getCurrentAndRWReplica address with
  | .error e => (w, .error (.noReplica e))
  | .ok (replica, rwReplica) =>
    if replica.mode ≠ .WO then (w, .error (.invalidMode replica.mode address))
    else w.prepareFiles env address rwReplica.address

/-- `PrepareRebuildReplica`. -/
def prepareRebuildReplica (env : RebuildEnv) (w : Cluster β) (address : String) :
    Option (Cluster β × Except PrepareErr (List SyncFileInfo)) :=
  if w.controller.revisionCounterDisabled then some (w.checkAndPrepare env address)
  else
    match w.setRevisionCounter address 0 env.setRevisionCounter with
    | none => none
    | some (w, some e) => some (w, .error (.setRevisionCounter address e))
    | some (w, none) => some (w.checkAndPrepare env address)

end Cluster

/-! ## Requests that are turned down -/

/-- The address is unknown, or not WO, or there is no RW replica to rebuild it from. -/
def PrepareErr.Rejects : PrepareErr → Prop
  | .setRevisionCounter _ (.noSuchBackend _) | .noReplica _ | .invalidMode _ _ => True
  | _ => False

namespace Cluster

/-- No counter, no disk and no mode differs. -/
structure Unchanged (w w' : Cluster β) : Prop where
  counters : ∀ a, (w'.remotes a).revisionCounter = (w.remotes a).revisionCounter
  disks : ∀ a, (w'.remotes a).replica = (w.remotes a).replica
  modes : w'.controller.replicas = w.controller.replicas

theorem Unchanged.refl (w : Cluster β) : Unchanged w w := ⟨fun _ => rfl, fun _ => rfl, rfl⟩

/-- **The request is harmless**: it uses no nil backend, and when it is turned down nothing changed. -/
def Harmless (env : RebuildEnv) (w : Cluster β) (address : String) : Prop :=
  ∃ w' res, w.prepareRebuildReplica env address = some (w', res)
    ∧ ∀ e, res = .error e → e.Rejects → Unchanged w w'

/-- The replica is WO, and another one is RW. -/
def Rebuildable (c : Controller β) (address : String) : Prop :=
  (∃ earlier r later, c.replicas = earlier ++ r :: later ∧ r.address = address ∧ r.mode = .WO
      ∧ ∀ s ∈ later, s.address ≠ address)
    ∧ ∃ r ∈ c.replicas, r.address ≠ address ∧ r.mode = .RW

theorem removeDisks_not_rejects (env : RebuildEnv) : ∀ (l : List String) (r : Remote)
    (e : PrepareErr),
    (removeDisks env l r).2 = some e → ¬ e.Rejects := by
  intro l
  induction l with
  | nil => exact fun r e h => absurd h (by simp [removeDisks])
  | cons disk rest ih =>
    intro r e h
    unfold removeDisks at h
    split at h
    · cases h
      exact id
    · cases h
      exact id
    · split at h
      · cases h
        exact id
      · exact ih _ e h

variable {e : PrepareErr}

theorem getReplicaDisksAndHead_not_rejects (env : RebuildEnv) (w : Cluster β) (address : String)
    (h : w.getReplicaDisksAndHead env address = .error e) : ¬ e.Rejects := by
  unfold getReplicaDisksAndHead at h
  split at h
  · cases h
    exact id
  · cases h
    exact id
  · split at h
    · cases h
      exact id
    · simp at h

/-- Once the checks are passed no error is a rejection. -/
theorem prepareFiles_not_rejects (env : RebuildEnv) (w : Cluster β) (address rwAddress : String)
    (h : (w.prepareFiles env address rwAddress).2 = .error e) : ¬ e.Rejects := by
  unfold prepareFiles at h
  split at h
  · rename_i e' he
    cases h
    exact getReplicaDisksAndHead_not_rejects env w rwAddress he
  · rename_i e' _ he
    cases h
    exact getReplicaDisksAndHead_not_rejects env w address he
  dsimp only at h
  split at h
  · -- the extra disks
    rename_i e' hrm
    cases h
    unfold removeExtraDisks at hrm
    split at hrm
    · simp at hrm
    split at hrm
    · cases hrm
      exact id
    · exact removeDisks_not_rejects env _ _ _ (congrArg Prod.snd hrm)
  · -- the metadata of the head
    split at h
    · rename_i w' e' hsync
      cases h
      unfold syncHeadMeta at hsync
      split at hsync
      · cases hsync
        exact id
      split at hsync
      · cases hsync
        exact id
      · cases hsync
        exact id
      · simp at hsync
    · simp at h

variable {address : String}

/-- The two replicas are found, and the first one is WO, if the replica can be rebuilt. -/
theorem rebuildable_iff {c : Controller β} : Rebuildable c address
    ↔ ∃ r rw, c.getCurrentAndRWReplica address = .ok (r, rw) ∧ r.mode = .WO := by
  constructor
  · rintro ⟨⟨earlier, r, later, hsplit, ha, hm, hlast⟩, rw, hrw, hne, hmode⟩
    have hcur : c.replicas.reverse.find? (fun r => r.address = address) = some r := by
      rw [hsplit, List.reverse_append, List.reverse_cons, List.append_assoc, List.singleton_append,
        List.find?_append, List.find?_eq_none.mpr (fun s hs => ?_), Option.none_or,
        List.find?_cons_of_pos (by simpa using ha)]
      simpa using hlast s (List.mem_reverse.mp hs)
    cases hpeer : c.replicas.reverse.find? (fun r => r.address ≠ address ∧ r.mode = .RW) with
    | none =>
      have := List.find?_eq_none.mp hpeer rw (List.mem_reverse.mpr hrw)
      exact absurd (decide_eq_true ⟨hne, hmode⟩) this
    | some peer =>
      refine ⟨r, peer, ?_, hm⟩
      unfold getCurrentAndRWReplica
      rw [hcur, hpeer]
  · rintro ⟨r, rw, hok, hm⟩
    obtain ⟨-, ha, hrw, hne, hmode⟩ := getCurrentAndRWReplica_ok hok
    refine ⟨?_, rw, hrw, hne, hmode⟩
    unfold getCurrentAndRWReplica at hok
    split at hok
    · simp at hok
    · simp at hok
    · rename_i x y hx _
      obtain ⟨rfl, -⟩ := Prod.mk.inj (Except.ok.inj hok)
      obtain ⟨-, as, bs, hsplit, hlast⟩ := List.find?_eq_some_iff_append.mp hx
      refine ⟨bs.reverse, x, as.reverse, ?_, ha, hm, fun s hs => ?_⟩
      · rw [← List.reverse_reverse c.replicas, hsplit, List.reverse_append, List.reverse_cons,
          List.append_assoc, List.singleton_append]
      · simpa using hlast s (List.mem_reverse.mp hs)

/-- **The checks.** A request that fails them changes nothing on the way. -/
theorem checkAndPrepare_rejected (env : RebuildEnv) (w : Cluster β)
    (h : ¬ Rebuildable w.controller address) :
    ∃ e, w.checkAndPrepare env address = (w, .error e) ∧ e.Rejects := by
  unfold checkAndPrepare
  split
  · rename_i e _
    exact ⟨.noReplica e, rfl, trivial⟩
  · rename_i r rw hok
    rw [if_pos (fun hm => h (rebuildable_iff.mpr ⟨r, rw, hok, hm⟩))]
    exact ⟨_, rfl, trivial⟩

theorem checkAndPrepare_not_rejects (env : RebuildEnv) (w : Cluster β)
    (h : Rebuildable w.controller address) (he : (w.checkAndPrepare env address).2 = .error e) :
    ¬ e.Rejects := by
  obtain ⟨r, rw, hok, hm⟩ := rebuildable_iff.mp h
  unfold checkAndPrepare at he
  rw [hok] at he
  dsimp only at he
  rw [if_neg (fun hne => hne hm)] at he
  exact prepareFiles_not_rejects env w address rw.address he

/-- What the counters are after the reset. -/
theorem unchanged_setRevisionCounter (w : Cluster β) (address : String) :
    Unchanged w (w.set address ((w.remotes address).setRevisionCounter 0))
      ↔ (w.remotes address).replica = none ∨ (w.remotes address).revisionCounter = 0 := by
  constructor
  · intro h
    have hc := h.counters address
    rw [remotes_set, if_pos rfl, Remote.setRevisionCounter] at hc
    cases hr : (w.remotes address).replica with
    | none => exact .inl rfl
    | some r =>
      rw [hr] at hc
      exact .inr hc.symm
  · intro h
    have hkeeps : ((w.remotes address).setRevisionCounter 0).revisionCounter
          = (w.remotes address).revisionCounter
        ∧ ((w.remotes address).setRevisionCounter 0).replica = (w.remotes address).replica := by
      unfold Remote.setRevisionCounter
      split
      · exact ⟨rfl, rfl⟩
      · rename_i hopen
        refine ⟨(h.resolve_left (fun hn => hopen ?_)).symm, rfl⟩
        rw [hn]
        rfl
    refine ⟨fun a => ?_, fun a => ?_, rfl⟩
    · rw [remotes_set]
      split
      · rename_i ha
        rw [ha, hkeeps.1]
      · rfl
    · rw [remotes_set]
      split
      · rename_i ha
        rw [ha, hkeeps.2]
      · rfl

/-- What the checks do to the state they find, in which only replicas may have changed. -/
theorem checkAndPrepare_harmless_iff (env : RebuildEnv) {w w₁ : Cluster β} (address : String)
    (hc : w₁.controller = w.controller) :
    (∃ w' res, some (w₁.checkAndPrepare env address) = some (w', res)
        ∧ ∀ e, res = .error e → e.Rejects → Unchanged w w')
      ↔ Rebuildable w.controller address ∨ Unchanged w w₁ := by
  by_cases hreb : Rebuildable w.controller address
  · refine iff_of_true ⟨_, _, rfl, fun e he hrej => ?_⟩ (.inl hreb)
    exact absurd hrej (checkAndPrepare_not_rejects env w₁ (hc ▸ hreb) he)
  · obtain ⟨e, he, hrej⟩ := @checkAndPrepare_rejected _ address env w₁ (hc ▸ hreb)
    rw [he]
    constructor
    · rintro ⟨w', res, heq, hall⟩
      obtain ⟨rfl, rfl⟩ := Prod.mk.inj (Option.some.inj heq)
      exact .inr (hall e rfl hrej)
    · intro h
      exact ⟨w₁, _, rfl, fun _ _ _ => h.resolve_left hreb⟩

/-- With a backend to reset the counter through. -/
theorem harmless_connected (env : RebuildEnv) {w : Cluster β} {b : β} {m : Mode}
    (hd : w.controller.revisionCounterDisabled = false)
    (hl : w.controller.backend.backends.lookup address = some ⟨some b, m⟩) :
    Harmless env w address ↔ Rebuildable w.controller address ∨ env.setRevisionCounter.isSome
      ∨ (w.remotes address).replica = none ∨ (w.remotes address).revisionCounter = 0 := by
  unfold Harmless prepareRebuildReplica setRevisionCounter
  rw [hd, hl, if_neg (by simp)]
  dsimp only
  rw [if_neg (by simp)]
  cases hf : env.setRevisionCounter with
  | some f =>
    -- the error is that of the call, and no rejection
    refine iff_of_true ?_ (.inr (.inl rfl))
    cases f with
    | refused e =>
      refine ⟨_, _, rfl, fun e' he hrej => ?_⟩
      cases he
      exact hrej.elim
    | lost e =>
      refine ⟨_, _, rfl, fun e' he hrej => ?_⟩
      cases he
      exact hrej.elim
  | none =>
    rw [checkAndPrepare_harmless_iff env address
      (show (w.set address ((w.remotes address).setRevisionCounter 0)).controller = w.controller
        from rfl), unchanged_setRevisionCounter]
    simp

/--
**When a request is harmless.** Either there is no counter to reset; or the address is
unknown; or the backend is there and the request passes the checks, or the counter is
not reset, or it was 0.
-/
theorem prepareRebuildReplica_harmless_iff (env : RebuildEnv) (w : Cluster β) (address : String) :
    Harmless env w address ↔
      w.controller.revisionCounterDisabled = true
        ∨ address ∉ w.controller.backend.backends
        ∨ ∃ b m, w.controller.backend.backends.lookup address = some ⟨some b, m⟩
          ∧ (Rebuildable w.controller address ∨ env.setRevisionCounter.isSome
            ∨ (w.remotes address).replica = none ∨ (w.remotes address).revisionCounter = 0) := by
  cases hd : w.controller.revisionCounterDisabled with
  | true =>
    refine iff_of_true ?_ (.inl rfl)
    unfold Harmless prepareRebuildReplica
    rw [hd, if_pos rfl, checkAndPrepare_harmless_iff env address rfl]
    exact .inr (Unchanged.refl w)
  | false =>
    cases hl : w.controller.backend.backends.lookup address with
    | none =>
      refine iff_of_true ?_ (.inr (.inl ?_))
      · unfold Harmless prepareRebuildReplica setRevisionCounter
        rw [hd, hl]
        exact ⟨w, _, rfl, fun _ _ _ => Unchanged.refl w⟩
      · rw [mem_iff_lookup, hl]
        simp
    | some bw =>
      obtain ⟨b, m⟩ := bw
      have hmem : address ∈ w.controller.backend.backends := (mem_iff_lookup _ _).mpr ⟨_, hl⟩
      cases b with
      | none =>
        -- the method is called on a nil backend
        refine iff_of_false ?_ ?_
        · unfold Harmless prepareRebuildReplica setRevisionCounter
          rw [hd, hl]
          simp
        · rintro (h | h | ⟨b, m', h, -⟩)
          · simp at h
          · exact h hmem
          · simp at h
      | some b =>
        rw [harmless_connected env hd hl]
        constructor
        · intro h
          exact .inr (.inr ⟨b, m, rfl, h⟩)
        · rintro (h | h | ⟨b', m', -, h⟩)
          · simp at h
          · exact absurd hmem h
          · exact h

end Cluster

/-! ## A healthy replica loses its counter -/

/-- Every call succeeds. -/
def RebuildEnv.calm : RebuildEnv where
  order := .listed
  pick := fun _ => ""
  diskSize := fun _ _ => 0
  setRevisionCounter := none
  getReplica := fun _ => none
  removeClient := none
  removeDisk := fun _ => none
  syncFile := none

/-- Two healthy replicas of one sector, both with their counter at 7. -/
def healthyPair : Cluster Nat where
  controller := { Controller.pair with revisionCounterDisabled := false }
  remotes := fun _ => ⟨7, (WeftBlock.Replica.construct (Dir.recovered (fun _ => File.empty 0) 4096)
    WeftBlock.Replica.oneSector).toOption⟩

/-- A request to rebuild a healthy replica is turned down, and its counter is 0. -/
theorem healthyPair_loses_counter :
    ∃ w', healthyPair.prepareRebuildReplica .calm "a" = some (w', .error (.invalidMode .RW "a"))
      ∧ (healthyPair.remotes "a").revisionCounter = 7 ∧ (w'.remotes "a").revisionCounter = 0
      ∧ ¬ Cluster.Harmless .calm healthyPair "a" := by
  have hd : healthyPair.controller.revisionCounterDisabled = false := rfl
  have hl : healthyPair.controller.backend.backends.lookup "a" = some ⟨some 1, .RW⟩ := by rfl
  have hcur : healthyPair.controller.getCurrentAndRWReplica "a" = .ok (⟨"a", .RW⟩, ⟨"b", .RW⟩) := by
    rfl
  have hopen : (healthyPair.remotes "a").replica.isNone = false := by decide +kernel
  have hrun : healthyPair.prepareRebuildReplica .calm "a"
      = some (healthyPair.set "a" ((healthyPair.remotes "a").setRevisionCounter 0),
          .error (.invalidMode .RW "a")) := by
    unfold Cluster.prepareRebuildReplica Cluster.setRevisionCounter Cluster.checkAndPrepare
    rw [hd, hl]
    dsimp only [RebuildEnv.calm]
    rw [if_neg (by simp), if_neg (by simp)]
    dsimp only
    rw [show (healthyPair.set "a" ((healthyPair.remotes "a").setRevisionCounter 0)).controller
      = healthyPair.controller from rfl, hcur]
    dsimp only
    rw [if_pos (by simp)]
  have hzero : ((healthyPair.set "a" ((healthyPair.remotes "a").setRevisionCounter 0)).remotes
      "a").revisionCounter = 0 := by
    rw [Cluster.remotes_set, if_pos rfl, Remote.setRevisionCounter, if_neg (by rw [hopen]; simp)]
  refine ⟨_, hrun, rfl, hzero, ?_⟩
  rintro ⟨w', res, heq, h⟩
  obtain ⟨rfl, rfl⟩ := Prod.mk.inj (Option.some.inj (hrun.symm.trans heq))
  have hsame := (h _ rfl trivial).counters "a"
  rw [hzero] at hsame
  exact absurd hsame (by decide)

end Controller

end WeftBlock
