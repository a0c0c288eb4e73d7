import WeftBlock.Control.Placement
import WeftBlock.Control.Store

/-!
# Re-replication

`RereplicateOrphans`: the sweep that replaces the replicas of dead hosts. For each volume it
reads the replica records, elects an owner among the hosts of the replicas that are left, and if
that is this host, marks the orphans faulted and puts new records on other hosts until there are
as many as the volume wants.
-/

namespace WeftBlock.Control

open Programs

/-- `HostLiveness`. -/
structure HostLiveness where
  liveHostUUIDs : List String
  placementCandidates : List HostCandidate

/-- The host is in the set of live hosts. -/
def HostLiveness.isLive (live : HostLiveness) (host : String) : Bool :=
  decide (host ∈ live.liveHostUUIDs)

/-- Running or pending on a live host. -/
def alive (live : HostLiveness) (r : Replica) : Bool :=
  (r.state == .running || r.state == .pending) && live.isLive r.hostUUID

/-- Not to be deleted, and on a dead host. -/
def orphaned (live : HostLiveness) (r : Replica) : Bool :=
  (r.state == .running || r.state == .pending || r.state == .faulted) && !live.isLive r.hostUUID

/-- The first one after `sort.Strings`. -/
def lowest (hosts : List String) : Option String := (hosts.insertionSort (· ≤ ·)).head?

/-- The owner election: the lowest host of the living replicas, or else of all live ones. -/
def ownerHost (live : HostLiveness) (aliveReplicas : List Replica) : Option String :=
  if aliveReplicas ≠ [] then lowest (aliveReplicas.map Replica.hostUUID)
  else lowest live.liveHostUUIDs

/-- The hosts that hold no replica of the volume and live. -/
def freeCandidates (live : HostLiveness) (rs : List Replica) : List HostCandidate :=
  live.placementCandidates.filter
    (fun c => decide (c.uuid ∉ rs.map Replica.hostUUID) && live.isLive c.uuid)

/-- `newReplicaUUID`. -/
def newReplicaUUID (volumeUUID hostUUID : String) : String :=
  volumeUUID ++ "-replacement-" ++ hostUUID

/-- The record of a replacement. -/
def newReplica (v : Volume) (p : HostCandidate) : Replica where
  uuid := newReplicaUUID v.uuid p.uuid
  volumeUUID := v.uuid
  hostUUID := p.uuid
  dc := p.dc
  address := ""
  state := .pending
  sourceVolumeUUID := v.sourceVolumeUUID
  sourceSnapshot := v.sourceSnapshot

/-- How many are missing. -/
def deficit (live : HostLiveness) (v : Volume) (rs : List Replica) : Int :=
  v.replicaCount - (rs.filter (alive live)).length

/-- The hosts of the replacements. -/
def replacements (live : HostLiveness) (v : Volume) (rs : List Replica) : List HostCandidate :=
  if deficit live v rs ≤ 0 then []
  else if freeCandidates live rs = [] then []
  else
    match placeReplicas (freeCandidates live rs)
      (min (deficit live v rs) (freeCandidates live rs).length) with
    | .error _ => []
    | .ok picks => picks

/-- Whether the sweep of a host acts on a volume with these records. -/
def acts (live : HostLiveness) (localHostUUID : String) (rs : List Replica) : Bool :=
  if rs.filter (orphaned live) = [] then false
  else
    match ownerHost live (rs.filter (alive live)) with
    | none => false
    | some owner => localHostUUID == "" || localHostUUID == owner

/-- Mark an orphan as faulted. -/
def faultOrphan (r : Replica) : Act Unit :=
  if r.state = .faulted then pure ()
  else do
    -- an error is logged
    let _ ← putReplica { r with state := .faulted }

/-- `processVolume`. -/
def processVolume (live : HostLiveness) (localHostUUID : String) (v : Volume) : Act Unit := do
  match ← listReplicasFor v.uuid with
  | .error _ => pure ()
  | .ok rs =>
    if acts live localHostUUID rs then do
      Prog.forEach faultOrphan (rs.filter (orphaned live))
      Prog.forEach (fun p => do let _ ← putReplica (newReplica v p)) (replacements live v rs)

/-- `RereplicateOrphans`. -/
def rereplicateOrphans (live : HostLiveness) (localHostUUID : String) : Act Unit := do
  match ← listVolumes with
  | .error _ => pure ()
  | .ok vols => Prog.forEach (processVolume live localHostUUID) vols

/-! ## A sweep writes replicas and nothing else -/

/-- Neither volumes nor engines. -/
def ReplicasOnly (_ : Log Op Ans) (o : Op) : Prop := o.writesVolumes = false ∧ o.writesEngines = false

theorem processVolume_replicasOnly (live : HostLiveness) (localHostUUID : String) (v : Volume)
    (log : Log Op Ans) :
    Prog.Always sem ReplicasOnly (processVolume live localHostUUID v) (fun _ _ => True) log := by
  refine Prog.always_next ⟨rfl, rfl⟩ (fun r _ => ?_)
  cases r with
  | error e => trivial
  | ok rs =>
    dsimp only
    split
    · refine Prog.always_bind (Prog.always_each (I := fun _ => True) trivial (fun r _ log _ => ?_) (fun log _ => ?_))
      · rw [faultOrphan]
        split
        · trivial
        · exact ⟨⟨rfl, rfl⟩, fun _ _ => trivial⟩
      · refine Prog.always_each (I := fun _ => True) trivial (fun p _ log _ => ?_) (fun _ _ => trivial)
        exact ⟨⟨rfl, rfl⟩, fun _ _ => trivial⟩
    · trivial

theorem rereplicateOrphans_replicasOnly (live : HostLiveness) (localHostUUID : String)
    (log : Log Op Ans) :
    Prog.Always sem ReplicasOnly (rereplicateOrphans live localHostUUID) (fun _ _ => True) log := by
  refine Prog.always_next ⟨rfl, rfl⟩ (fun r _ => ?_)
  cases r with
  | error e => trivial
  | ok vols =>
    exact Prog.always_each (I := fun _ => True) trivial
      (fun v _ log _ => processVolume_replicasOnly live localHostUUID v log) (fun _ _ => trivial)

end WeftBlock.Control
