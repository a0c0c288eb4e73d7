import WeftBlock.Control.Driver

/-!
# The reconcile loop of a host

`Loop.tick` of `pkg/reconcile/loop.go`: for each volume, the replica records of this host are
spawned or stopped as their state says, and then its engine records. An engine is started once
every replica of the volume is running. Every so many ticks the loop also sweeps for orphans.
-/

namespace WeftBlock.Control

open Programs

/-- `defaultSectorSize`. -/
def defaultSectorSize : Int := 4096

/-- The replica is running and can be reached. -/
def reachable (r : Replica) : Bool := decide (r.state = .running) && decide (r.address ≠ "")

/-- The request for a replica that starts empty. -/
def replicaRequest (v : Volume) (r : Replica) : ReplicaRequest where
  replicaUUID := r.uuid
  volumeUUID := v.uuid
  volumeName := v.name
  sizeBytes := v.sizeBytes
  sectorSize := defaultSectorSize
  sourceVolumeUUID := ""
  sourceVolumeName := ""
  sourceSnapshot := ""
  sourceReplicaAddresses := []

/-- Spawn the replica and record what came of it. -/
def startReplica (req : ReplicaRequest) (r : Replica) : Act Unit := do
  match ← spawnReplica req with
  | none =>
    let _ ← putReplica { r with state := .faulted }
  | some addr =>
    let _ ← putReplica { r with address := addr, state := .running }

/-- `reconcileReplica`. -/
def reconcileReplica (v : Volume) (r : Replica) : Act Unit := do
  match r.state with
  | .pending =>
    if r.sourceSnapshot ≠ "" ∧ r.sourceVolumeUUID ≠ "" then
      let parent ← getVolume r.sourceVolumeUUID
      let parentReplicas ← listReplicasFor r.sourceVolumeUUID
      let addresses := ((listed parentReplicas).filter reachable).map Replica.address
      -- nothing to copy from yet
      if addresses = [] then pure ()
      else startReplica { replicaRequest v r with
        sourceVolumeUUID := r.sourceVolumeUUID
        sourceVolumeName := match parent with | .ok p => p.name | .error _ => ""
        sourceSnapshot := r.sourceSnapshot
        sourceReplicaAddresses := addresses } r
    else startReplica (replicaRequest v r) r
  | .deleting =>
    stopReplica r.uuid
    let _ ← deleteReplica r.uuid
  | _ => pure ()

/-- `reconcileEngine`. -/
def reconcileEngine (v : Volume) (replicas : List Replica) (e : Engine) : Act Unit := do
  match e.state with
  | .pending =>
    if replicas.all reachable then
      match ← spawnEngine
        { engineUUID := e.uuid
          volumeUUID := v.uuid
          volumeName := v.name
          sizeBytes := v.sizeBytes
          sectorSize := defaultSectorSize
          replicaAddresses := replicas.map Replica.address } with
      | none =>
        let _ ← putEngine { e with state := .faulted }
      | some path =>
        let _ ← putEngine { e with frontendPath := path, state := .running }
    else pure ()
  | .deleting =>
    stopEngine e.uuid
    let _ ← deleteEngine e.uuid
  | _ => pure ()

/-- `reconcileVolume`. -/
def reconcileVolume (host : String) (v : Volume) : Act Unit := do
  let rs ← listReplicasFor v.uuid
  Prog.forEach (reconcileReplica v) ((listed rs).filter (fun r => r.hostUUID = host))
  let es ← listEnginesFor v.uuid
  Prog.forEach (reconcileEngine v (listed rs)) ((listed es).filter (fun e => e.hostUUID = host))

/-- `tick`; with a liveness view at the ticks that also sweep. -/
def tick (host : String) (live : Option HostLiveness) : Act Unit := do
  match ← listVolumes with
  | .error _ => pure ()
  | .ok vols =>
    Prog.forEach (reconcileVolume host) vols
    match live with
    | none => pure ()
    | some live => rereplicateOrphans live host

theorem startReplica_replicasOnly (req : ReplicaRequest) (r : Replica) (log : Log Op Ans) :
    Prog.Always sem ReplicasOnly (startReplica req r) (fun _ _ => True) log := by
  refine Prog.always_next ⟨rfl, rfl⟩ (fun addr _ => ?_)
  cases addr with
  | none => exact ⟨⟨rfl, rfl⟩, fun _ _ => trivial⟩
  | some addr => exact ⟨⟨rfl, rfl⟩, fun _ _ => trivial⟩

/-- What becomes of a replica touches neither volumes nor engines. -/
theorem reconcileReplica_replicasOnly (v : Volume) (r : Replica) (log : Log Op Ans) :
    Prog.Always sem ReplicasOnly (reconcileReplica v r) (fun _ _ => True) log := by
  rw [reconcileReplica]
  split
  · split
    · refine Prog.always_next ⟨rfl, rfl⟩ (fun parent _ => ?_)
      refine Prog.always_next ⟨rfl, rfl⟩ (fun rs _ => ?_)
      dsimp only
      split
      · trivial
      · exact startReplica_replicasOnly _ _ _
    · exact startReplica_replicasOnly _ _ _
  · exact ⟨⟨rfl, rfl⟩, fun _ _ => ⟨⟨rfl, rfl⟩, fun _ _ => trivial⟩⟩
  · trivial

end WeftBlock.Control
