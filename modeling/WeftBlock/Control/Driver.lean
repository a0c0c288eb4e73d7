import WeftBlock.Control.Rereplicate

/-!
# The calls of the volume driver

`EnsureVolume`, `DestroyVolume`, `AttachVolume` and `DetachVolume` of `cmd/weft-block/driver.go`,
and `CreateFromSnapshot` of `control/clone.go`. Each writes several records, one operation after
the other. A driver runs one of its calls at a time; the drivers of different hosts share nothing
but the store.
-/

namespace WeftBlock.Control

open Programs

/-- `drivers.VolumeSpec`. -/
structure VolumeSpec where
  uuid : String
  projectUUID : String
  name : String
  sizeGiB : Int

/-- `CloneRequest`. -/
structure CloneRequest where
  parentVolumeUUID : String
  snapshotName : String
  newVolumeUUID : String
  newVolumeName : String

/-- The errors of the driver. -/
inductive Err
  /-- An error of the store, passed on. -/
  | store (e : StoreErr)
  /-- `load volume %s` -/
  | loadVolume (uuid : String) (e : StoreErr)
  /-- `persist volume` -/
  | persistVolume (e : StoreErr)
  /-- `placement` -/
  | placement (e : PlaceErr)
  /-- `persist replica %s` -/
  | persistReplica (uuid : String) (e : StoreErr)
  /-- `shrink %d → %d not allowed (grow-only)` -/
  | shrink (cur desired : Int)
  /-- `volume %s` -/
  | volume (uuid : String) (e : StoreErr)
  /-- `engine %s reached Running but FrontendPath empty` -/
  | emptyPath (engine : String)
  /-- `engine %s reached Faulted state` -/
  | faulted (engine : String)
  /-- `AttachVolume(%s, %s) timed out`, or the caller's context is done. -/
  | timedOut (volumeUUID hostUUID : String)
  /-- `ErrCloneInvalid`: two fields are required. -/
  | cloneInvalid (fields : String)
  /-- `clone: load parent %s` -/
  | cloneParent (uuid : String) (e : StoreErr)
  /-- `clone: load destination %s` -/
  | cloneDestination (uuid : String) (e : StoreErr)
  /-- `clone: placement` -/
  | clonePlacement (e : PlaceErr)
  /-- `clone: persist new volume` -/
  | cloneVolume (e : StoreErr)
  /-- `clone: persist replica %s` -/
  | cloneReplica (uuid : String) (e : StoreErr)
  /-- `clone: re-read new volume` -/
  | cloneReread (e : StoreErr)
deriving DecidableEq

/-- `effectiveReplicaCount`. -/
def effectiveReplicaCount (hostCount : Nat) : Int :=
  if hostCount ≥ 3 then 3 else if hostCount > 0 then hostCount else 1

theorem effectiveReplicaCount_pos (n : Nat) : 0 < effectiveReplicaCount n := by
  rw [effectiveReplicaCount]
  split
  · omega
  · split <;> omega

/-- The UUID of the replica at a position, `%s-r%d`. -/
def replicaUUID (volumeUUID : String) (i : Nat) : String := volumeUUID ++ "-r" ++ toString i

/-- The first replica records of a volume, from a position on. -/
def initialReplicas (volumeUUID sourceVolumeUUID sourceSnapshot : String) :
    Nat → List HostCandidate → List Replica
  | _, [] => []
  | i, h :: picks =>
    { uuid := replicaUUID volumeUUID i
      volumeUUID := volumeUUID
      hostUUID := h.uuid
      dc := h.dc
      address := ""
      state := .pending
      sourceVolumeUUID := sourceVolumeUUID
      sourceSnapshot := sourceSnapshot }
    :: initialReplicas volumeUUID sourceVolumeUUID sourceSnapshot (i + 1) picks

/-- Put the records until one of the puts fails. -/
def putReplicas (failed : String → StoreErr → Err) : List Replica → Act (Except Err Unit)
  | [] => pure (.ok ())
  | r :: rs => do
      match ← putReplica r with
      | .error e => pure (.error (failed r.uuid e))
      | .ok _ => putReplicas failed rs

/-- The volume that `EnsureVolume` is asked for. -/
def desiredVolume (hosts : List HostCandidate) (spec : VolumeSpec) : Volume where
  uuid := spec.uuid
  projectUUID := spec.projectUUID
  name := spec.name
  sizeBytes := (spec.sizeGiB * 2 ^ 30).bmod (2 ^ 64)
  replicaCount := effectiveReplicaCount hosts.length
  state := .provisioning
  attachedTo := ""
  sourceVolumeUUID := ""
  sourceSnapshot := ""

/-- `EnsureVolume`. -/
def ensureVolume (hosts : List HostCandidate) (spec : VolumeSpec) : Act (Except Err Unit) := do
  let desired := desiredVolume hosts spec
  match ← getVolume spec.uuid with
  | .error .notFound =>
    match ← putVolume desired with
    | .error e => pure (.error (.persistVolume e))
    | .ok _ =>
      match placeReplicas hosts desired.replicaCount with
      | .error e => pure (.error (.placement e))
      | .ok picks => putReplicas .persistReplica (initialReplicas spec.uuid "" "" 0 picks)
  | .error e => pure (.error (.loadVolume spec.uuid e))
  | .ok cur =>
    if desired.sizeBytes < cur.sizeBytes then
      pure (.error (.shrink cur.sizeBytes desired.sizeBytes))
    else
      match ← putVolume { cur with sizeBytes := desired.sizeBytes, name := desired.name } with
      | .error e => pure (.error (.store e))
      | .ok _ => pure (.ok ())

/-- `DestroyVolume`. -/
def destroyVolume (volumeUUID : String) : Act (Except Err Unit) := do
  let rs ← listReplicasFor volumeUUID
  Prog.forEach (fun r => do let _ ← putReplica { r with state := .deleting }) (listed rs)
  match ← getVolume volumeUUID with
  | .error .notFound => pure (.ok ())
  | .error e => pure (.error (.store e))
  | .ok cur =>
    match ← putVolume { cur with state := .deleting } with
    | .error e => pure (.error (.store e))
    | .ok _ => pure (.ok ())

/-- The UUID of a new engine record, `%s@%s`. -/
def engineUUID (volumeUUID hostUUID : String) : String := volumeUUID ++ "@" ++ hostUUID

/-- A new engine record. -/
def newEngine (volumeUUID hostUUID : String) : Engine where
  uuid := engineUUID volumeUUID hostUUID
  volumeUUID := volumeUUID
  hostUUID := hostUUID
  frontendPath := ""
  state := .pending

/-- The UUID of the engine on a host, if there is one. -/
def engineOn (hostUUID : String) (engines : List Engine) : String :=
  match engines.find? (fun e => e.hostUUID = hostUUID) with
  | some e => e.uuid
  | none => ""

/-- The wait of `AttachVolume` for the engine; there is time for so many looks at it. -/
def pollEngine (volumeUUID hostUUID engine : String) : Nat → Act (Except Err String)
  | 0 => pure (.error (.timedOut volumeUUID hostUUID))
  | polls + 1 => do
      match ← getEngine engine with
      | .error e => pure (.error (.store e))
      | .ok e =>
        match e.state with
        | .running =>
          if e.frontendPath = "" then pure (.error (.emptyPath e.uuid))
          else pure (.ok e.frontendPath)
        | .faulted => pure (.error (.faulted e.uuid))
        | _ => pollEngine volumeUUID hostUUID engine polls

/-- `AttachVolume`. -/
def attachVolume (volumeUUID hostUUID : String) (polls : Nat) : Act (Except Err String) := do
  match ← getVolume volumeUUID with
  | .error e => pure (.error (.volume volumeUUID e))
  | .ok vol =>
    let engines ← listEnginesFor volumeUUID
    let engine := engineOn hostUUID (listed engines)
    if engine = "" then
      match ← putEngine (newEngine volumeUUID hostUUID) with
      | .error e => pure (.error (.store e))
      | .ok _ =>
        let _ ← putVolume { vol with attachedTo := hostUUID, state := .attached }
        pollEngine volumeUUID hostUUID (engineUUID volumeUUID hostUUID) polls
    else pollEngine volumeUUID hostUUID engine polls

/-- Mark the engines for deletion until one of the puts fails. -/
def deleteEngines : List Engine → Act (Except Err Unit)
  | [] => pure (.ok ())
  | e :: es => do
      match ← putEngine { e with state := .deleting } with
      | .error err => pure (.error (.store err))
      | .ok _ => deleteEngines es

/-- `DetachVolume`. -/
def detachVolume (volumeUUID hostUUID : String) : Act (Except Err Unit) := do
  let engines ← listEnginesFor volumeUUID
  match ← deleteEngines ((listed engines).filter (fun e => e.hostUUID = hostUUID)) with
  | .error e => pure (.error e)
  | .ok _ =>
    match ← getVolume volumeUUID with
    | .error _ => pure (.ok ())
    | .ok vol =>
      if vol.attachedTo = hostUUID then do
        let _ ← putVolume { vol with attachedTo := "", state := .healthy }
        pure (.ok ())
      else pure (.ok ())

/-- The volume that `CreateFromSnapshot` creates. -/
def cloneVolume (parent : Volume) (req : CloneRequest) : Volume where
  uuid := req.newVolumeUUID
  projectUUID := parent.projectUUID
  name := req.newVolumeName
  sizeBytes := parent.sizeBytes
  replicaCount := if parent.replicaCount ≤ 0 then 1 else parent.replicaCount
  state := .provisioning
  attachedTo := ""
  sourceVolumeUUID := req.parentVolumeUUID
  sourceSnapshot := req.snapshotName

/-- The volume as the store has it now. -/
def rereadVolume (uuid : String) : Act (Except Err Volume) := do
  match ← getVolume uuid with
  | .error e => pure (.error (.cloneReread e))
  | .ok final => pure (.ok final)

/-- `CreateFromSnapshot`. -/
def createFromSnapshot (hosts : List HostCandidate) (req : CloneRequest) :
    Act (Except Err Volume) := do
  if req.parentVolumeUUID = "" ∨ req.snapshotName = "" then
    pure (.error (.cloneInvalid "ParentVolumeUUID and SnapshotName required"))
  else if req.newVolumeUUID = "" ∨ req.newVolumeName = "" then
    pure (.error (.cloneInvalid "NewVolumeUUID and NewVolumeName required"))
  else
    match ← getVolume req.parentVolumeUUID with
    | .error e => pure (.error (.cloneParent req.parentVolumeUUID e))
    | .ok parent =>
      match ← getVolume req.newVolumeUUID with
      | .ok existing => pure (.ok existing)
      | .error .notFound =>
        let newVol := cloneVolume parent req
        match placeReplicas hosts newVol.replicaCount with
        | .error e => pure (.error (.clonePlacement e))
        | .ok picks =>
          match ← putVolume newVol with
          | .error e => pure (.error (.cloneVolume e))
          | .ok _ =>
            match ← putReplicas .cloneReplica (initialReplicas req.newVolumeUUID
              req.parentVolumeUUID req.snapshotName 0 picks) with
            | .error e => pure (.error e)
            | .ok _ => rereadVolume req.newVolumeUUID
      | .error e => pure (.error (.cloneDestination req.newVolumeUUID e))

/-! ## What the calls put -/

section Always

variable {P : Log Op Ans → Op → Prop} {log : Log Op Ans} {volumeUUID hostUUID : String}

theorem pollEngine_always (hget : ∀ log uuid, P log (.getEngine uuid)) (engine : String)
    (polls : Nat) : ∀ log : Log Op Ans,
      Prog.Always sem P (pollEngine volumeUUID hostUUID engine polls) (fun _ _ => True) log := by
  induction polls with
  | zero => exact fun _ => trivial
  | succ polls ih =>
    intro log
    refine Prog.always_next (hget _ _) (fun a _ => ?_)
    cases a with
    | error e => trivial
    | ok e =>
      dsimp only
      split
      · split <;> trivial
      · trivial
      · exact ih _

theorem putReplicas_always (hput : ∀ log r, P log (.putReplica r)) (failed : String → StoreErr → Err)
    (rs : List Replica) :
    ∀ log : Log Op Ans, Prog.Always sem P (putReplicas failed rs) (fun _ _ => True) log := by
  induction rs with
  | nil => exact fun _ => trivial
  | cons r rs ih =>
    intro log
    refine Prog.always_next (hput _ _) (fun a _ => ?_)
    cases a with
    | error e => trivial
    | ok u => exact ih _

/-- `EnsureVolume` puts the volume that is wanted, or the one that it has read in another size. -/
theorem ensureVolume_always {hosts : List HostCandidate} {spec : VolumeSpec}
    (hget : ∀ log uuid, P log (.getVolume uuid)) (hput : ∀ log r, P log (.putReplica r))
    (hnew : P (⟨.getVolume spec.uuid, .error .notFound⟩ :: log)
      (.putVolume (desiredVolume hosts spec)))
    (hold : ∀ cur, P (⟨.getVolume spec.uuid, .ok cur⟩ :: log) (.putVolume
      { cur with sizeBytes := (desiredVolume hosts spec).sizeBytes, name := spec.name })) :
    Prog.Always sem P (ensureVolume hosts spec) (fun _ _ => True) log := by
  refine Prog.always_next (hget _ _) (fun a _ => ?_)
  cases a with
  | ok cur =>
    dsimp only
    split
    · trivial
    · refine Prog.always_next (hold cur) (fun a _ => ?_)
      cases a <;> trivial
  | error e =>
    cases e with
    | notFound =>
      refine Prog.always_next hnew (fun a _ => ?_)
      cases a with
      | error e => trivial
      | ok u =>
        dsimp only
        split
        · trivial
        · exact putReplicas_always hput _ _ _
    | required => trivial
    | unavailable => trivial

/-- `AttachVolume` puts a new engine, and the volume that it has read as attached. -/
theorem attachVolume_always {polls : Nat} (hget : ∀ log uuid, P log (.getVolume uuid))
    (hlist : ∀ log uuid, P log (.listEnginesFor uuid)) (hpoll : ∀ log uuid, P log (.getEngine uuid))
    (hengine : ∀ log, P log (.putEngine (newEngine volumeUUID hostUUID)))
    (hvol : ∀ vol es a, P (⟨.putEngine (newEngine volumeUUID hostUUID), a⟩
        :: ⟨.listEnginesFor volumeUUID, es⟩ :: ⟨.getVolume volumeUUID, .ok vol⟩ :: log)
      (.putVolume { vol with attachedTo := hostUUID, state := .attached })) :
    Prog.Always sem P (attachVolume volumeUUID hostUUID polls) (fun _ _ => True) log := by
  refine Prog.always_next (hget _ _) (fun a _ => ?_)
  cases a with
  | error e => trivial
  | ok vol =>
    refine Prog.always_next (hlist _ _) (fun es _ => ?_)
    dsimp only
    split
    · refine Prog.always_next (hengine _) (fun a _ => ?_)
      cases a with
      | error e => trivial
      | ok u =>
        exact Prog.always_next (hvol vol es _)
          (fun _ _ => pollEngine_always hpoll _ _ _)
    · exact pollEngine_always hpoll _ _ _

end Always

end WeftBlock.Control
