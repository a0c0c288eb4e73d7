import WeftBlock.Lib.Programs
import WeftBlock.Lib.Tables

/-!
# The store of the control plane

Volumes, replicas and engines as `control/types.go` records them, and the operations that the
control plane is made of: those of a `VolumeStore`, and the calls to the `Spawner` of a host.
The store behaves as `MemStore`, except that any operation may also fail without an effect, as
those of the etcd binding may; it has no transactions.
-/

namespace WeftBlock.Control

open Maps Tables Programs

/-! ## Records -/

/-- `VolumeState`. -/
inductive VolumeState
  | provisioning | healthy | degraded | attached | detaching | deleting
deriving DecidableEq

/-- `ReplicaState`. -/
inductive ReplicaState
  | pending | running | faulted | deleting
deriving DecidableEq

/-- `Volume`. -/
structure Volume where
  uuid : String
  projectUUID : String
  name : String
  sizeBytes : Int
  replicaCount : Int
  state : VolumeState
  attachedTo : String
  sourceVolumeUUID : String
  sourceSnapshot : String
deriving DecidableEq

/-- `Replica`. -/
structure Replica where
  uuid : String
  volumeUUID : String
  hostUUID : String
  dc : String
  address : String
  state : ReplicaState
  sourceVolumeUUID : String
  sourceSnapshot : String
deriving DecidableEq

/-- `Engine`. -/
structure Engine where
  uuid : String
  volumeUUID : String
  hostUUID : String
  frontendPath : String
  state : ReplicaState
deriving DecidableEq

/-- `MemStore`. -/
structure Store where
  volumes : Table Volume String Volume.uuid
  replicas : Table Replica String Replica.uuid
  engines : Table Engine String Engine.uuid

/-- `NewMemStore`. -/
def newMemStore : Store := ⟨Table.empty, Table.empty, Table.empty⟩

/-! ## Operations -/

/-- What the store answers instead. -/
inductive StoreErr
  /-- `ErrNotFound` -/
  | notFound
  /-- A record without its UUIDs. -/
  | required
  /-- Anything else: the operation has not been done. -/
  | unavailable
deriving DecidableEq

/-- `ReplicaRequest`. -/
structure ReplicaRequest where
  replicaUUID : String
  volumeUUID : String
  volumeName : String
  sizeBytes : Int
  sectorSize : Int
  sourceVolumeUUID : String
  sourceVolumeName : String
  sourceSnapshot : String
  sourceReplicaAddresses : List String

/-- `EngineRequest`. -/
structure EngineRequest where
  engineUUID : String
  volumeUUID : String
  volumeName : String
  sizeBytes : Int
  sectorSize : Int
  replicaAddresses : List String

/-- The operations. -/
inductive Op
  | putVolume (v : Volume)
  | getVolume (uuid : String)
  | listVolumes
  | putReplica (r : Replica)
  | deleteReplica (uuid : String)
  | listReplicasFor (volumeUUID : String)
  | putEngine (e : Engine)
  | getEngine (uuid : String)
  | deleteEngine (uuid : String)
  | listEnginesFor (volumeUUID : String)
  | spawnReplica (req : ReplicaRequest)
  | stopReplica (uuid : String)
  | spawnEngine (req : EngineRequest)
  | stopEngine (uuid : String)

/-- What they answer; a spawn that fails answers nothing. -/
@[reducible] def Ans : Op → Type
  | .putVolume _ | .putReplica _ | .putEngine _ => Except StoreErr Unit
  | .deleteReplica _ | .deleteEngine _ => Except StoreErr Unit
  | .getVolume _ => Except StoreErr Volume
  | .getEngine _ => Except StoreErr Engine
  | .listVolumes => Except StoreErr (List Volume)
  | .listReplicasFor _ => Except StoreErr (List Replica)
  | .listEnginesFor _ => Except StoreErr (List Engine)
  | .spawnReplica _ | .spawnEngine _ => Option String
  | .stopReplica _ | .stopEngine _ => Unit

/-- What the store does not determine. -/
structure Env where
  /-- The operation fails. -/
  fails : Bool
  /-- The order of maps. -/
  order : MapOrder
  /-- What a spawn answers. -/
  spawned : Option String

/-- The operation does not fail. -/
def Reliable (x : Env) : Prop := x.fails = false

theorem Reliable.elim {Q : Prop} (x : Env) (hx : Reliable x) (hf : x.fails = true) : Q :=
  absurd (hx.symm.trans hf) (by simp)

/-- No failure, maps in the order they are listed. -/
def calm : Env := ⟨false, MapOrder.listed, none⟩

/-- An error instead of what the operation would do. -/
def Env.unless {α : Type} (x : Env) (s : Store) (done : Store × Except StoreErr α) :
    Store × Except StoreErr α :=
  if x.fails then (s, .error .unavailable) else done

/-- The operations of `MemStore`, and those of a spawner. -/
def sem (s : Store) : (o : Op) → Env → Store × Ans o
  | .putVolume v, x => x.unless s <|
      if v.uuid = "" then (s, .error .required)
      else ({ s with volumes := s.volumes.put v }, .ok ())
  | .getVolume uuid, x => x.unless s <|
      match s.volumes.get uuid with
      | none => (s, .error .notFound)
      | some v => (s, .ok v)
  | .listVolumes, x => x.unless s (s, .ok (s.volumes.list x.order))
  | .putReplica r, x => x.unless s <|
      if r.uuid = "" ∨ r.volumeUUID = "" then (s, .error .required)
      else ({ s with replicas := s.replicas.put r }, .ok ())
  | .deleteReplica uuid, x => x.unless s ({ s with replicas := s.replicas.delete uuid }, .ok ())
  | .listReplicasFor volumeUUID, x => x.unless s
      (s, .ok ((s.replicas.list x.order).filter (fun r => r.volumeUUID = volumeUUID)))
  | .putEngine e, x => x.unless s <|
      if e.uuid = "" ∨ e.volumeUUID = "" then (s, .error .required)
      else ({ s with engines := s.engines.put e }, .ok ())
  | .getEngine uuid, x => x.unless s <|
      match s.engines.get uuid with
      | none => (s, .error .notFound)
      | some e => (s, .ok e)
  | .deleteEngine uuid, x => x.unless s ({ s with engines := s.engines.delete uuid }, .ok ())
  | .listEnginesFor volumeUUID, x => x.unless s
      (s, .ok ((s.engines.list x.order).filter (fun e => e.volumeUUID = volumeUUID)))
  | .spawnReplica _, x => (s, x.spawned)
  | .stopReplica _, _ => (s, ())
  | .spawnEngine _, x => (s, x.spawned)
  | .stopEngine _, _ => (s, ())

/-- Programs of the control plane. -/
abbrev Act (α : Type) := Prog Op Ans α

def putVolume (v : Volume) : Act (Except StoreErr Unit) := Prog.op (Op.putVolume v)

def getVolume (uuid : String) : Act (Except StoreErr Volume) := Prog.op (Op.getVolume uuid)

def listVolumes : Act (Except StoreErr (List Volume)) := Prog.op Op.listVolumes

def putReplica (r : Replica) : Act (Except StoreErr Unit) := Prog.op (Op.putReplica r)

def deleteReplica (uuid : String) : Act (Except StoreErr Unit) := Prog.op (Op.deleteReplica uuid)

def listReplicasFor (volumeUUID : String) : Act (Except StoreErr (List Replica)) :=
  Prog.op (Op.listReplicasFor volumeUUID)

def putEngine (e : Engine) : Act (Except StoreErr Unit) := Prog.op (Op.putEngine e)

def getEngine (uuid : String) : Act (Except StoreErr Engine) := Prog.op (Op.getEngine uuid)

def deleteEngine (uuid : String) : Act (Except StoreErr Unit) := Prog.op (Op.deleteEngine uuid)

def listEnginesFor (volumeUUID : String) : Act (Except StoreErr (List Engine)) :=
  Prog.op (Op.listEnginesFor volumeUUID)

def spawnReplica (req : ReplicaRequest) : Act (Option String) := Prog.op (Op.spawnReplica req)

def stopReplica (uuid : String) : Act Unit := Prog.op (Op.stopReplica uuid)

def spawnEngine (req : EngineRequest) : Act (Option String) := Prog.op (Op.spawnEngine req)

def stopEngine (uuid : String) : Act Unit := Prog.op (Op.stopEngine uuid)

/-- A list without the error that may come in its place, as in `rs, _ := ...`. -/
def listed {α : Type} : Except StoreErr (List α) → List α
  | .ok l => l
  | .error _ => []

/-! ## What an operation may change -/

/-- Writes volumes. -/
def Op.writesVolumes : Op → Bool
  | .putVolume _ => true
  | _ => false

/-- Writes replicas. -/
def Op.writesReplicas : Op → Bool
  | .putReplica _ | .deleteReplica _ => true
  | _ => false

/-- Writes engines. -/
def Op.writesEngines : Op → Bool
  | .putEngine _ | .deleteEngine _ => true
  | _ => false

/-- Everything that an operation may do to the store. -/
inductive Wrote (s : Store) : Op → Store → Prop
  | nothing (o : Op) : Wrote s o s
  | volume (v : Volume) : Wrote s (.putVolume v) { s with volumes := s.volumes.put v }
  | replica (r : Replica) : Wrote s (.putReplica r) { s with replicas := s.replicas.put r }
  | noReplica (uuid : String) :
      Wrote s (.deleteReplica uuid) { s with replicas := s.replicas.delete uuid }
  | engine (e : Engine) : Wrote s (.putEngine e) { s with engines := s.engines.put e }
  | noEngine (uuid : String) : Wrote s (.deleteEngine uuid) { s with engines := s.engines.delete uuid }

theorem unless_wrote {α : Type} {o : Op} {s : Store} {x : Env} {done : Store × Except StoreErr α}
    (h : Wrote s o done.1) : Wrote s o (x.unless s done).1 := by
  rw [Env.unless]
  split
  · exact .nothing o
  · exact h

theorem sem_wrote (s : Store) (o : Op) (x : Env) : Wrote s o (sem s o x).1 := by
  cases o with
  | putVolume v =>
    refine unless_wrote ?_
    split
    · exact .nothing _
    · exact .volume v
  | putReplica r =>
    refine unless_wrote ?_
    split
    · exact .nothing _
    · exact .replica r
  | putEngine e =>
    refine unless_wrote ?_
    split
    · exact .nothing _
    · exact .engine e
  | deleteReplica uuid => exact unless_wrote (.noReplica uuid)
  | deleteEngine uuid => exact unless_wrote (.noEngine uuid)
  | spawnReplica | stopReplica | spawnEngine | stopEngine => exact .nothing _
  | listVolumes | listReplicasFor | listEnginesFor => exact unless_wrote (.nothing _)
  | getVolume | getEngine =>
    refine unless_wrote ?_
    split <;> exact .nothing _

section

variable (s : Store) (x : Env) {o : Op}

theorem sem_volumes (ho : o.writesVolumes = false) :
    (sem s o x).1.volumes = s.volumes := by
  have h := sem_wrote s o x
  generalize (sem s o x).1 = s' at h
  cases h with
  | volume v => exact absurd ho (by simp [Op.writesVolumes])
  | _ => rfl

theorem sem_replicas (ho : o.writesReplicas = false) :
    (sem s o x).1.replicas = s.replicas := by
  have h := sem_wrote s o x
  generalize (sem s o x).1 = s' at h
  cases h with
  | replica r => exact absurd ho (by simp [Op.writesReplicas])
  | noReplica uuid => exact absurd ho (by simp [Op.writesReplicas])
  | _ => rfl

theorem sem_engines (ho : o.writesEngines = false) :
    (sem s o x).1.engines = s.engines := by
  have h := sem_wrote s o x
  generalize (sem s o x).1 = s' at h
  cases h with
  | engine e => exact absurd ho (by simp [Op.writesEngines])
  | noEngine uuid => exact absurd ho (by simp [Op.writesEngines])
  | _ => rfl

end

/-! ## Rules for the operations -/

variable {Q : Store → Except StoreErr Unit → Prop} {uuid : String}

section Rules

variable {E : Env → Prop} {s : Store}

theorem unless_cases {α : Type} {Q : Store → Except StoreErr α → Prop} {x : Env}
    {done : Store × Except StoreErr α} (hfail : x.fails = true → Q s (.error .unavailable))
    (hok : Q done.1 done.2) : Q (x.unless s done).1 (x.unless s done).2 := by
  rw [Env.unless]
  split
  · exact hfail (by assumption)
  · exact hok

theorem sat_putVolume {v : Volume} (hfail : ∀ x, E x → x.fails = true → Q s (.error .unavailable))
    (hreq : v.uuid = "" → Q s (.error .required))
    (hok : v.uuid ≠ "" → Q { s with volumes := s.volumes.put v } (.ok ())) :
    Prog.Sat sem E (putVolume v) s Q := by
  refine Prog.sat_op (fun x hx => unless_cases (hfail x hx) ?_)
  split
  · exact hreq (by assumption)
  · exact hok (by assumption)

theorem sat_getVolume {Q : Store → Except StoreErr Volume → Prop}
    (hfail : ∀ x, E x → x.fails = true → Q s (.error .unavailable))
    (hnone : s.volumes.get uuid = none → Q s (.error .notFound))
    (hok : ∀ v, s.volumes.get uuid = some v → Q s (.ok v)) :
    Prog.Sat sem E (getVolume uuid) s Q := by
  refine Prog.sat_op (fun x hx => unless_cases (hfail x hx) ?_)
  split
  · exact hnone (by assumption)
  · exact hok _ (by assumption)

theorem sat_listVolumes {Q : Store → Except StoreErr (List Volume) → Prop}
    (hfail : ∀ x, E x → x.fails = true → Q s (.error .unavailable))
    (hok : ∀ vols : List Volume, vols.Perm s.volumes.rows → Q s (.ok vols)) :
    Prog.Sat sem E listVolumes s Q :=
  Prog.sat_op (fun x hx => unless_cases (hfail x hx) (hok _ (s.volumes.perm_list x.order)))

variable {volumeUUID : String}

theorem sat_listReplicasFor {Q : Store → Except StoreErr (List Replica) → Prop}
    (hfail : ∀ x, E x → x.fails = true → Q s (.error .unavailable))
    (hok : ∀ rs : List Replica,
      rs.Perm (s.replicas.rows.filter (fun r => r.volumeUUID = volumeUUID)) → Q s (.ok rs)) :
    Prog.Sat sem E (listReplicasFor volumeUUID) s Q :=
  Prog.sat_op (fun x hx => unless_cases (hfail x hx)
    (hok _ ((s.replicas.perm_list x.order).filter _)))

theorem sat_putEngine {e : Engine} (hfail : ∀ x, E x → x.fails = true → Q s (.error .unavailable))
    (hreq : e.uuid = "" ∨ e.volumeUUID = "" → Q s (.error .required))
    (hok : ¬ (e.uuid = "" ∨ e.volumeUUID = "") →
      Q { s with engines := s.engines.put e } (.ok ())) :
    Prog.Sat sem E (putEngine e) s Q := by
  refine Prog.sat_op (fun x hx => unless_cases (hfail x hx) ?_)
  split
  · exact hreq (by assumption)
  · exact hok (by assumption)

theorem sat_getEngine {Q : Store → Except StoreErr Engine → Prop}
    (hany : ∀ r, Q s r) : Prog.Sat sem E (getEngine uuid) s Q := by
  refine Prog.sat_op (fun x _ => unless_cases (fun _ => hany _) ?_)
  split
  · exact hany _
  · exact hany _

theorem sat_deleteEngine {uuid : String}
    (hfail : ∀ x, E x → x.fails = true → Q s (.error .unavailable))
    (hok : Q { s with engines := s.engines.delete uuid } (.ok ())) :
    Prog.Sat sem E (deleteEngine uuid) s Q :=
  Prog.sat_op (fun x hx => unless_cases (hfail x hx) hok)

theorem sat_listEnginesFor {Q : Store → Except StoreErr (List Engine) → Prop}
    (hfail : ∀ x, E x → x.fails = true → Q s (.error .unavailable))
    (hok : ∀ es : List Engine,
      es.Perm (s.engines.rows.filter (fun e => e.volumeUUID = volumeUUID)) → Q s (.ok es)) :
    Prog.Sat sem E (listEnginesFor volumeUUID) s Q :=
  Prog.sat_op (fun x hx => unless_cases (hfail x hx)
    (hok _ ((s.engines.perm_list x.order).filter _)))

theorem sat_spawnEngine {req : EngineRequest} {Q : Store → Option String → Prop}
    (h : ∀ x, E x → Q s x.spawned) : Prog.Sat sem E (spawnEngine req) s Q :=
  Prog.sat_op h

theorem sat_stopEngine {Q : Store → Unit → Prop} (h : Q s ()) :
    Prog.Sat sem E (stopEngine uuid) s Q :=
  Prog.sat_op (fun _ _ => h)

end Rules

end WeftBlock.Control
