import WeftBlock.Control.Deletion
import WeftBlock.Control.Provision

/-!
# What an engine is started on

`reconcileEngine` waits until every replica in the listing that its tick has made is running. It
does not ask how many there are. A volume is written before its replicas are, one operation after
the other, and a listing that fails counts as an empty one; so a tick may come at a time when the
replicas are few, or none, and start an engine on those.

What can be said: an engine is started on the replicas as its tick has read them, all of them
running. It is started on the full set if each listing that a tick goes by finds the full set, or
one of the replicas not running yet.
-/

namespace WeftBlock.Control

open Maps Tables Programs

variable {a : Except StoreErr (List Replica)} {log : Log Op Ans}

namespace FullStart

open Deletion (sourceRead listEnginesFor_answer)
open Provision (replicasOf)

/-- The calls of the drivers, and the ticks. -/
inductive Call
  | ensure (hosts : List HostCandidate) (spec : VolumeSpec)
  | attach (volumeUUID hostUUID : String) (polls : Nat)
  | tick (host : String) (live : Option HostLiveness)

/-- The program of a call. -/
def Call.prog : Call → Act Unit
  | .ensure hosts spec => (ensureVolume hosts spec).discard
  | .attach volumeUUID hostUUID polls => (attachVolume volumeUUID hostUUID polls).discard
  | .tick host live => Control.tick host live

/-- Everybody who writes, and the store. -/
abbrev Agents := World Call Store Op Ans

/-- One operation of a call, or a new call. -/
def step : Agents → Event Call Env → Option Agents := World.step sem Call.prog

/-- A new cluster. -/
def fresh : Agents := ⟨newMemStore, []⟩

/-! ## The property -/

/-- The last thing the call did was to have the engine spawned, on the replicas `rs`. -/
def SpawnedOn (log : Log Op Ans) (e : Engine) (rs : List Replica) : Prop :=
  ∃ req path rest, log = ⟨.spawnEngine req, some path⟩ :: rest ∧ req.engineUUID = e.uuid
    ∧ req.volumeUUID = e.volumeUUID ∧ req.replicaAddresses = rs.map Replica.address

/-- All the replicas that the volume is to have, running, and at least one. -/
structure FullSet (s : Store) (volumeUUID : String) (rs : List Replica) : Prop where
  listed : rs.Perm (replicasOf volumeUUID s)
  count : ∃ vol, s.volumes.get volumeUUID = some vol ∧ (rs.length : Int) = vol.replicaCount
  some : rs ≠ []
  reachable : ∀ r ∈ rs, r.state = .running ∧ r.address ≠ ""

/--
**Every engine starts on a full set.** Whenever the record of an engine goes from Pending to
Running, the same call has listed the replicas of the volume some steps before, when the store had
the full set of them, and has had the engine spawned on these.
-/
def StartsFull (events : List (Event Call Env)) : Prop :=
  ∀ k w i x log e, Runs.run step fresh (events.take k) = some w → events[k]? = some (.step i x) →
    w.pending i = some (log, .putEngine e) → x.fails = false → e.state = .running →
    (w.store.engines.get e.uuid).map Engine.state = some .pending →
    ∃ j < k, ∃ v y earlier rs, Runs.run step fresh (events.take j) = some v
      ∧ events[j]? = some (.step i y)
      ∧ v.pending i = some (earlier, .listReplicasFor e.volumeUUID)
      ∧ FullSet v.store e.volumeUUID rs ∧ SpawnedOn log e rs

/-- The volume has as many replicas as it is to have, or one that is not running. -/
def Settled (s : Store) (volumeUUID : String) : Prop :=
  (∃ r ∈ replicasOf volumeUUID s, reachable r = false)
    ∨ ∃ vol ∈ s.volumes.get volumeUUID, ((replicasOf volumeUUID s).length : Int) = vol.replicaCount

/-- The volume whose replicas are listed. -/
def listedBy : Op → Option String
  | .listReplicasFor volumeUUID => some volumeUUID
  | _ => none

/--
A tick that lists the replicas of a volume gets an answer, and finds the volume settled. (Not so
when it looks up the source of a clone.)
-/
def FindsSettled (w : Agents) : Event Call Env → Prop
  | .start _ => True
  | .step i x => ∀ p ∈ w.pending i, ∀ volumeUUID ∈ listedBy p.2, sourceRead p.1 = false →
      x.fails = false ∧ Settled w.store volumeUUID

instance (w : Agents) (event : Event Call Env) : Decidable (FindsSettled w event) := by
  cases event <;> unfold FindsSettled
  · infer_instance
  · unfold Settled
    infer_instance

/-! ## What the calls put -/

/-- The call has read `a` as the replicas of the volume. -/
def Reads (volumeUUID : String) (a : Except StoreErr (List Replica)) (log : Log Op Ans) : Prop :=
  ∃ earlier, ⟨.listReplicasFor volumeUUID, a⟩ :: earlier <:+ log ∧ sourceRead earlier = false

theorem Reads.mono {volumeUUID : String} {log log' : Log Op Ans}
    (h : Reads volumeUUID a log) (hlog : log <:+ log') : Reads volumeUUID a log' := by
  obtain ⟨earlier, hsuffix, hsource⟩ := h
  exact ⟨earlier, hsuffix.trans hlog, hsource⟩

/--
An engine is put as running after it was spawned on the replicas as they were read, all of them
reachable. A volume is put with a count of at least one, or the one that was read.
-/
def Proper (_ : Call) (log : Log Op Ans) : Op → Prop
  | .putEngine e => e.state = .running → ∃ a, Reads e.volumeUUID a log
      ∧ (listed a).all Control.reachable = true ∧ SpawnedOn log e (listed a)
  | .putVolume v => 1 ≤ v.replicaCount
      ∨ ∃ uuid v₀, ⟨.getVolume uuid, .ok v₀⟩ ∈ log ∧ v₀.replicaCount = v.replicaCount
  | _ => True

section Programs

variable {c : Call}

theorem proper_of_replicasOnly {o : Op} (h : ReplicasOnly log o) :
    Proper c log o := by
  cases o with
  | putVolume v => exact absurd h.1 (by simp [Op.writesVolumes])
  | putEngine e => exact absurd h.2 (by simp [Op.writesEngines])
  | _ => trivial

theorem ensureVolume_proper (hosts : List HostCandidate) (spec : VolumeSpec) :
    Prog.Always sem (Proper c) (ensureVolume hosts spec) (fun _ _ => True) [] :=
  ensureVolume_always (fun _ _ => trivial) (fun _ _ => trivial)
    (.inl (Order.one_le_iff_pos.mpr (effectiveReplicaCount_pos _))) (fun cur => .inr ⟨_, cur, List.mem_cons_self, rfl⟩)

theorem attachVolume_proper (volumeUUID hostUUID : String) (polls : Nat) :
    Prog.Always sem (Proper c) (attachVolume volumeUUID hostUUID polls) (fun _ _ => True) [] :=
  attachVolume_always (fun _ _ => trivial) (fun _ _ => trivial) (fun _ _ => trivial)
    (fun _ hrun => absurd hrun (by simp [newEngine]))
    (fun vol _ _ => .inr ⟨volumeUUID, vol, by simp, rfl⟩)

theorem reconcileEngine_proper {v : Volume} {e : Engine}
    (hvol : e.volumeUUID = v.uuid) (hlog : Reads v.uuid a log) :
    Prog.Always sem (Proper c) (reconcileEngine v (listed a) e) (fun _ _ => True) log := by
  rw [reconcileEngine]
  split
  · split
    · rename_i hall
      refine Prog.always_next trivial (fun path _ => ?_)
      cases path with
      | none =>
        exact Prog.always_next (fun hrun => absurd hrun (by simp))
          (fun _ _ => trivial)
      | some path =>
        refine Prog.always_next (fun _ => ⟨a, ?_, hall, ?_⟩) (fun _ _ => trivial)
        · rw [show ({ e with frontendPath := path, state := .running } : Engine).volumeUUID = v.uuid
            from hvol]
          exact hlog.mono (List.suffix_cons _ _)
        · exact ⟨_, path, log, rfl, rfl, hvol.symm, rfl⟩
    · trivial
  · exact ⟨trivial, fun _ _ => ⟨trivial, fun _ _ => trivial⟩⟩
  · trivial

theorem reconcileVolume_proper (host : String) (v : Volume) (hlog : sourceRead log = false) :
    Prog.Always sem (Proper c) (reconcileVolume host v) (fun _ _ => True) log := by
  refine Prog.always_next trivial (fun rs _ => ?_)
  have hreads : Reads v.uuid rs (⟨.listReplicasFor v.uuid, rs⟩ :: log) :=
    ⟨log, List.suffix_refl _, hlog⟩
  -- the replicas
  refine Prog.always_bind (Prog.always_each (I := Reads v.uuid rs) hreads
    (fun r _ log h => ?_) (fun log hreads => ?_))
  · exact Prog.always_mono (Prog.always_suffix (Prog.always_imp (reconcileReplica_replicasOnly v r log)
      (fun _ _ => proper_of_replicasOnly))) (fun _ _ hq => h.mono hq.2)
  -- the engines
  refine Prog.always_next trivial (fun es hes => ?_)
  have hvol := listEnginesFor_answer hes
  refine Prog.always_each (I := Reads v.uuid rs) (hreads.mono (List.suffix_cons _ _))
    (fun e he log h => ?_) (fun _ _ => trivial)
  exact Prog.always_mono (Prog.always_suffix (reconcileEngine_proper
    (hvol e (List.mem_filter.mp he).1) h)) (fun _ _ hq => h.mono hq.2)

theorem tick_proper (host : String) (live : Option HostLiveness) :
    Prog.Always sem (Proper c) (Control.tick host live) (fun _ _ => True) [] := by
  refine Prog.always_next trivial (fun a _ => ?_)
  cases a with
  | error e => trivial
  | ok vols =>
    refine Prog.always_bind (Prog.always_each (I := fun log => sourceRead log = false) rfl
      (fun v _ log h => ?_) (fun log _ => ?_))
    · exact Prog.always_mono (Prog.always_imp (Prog.always_and (reconcileVolume_proper host v h)
        (@Deletion.reconcileVolume_follows (.tick host live) host v log h)) (fun _ _ => And.left))
        (fun _ _ => And.right)
    · cases live with
      | none => trivial
      | some live =>
        exact Prog.always_imp (rereplicateOrphans_replicasOnly live host log)
          (fun _ _ => proper_of_replicasOnly)

/-- **Every call is proper.** -/
theorem prog_proper (c : Call) : Prog.Always sem (Proper c) c.prog (fun _ _ => True) [] := by
  cases c with
  | ensure hosts spec => exact Prog.always_discard (ensureVolume_proper hosts spec)
  | attach volumeUUID hostUUID polls =>
    exact Prog.always_discard (attachVolume_proper volumeUUID hostUUID polls)
  | tick host live => exact tick_proper host live

end Programs

/-! ## Every interleaving -/

theorem kept_fresh : World.Kept sem Proper fresh := fun t ht => absurd ht (by simp [fresh])

/-- Every volume is to have a replica, as far as anybody knows. -/
structure Counted (w : Agents) : Prop where
  volumes : ∀ v ∈ w.store.volumes.rows, 1 ≤ v.replicaCount
  read : ∀ t ∈ w.threads, ∀ uuid v, ⟨.getVolume uuid, .ok v⟩ ∈ t.log → 1 ≤ v.replicaCount

theorem getVolume_answer {s : Store} {uuid : String} {x : Env} {v : Volume}
    (h : (sem s (.getVolume uuid) x).2 = .ok v) : v ∈ s.volumes.rows := by
  rw [sem, Env.unless] at h
  split at h
  · simp at h
  · split at h
    · simp at h
    · rename_i v' hv
      obtain rfl := Except.ok.inj h
      exact (Table.get_eq_some.mp hv).1

theorem step_counted {w w' : Agents} {event : Event Call Env} (hkept : World.Kept sem Proper w)
    (hw : Counted w) (h : step w event = some w') : Counted w' := by
  rcases World.step_cases h with ⟨c, rfl, rfl⟩ | ⟨i, x, c, log, o, next, rfl, hi, rfl⟩
  · refine ⟨hw.volumes, fun t ht => ?_⟩
    rcases List.mem_append.mp ht with ht | ht
    · exact hw.read t ht
    · obtain rfl := List.mem_singleton.mp ht
      exact fun _ _ hmem => absurd hmem List.not_mem_nil
  · have hmem := List.mem_of_getElem? hi
    have hproper : Proper c log o := (hkept _ hmem).1
    refine ⟨?_, fun t ht uuid v hv => ?_⟩
    · have hwrote := sem_wrote w.store o x
      generalize (sem w.store o x).1 = s' at hwrote
      cases hwrote with
      | volume v =>
        intro v' hv'
        rcases Table.mem_put.mp hv' with rfl | ⟨hold, -⟩
        · rcases hproper with hpos | ⟨uuid, v₀, hread, hcount⟩
          · exact hpos
          · rw [← hcount]
            exact hw.read _ hmem uuid v₀ hread
        · exact hw.volumes v' hold
      | nothing _ | replica _ | noReplica _ | engine _ | noEngine _ => exact hw.volumes
    · rcases List.mem_or_eq_of_mem_set ht with ht | rfl
      · exact hw.read t ht uuid v hv
      · rcases List.mem_cons.mp hv with heq | hv
        · obtain ⟨rfl, hans⟩ := Sigma.mk.inj heq
          exact hw.volumes v (getVolume_answer (eq_of_heq hans).symm)
        · exact hw.read _ hmem uuid v hv

theorem run_counted {w : Agents} {events : List (Event Call Env)}
    (hrun : Runs.run step fresh events = some w) : World.Kept sem Proper w ∧ Counted w := by
  have hstep : ∀ w event w', World.Kept sem Proper w ∧ Counted w → step w event = some w' →
      World.Kept sem Proper w' ∧ Counted w' := by
    intro w event w' h he
    exact ⟨World.kept_step prog_proper h.1 he, step_counted h.1 h.2 he⟩
  refine Runs.run_invariant hstep ⟨kept_fresh, ⟨fun v hv => ?_, fun t ht => ?_⟩⟩ hrun
  · exact absurd hv (by simp [fresh, newMemStore, Table.empty])
  · exact absurd ht (by simp [fresh])

/-- A listing that is answered, of a volume that is settled, and in which all are running. -/
theorem fullSet_of_settled {s : Store} {volumeUUID : String} {x : Env}
    (hcounts : ∀ v ∈ s.volumes.rows, 1 ≤ v.replicaCount) (hx : x.fails = false)
    (hsettled : Settled s volumeUUID)
    (ha : (sem s (.listReplicasFor volumeUUID) x).2 = a)
    (hall : (listed a).all Control.reachable = true) : FullSet s volumeUUID (listed a) := by
  have hperm : (listed a).Perm (replicasOf volumeUUID s) := by
    rw [← ha, sem, Env.unless, if_neg (by simp [hx])]
    exact (Table.perm_list s.replicas x.order).filter _
  have hreach : ∀ r ∈ listed a, Control.reachable r = true := fun r hr => List.all_eq_true.mp hall r hr
  rcases hsettled with ⟨r, hr, hnot⟩ | ⟨vol, hvol, hcount⟩
  · rw [hreach r (hperm.mem_iff.mpr hr)] at hnot
    simp at hnot
  · have hpos := hcounts vol (Table.get_eq_some.mp hvol).1
    rw [← hperm.length_eq] at hcount
    refine ⟨hperm, ⟨vol, hvol, hcount⟩, fun hnil => ?_, fun r hr => ?_⟩
    · rw [hnil, List.length_nil] at hcount
      omega
    · simpa [Control.reachable] using hreach r hr

/--
**Engines start on a full set**, in every interleaving of the calls and the ticks, operation by
operation and with any failures, in which each listing that a tick goes by is answered and finds
the volume settled.
-/
theorem run_startsFull (events : List (Event Call Env))
    (hsettled : Runs.Steady step FindsSettled fresh events) : StartsFull events := by
  intro k w i x log e hrun hk hpend hx hstate hold
  obtain ⟨hkept, -⟩ := run_counted hrun
  obtain ⟨c, next, ht⟩ := World.exists_of_pending hpend
  have hproper : Proper c log (.putEngine e) := (hkept _ (List.mem_of_getElem? ht)).1
  obtain ⟨a, ⟨earlier, hsuffix, hsource⟩, hall, hspawned⟩ := hproper hstate
  -- the listing that the call goes by was a step of the run
  obtain ⟨j, v, y, hv, hj, hlist, hans⟩ := World.log_origin rfl hrun ht hsuffix
  have hlt : j < k := by
    have := (List.getElem?_eq_some_iff.mp hj).1
    rw [List.length_take] at this
    omega
  rw [List.take_take, Nat.min_eq_left hlt.le] at hv
  rw [List.getElem?_take_of_lt hlt] at hj
  obtain ⟨hy, hset⟩ := hsettled.ok_at hv hj _ hlist _ rfl hsource
  exact ⟨j, hlt, v, y, earlier, listed a, hv, hj, hlist,
    fullSet_of_settled (run_counted hv).2.volumes hy hset hans hall, hspawned⟩

/-- The volume v, on a cluster of one host. -/
def ensureV : Call := .ensure [⟨"a", ""⟩] ⟨"v", "", "v", 1⟩

/-- A store that does not fail, and a spawner that does not fail either. -/
def smooth : Env := ⟨false, MapOrder.listed, some "addr"⟩

/-- The volume is made, its replica is started, it is attached, and the engine is started. -/
def inOrder : List (Event Call Env) :=
  .start ensureV :: List.replicate 3 (.step 0 smooth)
    ++ .start (.tick "a" none) :: List.replicate 5 (.step 1 smooth)
    ++ .start (.attach "v" "a" 0) :: List.replicate 4 (.step 2 smooth)
    ++ .start (.tick "a" none) :: List.replicate 5 (.step 3 smooth)

theorem run_startsFull_inOrder :
    (∃ w, Runs.run step fresh inOrder = some w ∧ ∃ e ∈ w.store.engines.rows, e.state = .running)
      ∧ StartsFull inOrder := by
  have hsettled : Runs.Steady step FindsSettled fresh inOrder := by decide +kernel
  exact ⟨⟨_, rfl, _, List.mem_cons_self, rfl⟩, run_startsFull inOrder hsettled⟩

/-- The same, but the write of the replica fails. -/
def halfMade : List (Event Call Env) :=
  [.start ensureV, .step 0 smooth, .step 0 smooth, .step 0 ⟨true, MapOrder.listed, none⟩]
    ++ .start (.attach "v" "a" 0) :: List.replicate 4 (.step 1 smooth)
    ++ .start (.tick "a" none) :: List.replicate 5 (.step 2 smooth)

/-- The engine is started on nothing. -/
theorem halfMade_startsEmpty :
    (∃ w, Runs.run step fresh halfMade = some w ∧ ∃ e ∈ w.store.engines.rows, e.state = .running)
      ∧ ¬ StartsFull halfMade := by
  refine ⟨⟨_, rfl, _, List.mem_cons_self, rfl⟩, fun h => ?_⟩
  obtain ⟨j, -, v, y, earlier, rs, -, -, -, hfull, req, path, rest, hlog, -, -, haddr⟩ :=
    h 14 _ 2 smooth _ _ rfl rfl rfl rfl rfl rfl
  have hreq := (Sigma.mk.inj (List.cons.inj hlog).1).1
  obtain rfl := Op.spawnEngine.inj hreq
  exact hfull.some (List.map_eq_nil_iff.mp haddr.symm)

end FullStart

end WeftBlock.Control
