import WeftBlock.Control.Driver

/-!
# Provisioning with failing writes

`EnsureVolume` and `CreateFromSnapshot` write the volume first and its replicas after it. A call
that is repeated finds the volume and takes everything else for granted. So the replicas are those
that the call which wrote the volume wrote with it.
-/

namespace WeftBlock.Control

open Maps Tables Programs

namespace Provision

/-- A call for the volume. -/
inductive Call
  | ensure (projectUUID name : String) (sizeGiB : Int)
  | clone (parentVolumeUUID snapshotName newVolumeName : String)

variable (hosts : List HostCandidate) (v : String)

/-- Whether a call returned no error. -/
def isNil {α : Type} : Except Err α → Bool
  | .ok _ => true
  | .error _ => false

/-- The program of a call, and whether it returns nil. -/
def Call.prog : Call → Act Bool
  | .ensure projectUUID name sizeGiB =>
    (ensureVolume hosts ⟨v, projectUUID, name, sizeGiB⟩).bind (fun r => .done (isNil r))
  | .clone parent snapshot name =>
    (createFromSnapshot hosts ⟨parent, snapshot, v, name⟩).bind (fun r => .done (isNil r))

/-- The store, and whether the last call returned nil. -/
structure After where
  store : Store
  nil : Bool

/-- A call, with what the store does not determine. -/
structure Event where
  call : Call
  env : Nat → Env

/-- A call run by itself. -/
def step (a : After) (e : Event) : Option After :=
  let r := Prog.exec sem (e.call.prog hosts v) e.env a.store
  some ⟨r.1, r.2.1⟩

/-- The replica records of the volume. -/
def replicasOf (s : Store) : List Replica := s.replicas.rows.filter (fun r => r.volumeUUID = v)

/-- **The volume with all its replicas**, on hosts of their own. -/
def Provisioned (s : Store) : Prop :=
  ∃ vol, s.volumes.get v = some vol ∧ ((replicasOf v s).length : Int) = vol.replicaCount
    ∧ ((replicasOf v s).map Replica.hostUUID).Nodup

/-- How many replicas the volume of a call is to have. -/
def Call.count (s : Store) : Call → Int
  | .ensure _ _ _ => effectiveReplicaCount hosts.length
  | .clone parent _ _ =>
    match s.volumes.get parent with
    | none => 0
    | some p => if p.replicaCount ≤ 0 then 1 else p.replicaCount

/-- After how many operations a call comes to the replicas. -/
def Call.before : Call → Nat
  | .ensure _ _ _ => 2
  | .clone _ _ _ => 3

/-- The call gets as far as writing the volume. -/
def Call.Persists (s : Store) (env : Nat → Env) (c : Call) : Prop :=
  v ≠ "" ∧ (∀ i < c.before, (env i).fails = false) ∧
    match c with
    | .ensure _ _ _ => True
    | .clone parent snapshot name => parent ≠ "" ∧ snapshot ≠ "" ∧ name ≠ ""
        ∧ (s.volumes.get parent).isSome = true ∧ c.count hosts s ≤ hosts.length

/-- A call that writes the volume writes all its replicas. -/
def Uninterrupted (a : After) (e : Event) : Prop :=
  a.store.volumes.get v = none → e.call.Persists hosts v a.store e.env →
    e.call.count hosts a.store ≤ hosts.length
      ∧ ∀ i : Nat, (i : Int) < e.call.count hosts a.store → (e.env (e.call.before + i)).fails = false

/-! ## The records of the replicas -/

variable {hosts} {v}

theorem replicaUUID_inj {i j : Nat} (h : replicaUUID v i = replicaUUID v j) : i = j := by
  have hl := congrArg String.toList h
  simp only [replicaUUID, String.toList_append, List.append_cancel_left_eq] at hl
  exact Nat.repr_inj.mp (String.toList_inj.mp hl)

theorem replicaUUID_ne_empty (i : Nat) : replicaUUID v i ≠ "" := by
  intro h
  have hlen := congrArg String.length h
  simp [replicaUUID, String.length_append] at hlen

section Initial

variable {source snapshot : String} {picks : List HostCandidate}

theorem length_initialReplicas (i : Nat) :
    (initialReplicas v source snapshot i picks).length = picks.length := by
  induction picks generalizing i with
  | nil => rfl
  | cons h picks ih => rw [initialReplicas, List.length_cons, List.length_cons, ih]

theorem hosts_initialReplicas (i : Nat) :
    (initialReplicas v source snapshot i picks).map Replica.hostUUID
      = picks.map HostCandidate.uuid := by
  induction picks generalizing i with
  | nil => rfl
  | cons h picks ih => rw [initialReplicas, List.map_cons, List.map_cons, ih]

theorem mem_initialReplicas {i : Nat} {r : Replica}
    (h : r ∈ initialReplicas v source snapshot i picks) :
    r.volumeUUID = v ∧ ∃ j, i ≤ j ∧ r.uuid = replicaUUID v j := by
  induction picks generalizing i with
  | nil => exact absurd h (by simp [initialReplicas])
  | cons c picks ih =>
    rcases List.mem_cons.mp h with rfl | h
    · exact ⟨rfl, i, le_refl _, rfl⟩
    · obtain ⟨hv, j, hj, hu⟩ := ih h
      exact ⟨hv, j, by omega, hu⟩

theorem nodup_initialReplicas (i : Nat) :
    ((initialReplicas v source snapshot i picks).map Replica.uuid).Nodup := by
  induction picks generalizing i with
  | nil => exact List.nodup_nil
  | cons c picks ih =>
    rw [initialReplicas, List.map_cons, List.nodup_cons]
    refine ⟨fun hmem => ?_, ih (i + 1)⟩
    obtain ⟨r, hr, hu⟩ := List.mem_map.mp hmem
    obtain ⟨-, j, hj, hu'⟩ := mem_initialReplicas hr
    have := replicaUUID_inj (hu'.symm.trans hu)
    omega

end Initial

/-! ## One call -/

variable {rs : List Replica} {s : Store} {vol : Volume}

/-- The writes of the replicas go as far as they do not fail. -/
theorem exec_putReplicas (failed : String → StoreErr → Err)
    (hrs : ∀ r ∈ rs, ¬ (r.uuid = "" ∨ r.volumeUUID = "")) : ∀ (env : Nat → Env) (s : Store),
    ∃ m ≤ rs.length, (Prog.exec sem (putReplicas failed rs) env s).1
        = { s with replicas := (rs.take m).foldl Table.put s.replicas }
      ∧ (m = rs.length ↔ ∀ i < rs.length, (env i).fails = false) := by
  induction rs with
  | nil => exact fun env s => ⟨0, le_refl _, rfl, by simp⟩
  | cons r rs ih =>
    intro env s
    cases hf : (env 0).fails with
    | true =>
      have hsem : sem s (.putReplica r) (env 0) = (s, .error .unavailable) := by
        rw [sem, Env.unless, if_pos hf]
      refine ⟨0, by simp, ?_, by simp, fun hall => ?_⟩
      · rw [putReplicas, Prog.bind_eq, putReplica, Prog.exec_op_bind sem hsem]
        rfl
      · rw [hall 0 (by simp)] at hf
        simp at hf
    | false =>
      have hsem : sem s (.putReplica r) (env 0)
          = ({ s with replicas := s.replicas.put r }, .ok ()) := by
        rw [sem, Env.unless, if_neg (by simp [hf]), if_neg (hrs r List.mem_cons_self)]
      obtain ⟨m, hm, hstate, hall⟩ := ih (fun x hx => hrs x (List.mem_cons_of_mem _ hx))
        (fun n => env (n + 1)) { s with replicas := s.replicas.put r }
      refine ⟨m + 1, by simpa using hm, ?_, ?_⟩
      · rw [putReplicas, Prog.bind_eq, putReplica, Prog.exec_op_bind sem hsem]
        exact hstate
      · rw [List.length_cons, Nat.add_right_cancel_iff, hall]
        constructor
        · intro h i hi
          cases i with
          | zero => exact hf
          | succ i => exact h i (by omega)
        · exact fun h i hi => h (i + 1) (by omega)

/-- After the volume and some of its replicas have been written. -/
theorem provisioned_iff {m : Nat} (hnone : ∀ r ∈ s.replicas.rows, r.volumeUUID ≠ v)
    (hvol : vol.uuid = v) (hrs : ∀ r ∈ rs, r.volumeUUID = v) (huuid : (rs.map Replica.uuid).Nodup)
    (hhosts : (rs.map Replica.hostUUID).Nodup) (hm : m ≤ rs.length) :
    Provisioned v ⟨s.volumes.put vol, (rs.take m).foldl Table.put s.replicas, s.engines⟩
      ↔ (m : Int) = vol.replicaCount := by
  have hempty : s.replicas.rows.filter (fun r => r.volumeUUID = v) = [] :=
    List.filter_eq_nil_iff.mpr (fun r hr => by simpa using hnone r hr)
  have hperm := @Table.filter_putAll_perm _ _ Replica.uuid _ (fun r => r.volumeUUID = v) (rs.take m)
    s.replicas (fun r hr => by simpa using hrs r (List.mem_of_mem_take hr))
    (huuid.sublist ((List.take_sublist m rs).map _))
    (fun r hr hv => absurd (by simpa using hv) (hnone r hr))
  rw [hempty, List.append_nil] at hperm
  have hlen : (replicasOf v ⟨s.volumes.put vol, (rs.take m).foldl Table.put s.replicas,
      s.engines⟩).length = m := by
    rw [replicasOf, hperm.length_eq, List.length_reverse, List.length_take, Nat.min_eq_left hm]
  have hnodup : ((replicasOf v ⟨s.volumes.put vol, (rs.take m).foldl Table.put s.replicas,
      s.engines⟩).map Replica.hostUUID).Nodup := by
    refine (hperm.map _).nodup_iff.mpr ?_
    rw [List.map_reverse, List.nodup_reverse]
    exact hhosts.sublist ((List.take_sublist m rs).map _)
  have hget : (s.volumes.put vol).get v = some vol := Table.get_put_self hvol
  constructor
  · rintro ⟨vol', hvol', hcount, -⟩
    rw [hlen] at hcount
    rwa [Option.some.inj (hget.symm.trans hvol')]
  · exact fun hcount => ⟨vol, hget, by rw [hlen]; exact hcount, hnodup⟩

/-- The replicas of a volume that has just been written. -/
theorem exec_putReplicas_provisioned (failed : String → StoreErr → Err) {source snapshot : String}
    {picks : List HostCandidate} (hv : v ≠ "") (hnone : ∀ r ∈ s.replicas.rows, r.volumeUUID ≠ v)
    (hvol : vol.uuid = v) (hpicks : (picks.map HostCandidate.uuid).Nodup)
    (hcount : (picks.length : Int) = vol.replicaCount) (env : Nat → Env) {s' : Store}
    (hs' : s' = (Prog.exec sem (putReplicas failed (initialReplicas v source snapshot 0 picks)) env
      { s with volumes := s.volumes.put vol }).1) :
    (s'.volumes.get v).isSome = true ∧ ((∀ i : Nat, (i : Int) < vol.replicaCount →
      (env i).fails = false) ↔ Provisioned v s') := by
  have hvalid : ∀ r ∈ initialReplicas v source snapshot 0 picks,
      ¬ (r.uuid = "" ∨ r.volumeUUID = "") := by
    intro r hr
    obtain ⟨hrv, j, -, hu⟩ := mem_initialReplicas hr
    rw [hrv, hu]
    exact not_or.mpr ⟨replicaUUID_ne_empty j, hv⟩
  obtain ⟨m, hm, hstate, hall⟩ :=
    exec_putReplicas failed hvalid env { s with volumes := s.volumes.put vol }
  rw [hstate] at hs'
  subst hs'
  rw [length_initialReplicas] at hm hall
  refine ⟨?_, ?_⟩
  · exact congrArg Option.isSome (Table.get_put_self hvol)
  · rw [provisioned_iff hnone hvol (fun r hr => (mem_initialReplicas hr).1) (nodup_initialReplicas 0)
      (by rw [hosts_initialReplicas]; exact hpicks) (by rwa [length_initialReplicas]), ← hcount,
      Nat.cast_inj, hall]
    exact forall_congr' (fun i => by rw [Nat.cast_lt])

theorem exec_isNil {α : Type} (p : Act (Except Err α)) (env : Nat → Env) (s : Store) :
    (Prog.exec sem (p.bind (fun r => .done (isNil r))) env s).1 = (Prog.exec sem p env s).1
      ∧ (Prog.exec sem (p.bind (fun r => .done (isNil r))) env s).2.1
        = isNil (Prog.exec sem p env s).2.1 := by
  rw [Prog.exec_bind]
  exact ⟨rfl, rfl⟩

section

variable {s : Store} {u : String} {x : Env}

theorem sem_getVolume_fails (hf : x.fails = true) :
    sem s (.getVolume u) x = (s, .error .unavailable) := by
  rw [sem, Env.unless, if_pos hf]

theorem sem_getVolume_none (hf : x.fails = false)
    (h : s.volumes.get u = none) : sem s (.getVolume u) x = (s, .error .notFound) := by
  rw [sem, Env.unless, if_neg (by simp [hf]), h]

theorem sem_getVolume_some (hf : x.fails = false) (h : s.volumes.get u = some vol) :
    sem s (.getVolume u) x = (s, .ok vol) := by
  rw [sem, Env.unless, if_neg (by simp [hf]), h]

end

theorem sem_putVolume_cases (s : Store) (vol : Volume) (x : Env) :
    (∃ e, sem s (.putVolume vol) x = (s, .error e)) ∧ ¬ (x.fails = false ∧ vol.uuid ≠ "")
      ∨ sem s (.putVolume vol) x = ({ s with volumes := s.volumes.put vol }, .ok ())
        ∧ x.fails = false ∧ vol.uuid ≠ "" := by
  cases hf : x.fails with
  | true => exact Or.inl ⟨⟨.unavailable, by rw [sem, Env.unless, if_pos hf]⟩, by simp⟩
  | false =>
    by_cases hu : vol.uuid = ""
    · refine Or.inl ⟨⟨.required, ?_⟩, fun h => h.2 hu⟩
      rw [sem, Env.unless, if_neg (by simp [hf]), if_pos hu]
    · refine Or.inr ⟨?_, rfl, hu⟩
      rw [sem, Env.unless, if_neg (by simp [hf]), if_neg hu]

/-- What a call does while the volume is not there: nothing, or it makes it. -/
def Outcome (hosts : List HostCandidate) (v : String) (s : Store) (c : Call) (env : Nat → Env)
    (s' : Store) (nil : Bool) : Prop :=
  (¬ c.Persists hosts v s env ∧ s' = s ∧ nil = false)
    ∨ c.Persists hosts v s env ∧ (s'.volumes.get v).isSome = true
      ∧ ((c.count hosts s ≤ hosts.length
        ∧ ∀ i : Nat, (i : Int) < c.count hosts s → (env (c.before + i)).fails = false)
        ↔ Provisioned v s')

theorem ensure_outcome (hdistinct : (hosts.map HostCandidate.uuid).Nodup)
    (habs : s.volumes.get v = none) (hnone : ∀ r ∈ s.replicas.rows, r.volumeUUID ≠ v)
    (projectUUID name : String) (sizeGiB : Int) (env : Nat → Env) :
    Outcome hosts v s (.ensure projectUUID name sizeGiB) env
      (Prog.exec sem (ensureVolume hosts ⟨v, projectUUID, name, sizeGiB⟩) env s).1
      (isNil (Prog.exec sem (ensureVolume hosts ⟨v, projectUUID, name, sizeGiB⟩) env s).2.1) := by
  rw [ensureVolume, Prog.bind_eq, getVolume]
  cases h0 : (env 0).fails with
  | true =>
    rw [Prog.exec_op_bind sem (sem_getVolume_fails h0)]
    refine Or.inl ⟨fun hp => ?_, rfl, rfl⟩
    rw [hp.2.1 0 (by simp [Call.before])] at h0
    simp at h0
  | false =>
    rw [Prog.exec_op_bind sem (sem_getVolume_none h0 habs)]
    simp only [Prog.bind_eq, putVolume]
    rcases sem_putVolume_cases s (desiredVolume hosts ⟨v, projectUUID, name, sizeGiB⟩) (env 1) with
      ⟨⟨e, hsem⟩, hnot⟩ | ⟨hsem, h1, hv⟩
    · rw [Prog.exec_op_bind sem hsem]
      exact Or.inl ⟨fun hp => hnot ⟨hp.2.1 1 (by simp [Call.before]), hp.1⟩, rfl, rfl⟩
    · rw [Prog.exec_op_bind sem hsem]
      have hpers : Call.Persists hosts v s env (.ensure projectUUID name sizeGiB) := by
        refine ⟨hv, fun i hi => ?_, trivial⟩
        match i, hi with
        | 0, _ => exact h0
        | 1, _ => exact h1
      refine Or.inr ⟨hpers, ?_⟩
      have hpos := effectiveReplicaCount_pos hosts.length
      by_cases hlen : effectiveReplicaCount hosts.length ≤ hosts.length
      · obtain ⟨picks, hplace, hpicks⟩ := placeReplicas_distinct hdistinct hpos hlen
        have hplace' : placeReplicas hosts
            (desiredVolume hosts ⟨v, projectUUID, name, sizeGiB⟩).replicaCount = .ok picks := hplace
        rw [hplace']
        have hvol : (desiredVolume hosts ⟨v, projectUUID, name, sizeGiB⟩).uuid = v := rfl
        obtain ⟨hsome, hiff⟩ := exec_putReplicas_provisioned .persistReplica hv hnone hvol
          hpicks (placeReplicas_ok hplace).1 (fun n => env (n + 1 + 1)) rfl
        refine ⟨hsome, Iff.trans ?_ hiff⟩
        refine ⟨fun h i hi => ?_, fun h => ⟨hlen, fun i hi => ?_⟩⟩
        · have := h.2 i hi
          rwa [Call.before, Nat.add_comm] at this
        · rw [Call.before, Nat.add_comm]
          exact h i hi
      · -- no host at all
        have hplace : placeReplicas hosts
            (desiredVolume hosts ⟨v, projectUUID, name, sizeGiB⟩).replicaCount = _ :=
          placeReplicas_need hpos hlen
        dsimp only
        rw [hplace]
        have hprov := @provisioned_iff v [] s (desiredVolume hosts ⟨v, projectUUID, name, sizeGiB⟩)
          0 hnone rfl (by simp) List.nodup_nil List.nodup_nil (le_refl _)
        refine ⟨?_, fun h => absurd h.1 hlen, fun h => ?_⟩
        · exact congrArg Option.isSome (Table.get_put_self rfl)
        · have := hprov.mp h
          change (0 : Int) = effectiveReplicaCount hosts.length at this
          omega

theorem exec_rereadVolume (u : String) (env : Nat → Env) (s : Store) :
    (Prog.exec sem (rereadVolume u) env s).1 = s := by
  have hsat : Prog.Sat sem (fun _ => True) (rereadVolume u) s (fun s' _ => s' = s) :=
    Prog.sat_bind (sat_getVolume (fun _ _ _ => Prog.sat_done rfl) (fun _ => Prog.sat_done rfl)
      (fun _ _ => Prog.sat_done rfl))
  exact hsat env (fun _ => trivial)

theorem clone_outcome (hdistinct : (hosts.map HostCandidate.uuid).Nodup)
    (habs : s.volumes.get v = none) (hnone : ∀ r ∈ s.replicas.rows, r.volumeUUID ≠ v)
    (parent snapshot name : String) (env : Nat → Env) :
    Outcome hosts v s (.clone parent snapshot name) env
      (Prog.exec sem (createFromSnapshot hosts ⟨parent, snapshot, v, name⟩) env s).1
      (isNil (Prog.exec sem (createFromSnapshot hosts ⟨parent, snapshot, v, name⟩) env s).2.1) := by
  rw [createFromSnapshot]
  by_cases hreq : parent = "" ∨ snapshot = ""
  · rw [if_pos hreq]
    refine Or.inl ⟨fun hp => ?_, rfl, rfl⟩
    rcases hreq with hreq | hreq
    · exact hp.2.2.1 hreq
    · exact hp.2.2.2.1 hreq
  rw [if_neg hreq]
  by_cases hnew : v = "" ∨ name = ""
  · rw [if_pos hnew]
    refine Or.inl ⟨fun hp => ?_, rfl, rfl⟩
    rcases hnew with hnew | hnew
    · exact hp.1 hnew
    · exact hp.2.2.2.2.1 hnew
  rw [if_neg hnew, Prog.bind_eq, getVolume]
  -- the parent
  cases h0 : (env 0).fails with
  | true =>
    rw [Prog.exec_op_bind sem (sem_getVolume_fails h0)]
    refine Or.inl ⟨fun hp => ?_, rfl, rfl⟩
    rw [hp.2.1 0 (by simp [Call.before])] at h0
    simp at h0
  | false =>
  cases hg : s.volumes.get parent with
  | none =>
    rw [Prog.exec_op_bind sem (sem_getVolume_none h0 hg)]
    refine Or.inl ⟨fun hp => ?_, rfl, rfl⟩
    have hsome := hp.2.2.2.2.2.1
    rw [hg] at hsome
    simp at hsome
  | some p =>
  rw [Prog.exec_op_bind sem (sem_getVolume_some h0 hg)]
  dsimp only
  rw [Prog.bind_eq, getVolume]
  have hcount : Call.count hosts s (.clone parent snapshot name)
      = (cloneVolume p ⟨parent, snapshot, v, name⟩).replicaCount := by
    rw [Call.count, hg]
    rfl
  -- the new volume
  cases h1 : (env 1).fails with
  | true =>
    rw [Prog.exec_op_bind sem (sem_getVolume_fails h1)]
    refine Or.inl ⟨fun hp => ?_, rfl, rfl⟩
    rw [hp.2.1 1 (by simp [Call.before])] at h1
    simp at h1
  | false =>
  rw [Prog.exec_op_bind sem (sem_getVolume_none h1 habs)]
  dsimp only
  have hpos : 0 < (cloneVolume p ⟨parent, snapshot, v, name⟩).replicaCount := by
    rw [cloneVolume]
    dsimp only
    split <;> omega
  by_cases hlen : (cloneVolume p ⟨parent, snapshot, v, name⟩).replicaCount ≤ hosts.length
  · obtain ⟨picks, hplace, hpicks⟩ := placeReplicas_distinct hdistinct hpos hlen
    rw [hplace]
    dsimp only
    rw [Prog.bind_eq, putVolume]
    rcases sem_putVolume_cases s (cloneVolume p ⟨parent, snapshot, v, name⟩) (env 2) with
      ⟨⟨e, hsem⟩, hnot⟩ | ⟨hsem, h2, hv⟩
    · rw [Prog.exec_op_bind sem hsem]
      exact Or.inl ⟨fun hp => hnot ⟨hp.2.1 2 (by simp [Call.before]), hp.1⟩, rfl, rfl⟩
    rw [Prog.exec_op_bind sem hsem]
    dsimp only
    have hpers : Call.Persists hosts v s env (.clone parent snapshot name) := by
      refine ⟨hv, fun i hi => ?_, fun he => hreq (Or.inl he), fun he => hreq (Or.inr he),
        fun he => hnew (Or.inr he), by rw [hg]; rfl, by rw [hcount]; exact hlen⟩
      match i, hi with
      | 0, _ => exact h0
      | 1, _ => exact h1
      | 2, _ => exact h2
    refine Or.inr ⟨hpers, ?_⟩
    have hvol : (cloneVolume p ⟨parent, snapshot, v, name⟩).uuid = v := rfl
    obtain ⟨hsome, hiff⟩ := @exec_putReplicas_provisioned v s _ .cloneReplica parent snapshot picks
      hv hnone hvol hpicks (placeReplicas_ok hplace).1 (fun n => env (n + 1 + 1 + 1)) _ rfl
    rw [Prog.bind_eq, Prog.exec_bind_fst sem (fun r env s => by
      cases r with
      | error e => rfl
      | ok u => exact exec_rereadVolume v env s)]
    refine ⟨hsome, Iff.trans ?_ hiff⟩
    rw [hcount]
    refine ⟨fun h i hi => ?_, fun h => ⟨hlen, fun i hi => ?_⟩⟩
    · have := h.2 i hi
      rwa [Call.before, Nat.add_comm] at this
    · rw [Call.before, Nat.add_comm]
      exact h i hi
  · rw [placeReplicas_need hpos hlen]
    refine Or.inl ⟨fun hp => hlen ?_, rfl, rfl⟩
    have hle := hp.2.2.2.2.2.2
    rwa [hcount] at hle

/-! ## Calls that find the volume -/

/-- The volume is there, with its replicas as they are. -/
theorem sat_present (hvol : s.volumes.get v = some vol) (c : Call) :
    Prog.Sat sem (fun _ => True) (c.prog hosts v) s (fun s' _ => s'.replicas = s.replicas
      ∧ ∃ vol', s'.volumes.get v = some vol' ∧ vol'.replicaCount = vol.replicaCount) := by
  have hkeep : s.replicas = s.replicas
      ∧ ∃ vol', s.volumes.get v = some vol' ∧ vol'.replicaCount = vol.replicaCount :=
    ⟨rfl, vol, hvol, rfl⟩
  have hself : ∀ vol', s.volumes.get v = some vol' → vol' = vol := fun vol' h =>
    Option.some.inj (h.symm.trans hvol)
  cases c with
  | ensure projectUUID name sizeGiB =>
    refine Prog.sat_bind (Prog.sat_mono (Prog.sat_bind (sat_getVolume
      (fun _ _ _ => Prog.sat_done hkeep) (fun hnone => ?_) (fun cur hcur => ?_)))
      (fun s' _ h => Prog.sat_done h))
    · rw [hvol] at hnone
      simp at hnone
    · obtain rfl := hself cur hcur
      dsimp only
      split
      · exact Prog.sat_done hkeep
      · refine Prog.sat_bind (sat_putVolume (fun _ _ _ => Prog.sat_done hkeep)
          (fun _ => Prog.sat_done hkeep) (fun _ => Prog.sat_done ⟨rfl, ?_⟩))
        exact ⟨_, Table.get_put_self (Table.get_eq_some.mp hvol).2, rfl⟩
  | clone parent snapshot name =>
    refine Prog.sat_bind (Prog.sat_mono ?_ (fun s' _ h => Prog.sat_done h))
    rw [createFromSnapshot]
    split
    · exact Prog.sat_done hkeep
    split
    · exact Prog.sat_done hkeep
    refine Prog.sat_bind (sat_getVolume (fun _ _ _ => Prog.sat_done hkeep)
      (fun _ => Prog.sat_done hkeep) (fun p _ => ?_))
    refine Prog.sat_bind (sat_getVolume (fun _ _ _ => Prog.sat_done hkeep) (fun hnone => ?_)
      (fun _ _ => Prog.sat_done hkeep))
    rw [hvol] at hnone
    simp at hnone

theorem provisioned_present {s s' : Store} {vol vol' : Volume} (hvol : s.volumes.get v = some vol)
    (hrep : s'.replicas = s.replicas) (hvol' : s'.volumes.get v = some vol')
    (hcount : vol'.replicaCount = vol.replicaCount) : Provisioned v s' ↔ Provisioned v s := by
  have hof : replicasOf v s' = replicasOf v s := by rw [replicasOf, hrep, replicasOf]
  rw [Provisioned, Provisioned, hof]
  constructor
  · rintro ⟨x, hx, hlen, hnodup⟩
    obtain rfl := Option.some.inj (hvol'.symm.trans hx)
    exact ⟨vol, hvol, hlen.trans hcount, hnodup⟩
  · rintro ⟨x, hx, hlen, hnodup⟩
    obtain rfl := Option.some.inj (hvol.symm.trans hx)
    exact ⟨vol', hvol', hlen.trans hcount.symm, hnodup⟩

/-! ## Any number of calls -/

variable {events : List Event}

/-- From the volume on, nothing changes any more. -/
theorem run_present : ∀ {a a' : After} {vol : Volume},
    a.store.volumes.get v = some vol → Runs.run (step hosts v) a events = some a' →
    Runs.Steady (step hosts v) (Uninterrupted hosts v) a events
      ∧ (Provisioned v a'.store ↔ Provisioned v a.store) := by
  induction events with
  | nil =>
    intro a a' vol _ hrun
    obtain rfl := Option.some.inj hrun
    exact ⟨trivial, Iff.rfl⟩
  | cons e events ih =>
    intro a a' vol hvol hrun
    obtain ⟨m, hm, hrun⟩ := Runs.run_cons_iff.mp hrun
    have hstep := @sat_present hosts v _ _ hvol e.call e.env (fun _ => trivial)
    obtain rfl := Option.some.inj hm
    obtain ⟨hrep, vol', hvol', hcount⟩ := hstep
    obtain ⟨hsteady, hiff⟩ := ih hvol' hrun
    refine ⟨⟨fun habs => ?_, fun s' hs' => ?_⟩,
      hiff.trans (provisioned_present hvol hrep hvol' hcount)⟩
    · rw [hvol] at habs
      simp at habs
    · obtain rfl := Option.some.inj hs'
      exact hsteady

theorem step_absent (hdistinct : (hosts.map HostCandidate.uuid).Nodup) {a : After}
    (habs : a.store.volumes.get v = none)
    (hnone : ∀ r ∈ a.store.replicas.rows, r.volumeUUID ≠ v) (e : Event) :
    ∃ a', step hosts v a e = some a' ∧ Outcome hosts v a.store e.call e.env a'.store a'.nil := by
  refine ⟨_, rfl, ?_⟩
  obtain ⟨call, env⟩ := e
  cases call with
  | ensure projectUUID name sizeGiB =>
    have h := ensure_outcome hdistinct habs hnone projectUUID name sizeGiB env
    rw [← (exec_isNil _ env a.store).1, ← (exec_isNil _ env a.store).2] at h
    exact h
  | clone parent snapshot name =>
    have h := clone_outcome hdistinct habs hnone parent snapshot name env
    rw [← (exec_isNil _ env a.store).1, ← (exec_isNil _ env a.store).2] at h
    exact h

/-- Up to the volume, no call returns nil. -/
theorem run_absent (hdistinct : (hosts.map HostCandidate.uuid).Nodup) :
    ∀ {a a' : After}, a.store.volumes.get v = none →
      (∀ r ∈ a.store.replicas.rows, r.volumeUUID ≠ v) → a.nil = false →
      Runs.run (step hosts v) a events = some a' → a'.nil = true →
      (Runs.Steady (step hosts v) (Uninterrupted hosts v) a events ↔ Provisioned v a'.store) := by
  induction events with
  | nil =>
    intro a a' _ _ hnil hrun hnil'
    obtain rfl := Option.some.inj hrun
    rw [hnil] at hnil'
    simp at hnil'
  | cons e events ih =>
    intro a a' habs hnone hnil hrun hnil'
    obtain ⟨m, hm, houtcome⟩ := step_absent hdistinct habs hnone e
    rw [Runs.run_cons hm] at hrun
    rcases houtcome with ⟨hnot, hs, hmnil⟩ | ⟨hpers, hsome, hiff⟩
    · -- as before
      rw [← ih (hs ▸ habs) (hs ▸ hnone) hmnil hrun hnil']
      refine ⟨fun h => h.2 m hm, fun h => ⟨fun _ hp => absurd hp hnot, fun s' hs' => ?_⟩⟩
      obtain rfl := Option.some.inj (hm.symm.trans hs')
      exact h
    · -- this call writes the volume
      obtain ⟨vol, hvol⟩ := Option.isSome_iff_exists.mp hsome
      obtain ⟨hsteady, hsame⟩ := run_present hvol hrun
      rw [hsame, ← hiff]
      refine ⟨fun h => h.1 habs hpers, fun h => ⟨fun _ _ => h, fun s' hs' => ?_⟩⟩
      obtain rfl := Option.some.inj (hm.symm.trans hs')
      exact hsteady

/--
**Provisioning is complete** once a call has returned nil, however often it was tried, exactly if the
call that wrote the volume had hosts enough and wrote every one of the replicas.
-/
theorem run_provisioned_iff (hosts : List HostCandidate) (v : String)
    (hdistinct : (hosts.map HostCandidate.uuid).Nodup) (s : Store)
    (habs : s.volumes.get v = none) (hnone : ∀ r ∈ s.replicas.rows, r.volumeUUID ≠ v)
    (events : List Event) (a : After) (hrun : Runs.run (step hosts v) ⟨s, false⟩ events = some a)
    (hnil : a.nil = true) :
    Runs.Steady (step hosts v) (Uninterrupted hosts v) ⟨s, false⟩ events
      ↔ Provisioned v a.store :=
  run_absent hdistinct habs hnone rfl hrun hnil

/-- Two hosts. -/
def twoHosts : List HostCandidate := [⟨"a", "dc1"⟩, ⟨"b", "dc2"⟩]

/-- Nothing fails. -/
def calmly : Nat → Env := fun _ => ⟨false, MapOrder.listed, none⟩

/-- The fourth operation fails. -/
def fourthFails : Nat → Env := fun n => ⟨n == 3, MapOrder.listed, none⟩

theorem run_provisioned_twoHosts : ∃ a,
    Runs.run (step twoHosts "v") ⟨newMemStore, false⟩ [⟨.ensure "p" "v" 1, calmly⟩] = some a
      ∧ Provisioned "v" a.store := by
  refine ⟨_, rfl, (run_provisioned_iff twoHosts "v" (by decide) newMemStore rfl
    (fun r hr => absurd hr (by simp [newMemStore, Table.empty])) [⟨.ensure "p" "v" 1, calmly⟩] _ rfl
    (by decide)).mp ⟨fun _ _ => ⟨by decide, fun _ _ => rfl⟩, fun _ _ => trivial⟩⟩

/-- The write of a replica fails; the call is repeated, and returns nil. -/
theorem retried_not_provisioned : ∃ a,
    Runs.run (step twoHosts "v") ⟨newMemStore, false⟩
        [⟨.ensure "p" "v" 1, fourthFails⟩, ⟨.ensure "p" "v" 1, calmly⟩] = some a
      ∧ a.nil = true ∧ ¬ Provisioned "v" a.store := by
  refine ⟨_, rfl, by decide, fun h => ?_⟩
  obtain ⟨vol, hvol, hcount, -⟩ := h
  obtain rfl := Option.some.inj hvol
  exact absurd hcount (by decide)

end Provision

end WeftBlock.Control
