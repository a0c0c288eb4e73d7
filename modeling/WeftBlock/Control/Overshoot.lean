import WeftBlock.Control.Rereplicate

/-!
# How many replicas the sweeps make

Sweeps of any number of hosts, operation by operation. Each elects an owner from the records it
has read. A sweep that has put the first of its replacements may thereby have made another host the
owner, whose sweep then counts what is there and not what is still to come, and picks other hosts.

So a volume does not get more replicas than it wants as long as no sweep reads its records, and
finds something to replace, while another one has replacements of it left to put.
-/

namespace WeftBlock.Control

open Maps Tables Programs

variable {host : String} {log : Log Op Ans} {most : Int} {s : Store} {v : Volume} {w : Sweeps}
  {x : Env} {o : Op}

namespace Overshoot

variable (live : HostLiveness)

/-- The hosts that sweep, and the store. -/
abbrev Sweeps := World String Store Op Ans

/-- One operation of a sweep, or a new sweep of a host. -/
def step : Sweeps → Event String Env → Option Sweeps :=
  World.step sem (rereplicateOrphans live)

/-- Nobody sweeps yet. -/
def idle (s : Store) : Sweeps := ⟨s, []⟩

/-- The replicas of the volume that are running or pending on live hosts. -/
def aliveCount (volumeUUID : String) (s : Store) : Nat :=
  s.replicas.rows.countP (fun r => decide (r.volumeUUID = volumeUUID) && alive live r)

/-- The volume as the sweep has read it. -/
def volumeRead (volumeUUID : String) : Log Op Ans → Option Volume
  | [] => none
  | ⟨.listVolumes, .ok vols⟩ :: _ => vols.find? (fun v => v.uuid = volumeUUID)
  | _ :: log => volumeRead volumeUUID log

/-- What a sweep that has read these records will put for the volume. -/
def plan (host : String) (v : Option Volume) : Except StoreErr (List Replica) → List Replica
  | .error _ => []
  | .ok rs =>
    match v with
    | none => []
    | some v => if acts live host rs then (replacements live v rs).map (newReplica v) else []

/-- What a sweep has left to put for the volume. -/
def planned (host volumeUUID : String) : Log Op Ans → List Replica
  | [] => []
  | ⟨.listReplicasFor u, r⟩ :: log =>
    if u = volumeUUID then plan live host (volumeRead volumeUUID log) r
    else planned host volumeUUID log
  | ⟨.putReplica r, _⟩ :: log =>
    if (planned host volumeUUID log).head? = some r then (planned host volumeUUID log).tail
    else planned host volumeUUID log
  | _ :: log => planned host volumeUUID log

/--
A sweep that reads the records of the volume and finds something to replace does so while no other
one has replacements left to put.
-/
def Alone (volumeUUID : String) (w : Sweeps) : Event String Env → Prop
  | .start _ => True
  | .step i x => ∀ host log next,
      w.threads[i]? = some ⟨host, log, .call (.listReplicasFor volumeUUID) next⟩ →
      plan live host (volumeRead volumeUUID log) (sem w.store (.listReplicasFor volumeUUID) x).2 ≠ [] →
      ∀ j t, j ≠ i → w.threads[j]? = some t → planned live t.call volumeUUID t.log = []

/-! ## What a sweep puts -/

variable {live} {volumeUUID : String}

/-- A living replica of the volume is put as planned. -/
def Planned (live : HostLiveness) (volumeUUID host : String) (log : Log Op Ans) : Op → Prop
  | .putReplica r => r.volumeUUID = volumeUUID → alive live r = true →
      (planned live host volumeUUID log).head? = some r
  | .deleteReplica _ => False
  | o => o.writesVolumes = false

theorem Planned.writesVolumes
    (h : Planned live volumeUUID host log o) : o.writesVolumes = false := by
  cases o with
  | putReplica r => rfl
  | deleteReplica uuid => rfl
  | _ => exact h

theorem planned_put_head {r : Replica} {rest : List Replica}
    (h : planned live host volumeUUID log = r :: rest) (a : Except StoreErr Unit) :
    planned live host volumeUUID (⟨.putReplica r, a⟩ :: log) = rest := by
  rw [planned, h]
  exact if_pos rfl

theorem planned_put_other {r : Replica}
    (h : (planned live host volumeUUID log).head? ≠ some r) (a : Except StoreErr Unit) :
    planned live host volumeUUID (⟨.putReplica r, a⟩ :: log) = planned live host volumeUUID log :=
  if_neg h

theorem faultOrphan_planned {l : List Replica} {x : Option Volume}
    (hl : ∀ p ∈ l, p.state = .pending) (r : Replica) (log : Log Op Ans)
    (hlog : planned live host volumeUUID log = l ∧ volumeRead volumeUUID log = x) :
    Prog.Always sem (Planned live volumeUUID host) (faultOrphan r)
      (fun log _ => planned live host volumeUUID log = l ∧ volumeRead volumeUUID log = x) log := by
  rw [faultOrphan]
  split
  · exact hlog
  · refine Prog.always_next ?_ (fun a _ => ⟨?_, hlog.2⟩)
    · intro _ halive
      exact absurd halive (by simp [alive])
    · refine (planned_put_other (fun hhead => ?_) a).trans hlog.1
      rw [hlog.1] at hhead
      have := hl _ (List.mem_of_mem_head? hhead)
      simp at this

/-- The volume itself: what is put is what was planned when its records were read. -/
theorem processVolume_planned (log : Log Op Ans) (hlog : volumeRead v.uuid log = some v) :
    Prog.Always sem (Planned live v.uuid host) (processVolume live host v)
      (fun log _ => volumeRead v.uuid log = some v) log := by
  refine Prog.always_next rfl (fun a _ => ?_)
  cases a with
  | error e => exact hlog
  | ok rs =>
    dsimp only
    split
    · rename_i hacts
      have hplan : planned live host v.uuid (⟨.listReplicasFor v.uuid, .ok rs⟩ :: log)
          = (replacements live v rs).map (newReplica v) := by
        rw [planned, if_pos rfl, hlog]
        exact if_pos hacts
      have hpending : ∀ p ∈ (replacements live v rs).map (newReplica v), p.state = .pending := by
        intro p hp
        obtain ⟨c, -, rfl⟩ := List.mem_map.mp hp
        rfl
      refine Prog.always_bind (Prog.always_each ⟨hplan, hlog⟩
        (fun r _ log h => faultOrphan_planned hpending r log h) (fun log h => ?_))
      refine Prog.always_mono (Prog.always_forEach
        (I := fun ps log => planned live host v.uuid log = ps.map (newReplica v)
          ∧ volumeRead v.uuid log = some v) (fun p ps log h => ?_) h) (fun log _ h => h.2)
      refine Prog.always_next (fun _ _ => by rw [h.1]; rfl) (fun a _ => ?_)
      exact ⟨planned_put_head h.1 a, h.2⟩
    · exact hlog

/-- Another volume: nothing of this one is put. -/
theorem processVolume_other {x : Option Volume}
    (hv : v.uuid ≠ volumeUUID) (log : Log Op Ans) (hlog : volumeRead volumeUUID log = x) :
    Prog.Always sem (Planned live volumeUUID host) (processVolume live host v)
      (fun log _ => volumeRead volumeUUID log = x) log := by
  refine Prog.always_next rfl (fun a _ => ?_)
  cases a with
  | error e => exact hlog
  | ok rs =>
    dsimp only
    split
    · refine Prog.always_bind (Prog.always_each (I := fun log => volumeRead volumeUUID log = x) hlog
        (fun r _ log h => ?_) (fun log h => ?_))
      · rw [faultOrphan]
        split
        · exact h
        · refine Prog.always_next ?_ (fun a _ => h)
          intro _ halive
          exact absurd halive (by simp [alive])
      · refine Prog.always_each (I := fun log => volumeRead volumeUUID log = x) h
          (fun p _ log h => ?_) (fun _ h => h)
        refine Prog.always_next (fun hu => absurd hu hv) (fun a _ => h)
    · exact hlog

theorem listVolumes_nodup {vols : List Volume} (h : Prog.Answer sem .listVolumes (.ok vols)) :
    (vols.map Volume.uuid).Nodup := by
  obtain ⟨s, x, hx⟩ := h
  rw [sem, Env.unless] at hx
  split at hx
  · simp at hx
  · obtain rfl := Except.ok.inj hx
    exact ((s.volumes.perm_list x.order).map _).nodup_iff.mpr s.volumes.nodup

theorem find?_uuid {vols : List Volume} (h : (vols.map Volume.uuid).Nodup)
    (hv : v ∈ vols) : vols.find? (fun u => u.uuid = v.uuid) = some v := by
  cases hf : vols.find? (fun u => u.uuid = v.uuid) with
  | none => exact absurd (List.find?_eq_none.mp hf v hv) (by simp)
  | some u =>
    have hu : u.uuid = v.uuid := by simpa using List.find?_some hf
    exact congrArg some (List.inj_on_of_nodup_map h (List.mem_of_find?_eq_some hf) hv hu)

theorem sweep_planned (host : String) :
    Prog.Always sem (Planned live volumeUUID host) (rereplicateOrphans live host) (fun _ _ => True)
      [] := by
  refine Prog.always_next rfl (fun a ha => ?_)
  cases a with
  | error e => trivial
  | ok vols =>
    have hnodup := listVolumes_nodup ha
    refine Prog.always_each
      (I := fun log => volumeRead volumeUUID log = vols.find? (fun v => v.uuid = volumeUUID)) rfl
      (fun v hin log h => ?_) (fun _ _ => trivial)
    by_cases hv : v.uuid = volumeUUID
    · subst hv
      rw [find?_uuid hnodup hin] at h ⊢
      exact processVolume_planned log h
    · exact processVolume_other hv log h

/-! ## What an operation does to the number -/

/-- Nothing is added to what is left to put, except by reading the records. -/
theorem planned_le (ho : o ≠ .listReplicasFor volumeUUID)
    (a : Ans o) : (planned live host volumeUUID (⟨o, a⟩ :: log)).length
      ≤ (planned live host volumeUUID log).length := by
  cases o with
  | putReplica r =>
    rw [planned]
    split
    · rw [List.length_tail]
      omega
    · exact le_refl _
  | listReplicasFor u =>
    rw [planned, if_neg (fun hu => ho (congrArg _ hu))]
  | _ => exact le_refl _

/-- A living replica that is put is taken from what was left to put. -/
theorem aliveCount_op
    (hP : Planned live volumeUUID host log o) (ho : o ≠ .listReplicasFor volumeUUID) :
    aliveCount live volumeUUID (sem s o x).1
        + (planned live host volumeUUID (⟨o, (sem s o x).2⟩ :: log)).length
      ≤ aliveCount live volumeUUID s + (planned live host volumeUUID log).length := by
  have hle : (planned live host volumeUUID (⟨o, (sem s o x).2⟩ :: log)).length ≤ _ :=
    planned_le ho (sem s o x).2
  by_cases hw : o.writesReplicas = true
  · cases o with
    | putReplica r =>
      have hcount : aliveCount live volumeUUID (sem s (.putReplica r) x).1
          ≤ aliveCount live volumeUUID s
            + if decide (r.volumeUUID = volumeUUID) && alive live r then 1 else 0 := by
        have h := sem_wrote s (.putReplica r) x
        generalize (sem s (.putReplica r) x).1 = s' at h
        cases h with
        | nothing => omega
        | replica r => exact s.replicas.countP_put_le _ r
      by_cases hr : (decide (r.volumeUUID = volumeUUID) && alive live r) = true
      · rw [if_pos hr] at hcount
        rw [Bool.and_eq_true, decide_eq_true_eq] at hr
        obtain ⟨rest, hrest⟩ := List.head?_eq_some_iff.mp (hP hr.1 hr.2)
        rw [planned_put_head hrest, hrest, List.length_cons]
        omega
      · rw [if_neg hr] at hcount
        omega
    | deleteReplica uuid => exact hP.elim
    | _ => exact absurd hw (by simp [Op.writesReplicas])
  · rw [aliveCount, sem_replicas s x (Bool.not_eq_true _ ▸ hw), ← aliveCount]
    omega

/-- What is planned fills up what is missing. -/
theorem length_replacements (v : Volume) (rs : List Replica) (h : replacements live v rs ≠ []) :
    ((rs.filter (alive live)).length : Int) + (replacements live v rs).length ≤ v.replicaCount := by
  rw [replacements] at h ⊢
  split at h
  · exact absurd rfl h
  split at h
  · exact absurd rfl h
  rename_i hdef hfree
  rw [if_neg hdef, if_neg hfree]
  split at h
  · exact absurd rfl h
  · rename_i picks hplace
    rw [(placeReplicas_ok hplace).1]
    have := min_le_left (deficit live v rs) (freeCandidates live rs).length
    rw [deficit] at this ⊢
    omega

theorem plan_bound {v : Option Volume}
    (h : plan live host v (sem s (.listReplicasFor volumeUUID) x).2 ≠ []) :
    ∃ vol, v = some vol ∧ (aliveCount live volumeUUID s : Int)
      + (plan live host v (sem s (.listReplicasFor volumeUUID) x).2).length ≤ vol.replicaCount := by
  rw [sem, Env.unless] at h ⊢
  split at h
  · exact absurd rfl h
  rename_i hf
  rw [if_neg hf]
  cases v with
  | none => exact absurd rfl h
  | some v =>
    refine ⟨v, rfl, ?_⟩
    rw [plan] at h ⊢
    split at h
    · rename_i hacts
      rw [if_pos hacts, List.length_map]
      have hlen := length_replacements v _ (fun he => h (by rw [he]; rfl))
      have hperm := ((s.replicas.perm_list x.order).filter
        (fun r => decide (r.volumeUUID = volumeUUID))).filter (alive live)
      rw [hperm.length_eq, List.filter_filter, ← List.countP_eq_length_filter] at hlen
      have hcount : aliveCount live volumeUUID s = s.replicas.rows.countP
          (fun r => alive live r && decide (r.volumeUUID = volumeUUID)) := by
        rw [aliveCount]
        exact List.countP_congr (fun r _ => by rw [Bool.and_comm])
      rw [hcount]
      exact hlen
    · exact absurd rfl h

/-! ## The invariant -/

/-- The volume as a sweep has read it is the volume of the store, which no sweep writes. -/
theorem volumeRead_step
    (hlog : ∀ v, volumeRead volumeUUID log = some v → s.volumes.get volumeUUID = some v)
    (h : volumeRead volumeUUID (⟨o, (sem s o x).2⟩ :: log) = some v) :
    s.volumes.get volumeUUID = some v := by
  cases o with
  | listVolumes =>
    rw [sem, Env.unless] at h
    split at h
    · exact hlog v h
    · have hmem := List.mem_of_find?_eq_some h
      have huuid := List.find?_some h
      rw [decide_eq_true_eq] at huuid
      exact s.volumes.get_eq_some.mpr ⟨Table.mem_list.mp hmem, huuid⟩
  | _ => exact hlog v h

theorem getElem?_set_cases {α : Type} {l : List α} {j k : Nat} {a b : α}
    (h : (l.set j a)[k]? = some b) : (k = j ∧ b = a) ∨ (k ≠ j ∧ l[k]? = some b) := by
  by_cases hjk : j = k
  · subst hjk
    rw [List.getElem?_set_self'] at h
    obtain ⟨_, -, rfl⟩ := Option.map_eq_some_iff.mp h
    exact Or.inl ⟨rfl, rfl⟩
  · rw [List.getElem?_set_ne hjk] at h
    exact Or.inr ⟨Ne.symm hjk, h⟩

/--
Of all the sweeps only the one at `i` has replacements left to put, and with all of them put the
volume has at most `most` living replicas.
-/
structure Bounded (live : HostLiveness) (volumeUUID : String) (most : Int) (w : Sweeps)
    (i : Nat) : Prop where
  others : ∀ j t, j ≠ i → w.threads[j]? = some t → planned live t.call volumeUUID t.log = []
  own : ∀ t, w.threads[i]? = some t →
    (aliveCount live volumeUUID w.store : Int) + (planned live t.call volumeUUID t.log).length ≤ most
  now : (aliveCount live volumeUUID w.store : Int) ≤ most

structure Inv (live : HostLiveness) (volumeUUID : String) (s : Store) (most : Int)
    (w : Sweeps) : Prop where
  kept : World.Kept sem (Planned live volumeUUID) w
  volumes : w.store.volumes = s.volumes
  read : ∀ t ∈ w.threads, ∀ v, volumeRead volumeUUID t.log = some v →
    s.volumes.get volumeUUID = some v
  bounded : ∃ i, Bounded live volumeUUID most w i

theorem Bounded.start {i : Nat} (h : Bounded live volumeUUID most w i)
    (host : String) (rest : Prog Op Ans Unit) :
    Bounded live volumeUUID most { w with threads := w.threads ++ [⟨host, [], rest⟩] } i := by
  have hnew : ∀ (j : Nat) (t : Thread String Op Ans),
      (w.threads ++ [⟨host, [], rest⟩])[j]? = some t →
        w.threads[j]? = some t ∨ planned live t.call volumeUUID t.log = [] := by
    intro j t hj
    rw [List.getElem?_append] at hj
    split at hj
    · exact Or.inl hj
    · obtain rfl := List.mem_singleton.mp (List.mem_of_getElem? hj)
      exact Or.inr rfl
  refine ⟨fun j t hne hj => ?_, fun t hi => ?_, h.now⟩
  · rcases hnew j t hj with hj | hnil
    · exact h.others j t hne hj
    · exact hnil
  · rcases hnew i t hi with hi | hnil
    · exact h.own t hi
    · rw [hnil]
      have := h.now
      simpa using this

/-- A sweep has read the records, alone or with nothing to replace. -/
theorem Bounded.list {i j : Nat} {rest : Prog Op Ans Unit} (h : Bounded live volumeUUID most w i)
    (hmost : ∀ vol, volumeRead volumeUUID log = some vol → vol.replicaCount ≤ most)
    (halone : plan live host (volumeRead volumeUUID log)
        (sem w.store (.listReplicasFor volumeUUID) x).2 ≠ [] →
      ∀ k t, k ≠ j → w.threads[k]? = some t → planned live t.call volumeUUID t.log = []) :
    ∃ i, Bounded live volumeUUID most ⟨w.store, w.threads.set j
      ⟨host, ⟨.listReplicasFor volumeUUID, (sem w.store (.listReplicasFor volumeUUID) x).2⟩ :: log,
        rest⟩⟩ i := by
  have hnew : planned live host volumeUUID
      (⟨.listReplicasFor volumeUUID, (sem w.store (.listReplicasFor volumeUUID) x).2⟩ :: log)
        = plan live host (volumeRead volumeUUID log)
          (sem w.store (.listReplicasFor volumeUUID) x).2 := by
    rw [planned, if_pos rfl]
  by_cases hplan : plan live host (volumeRead volumeUUID log)
      (sem w.store (.listReplicasFor volumeUUID) x).2 = []
  · -- nothing planned: whoever was putting replacements still is the only one
    refine ⟨i, fun k t hne hk => ?_, fun t hi => ?_, h.now⟩
    · rcases getElem?_set_cases hk with ⟨rfl, rfl⟩ | ⟨-, hk⟩
      · exact hnew.trans hplan
      · exact h.others k t hne hk
    · rcases getElem?_set_cases hi with ⟨rfl, rfl⟩ | ⟨-, hi⟩
      · rw [hnew, hplan]
        have := h.now
        simpa using this
      · exact h.own t hi
  · refine ⟨j, fun k t hne hk => ?_, fun t hj => ?_, h.now⟩
    · rcases getElem?_set_cases hk with ⟨rfl, rfl⟩ | ⟨-, hk⟩
      · exact absurd rfl hne
      · exact halone hplan k t hne hk
    · rcases getElem?_set_cases hj with ⟨-, rfl⟩ | ⟨hne, -⟩
      · obtain ⟨vol, hvol, hle⟩ := plan_bound hplan
        rw [hnew]
        exact hle.trans (hmost vol hvol)
      · exact absurd rfl hne

theorem Bounded.op {i j : Nat} {rest next : Prog Op Ans Unit} (h : Bounded live volumeUUID most w i)
    (hj : w.threads[j]? = some ⟨host, log, rest⟩) (hP : Planned live volumeUUID host log o)
    (ho : o ≠ .listReplicasFor volumeUUID) :
    Bounded live volumeUUID most ⟨(sem w.store o x).1, w.threads.set j
      ⟨host, ⟨o, (sem w.store o x).2⟩ :: log, next⟩⟩ i := by
  have hle : (planned live host volumeUUID (⟨o, (sem w.store o x).2⟩ :: log)).length ≤ _ :=
    planned_le ho (sem w.store o x).2
  have hcount := aliveCount_op (s := w.store) (x := x) hP ho
  by_cases hij : j = i
  · subst hij
    have hown := h.own _ hj
    dsimp only at hown
    refine ⟨fun k t hne hk => ?_, fun t hk => ?_, ?_⟩
    · rcases getElem?_set_cases hk with ⟨rfl, -⟩ | ⟨-, hk⟩
      · exact absurd rfl hne
      · exact h.others k t hne hk
    · rcases getElem?_set_cases hk with ⟨-, rfl⟩ | ⟨hne, -⟩
      · dsimp only
        omega
      · exact absurd rfl hne
    · dsimp only
      omega
  · have hnil := h.others j _ hij hj
    rw [hnil, List.length_nil] at hle hcount
    refine ⟨fun k t hne hk => ?_, fun t hk => ?_, ?_⟩
    · rcases getElem?_set_cases hk with ⟨rfl, rfl⟩ | ⟨-, hk⟩
      · exact List.eq_nil_of_length_eq_zero (Nat.le_zero.mp hle)
      · exact h.others k t hne hk
    · rcases getElem?_set_cases hk with ⟨rfl, -⟩ | ⟨-, hk⟩
      · exact absurd rfl hij
      · have := h.own t hk
        dsimp only
        omega
    · have := h.now
      dsimp only
      omega

theorem Inv.step {w w' : Sweeps} {event : Event String Env}
    (hmost : ∀ vol, s.volumes.get volumeUUID = some vol → vol.replicaCount ≤ most)
    (hw : Inv live volumeUUID s most w) (halone : Alone live volumeUUID w event)
    (h : step live w event = some w') : Inv live volumeUUID s most w' := by
  have hkept := World.kept_step (fun host => sweep_planned host) hw.kept h
  obtain ⟨i, hi⟩ := hw.bounded
  rcases World.step_cases h with ⟨host, rfl, rfl⟩ | ⟨j, x, host, log, o, next, rfl, hj, rfl⟩
  · refine ⟨hkept, hw.volumes, fun t ht v hv => ?_, i, hi.start host _⟩
    rcases List.mem_append.mp ht with ht | ht
    · exact hw.read t ht v hv
    · obtain rfl := List.mem_singleton.mp ht
      exact absurd hv (by simp [volumeRead])
  · have hread := hw.read _ (List.mem_of_getElem? hj)
    have hP : Planned live volumeUUID host log o := (hw.kept _ (List.mem_of_getElem? hj)).1
    have hvolumes : (sem w.store o x).1.volumes = s.volumes :=
      (sem_volumes _ _ hP.writesVolumes).trans hw.volumes
    refine ⟨hkept, hvolumes, fun t ht v hv => ?_, ?_⟩
    · rcases List.mem_or_eq_of_mem_set ht with ht | rfl
      · exact hw.read t ht v hv
      · rw [← hw.volumes] at hread ⊢
        exact volumeRead_step hread hv
    · by_cases ho : o = .listReplicasFor volumeUUID
      · subst ho
        have hstore : (sem w.store (.listReplicasFor volumeUUID) x).1 = w.store := by
          rw [sem, Env.unless]
          split <;> rfl
        rw [hstore]
        exact hi.list (fun vol hvol => hmost vol (hread vol hvol)) (halone host log next hj)
      · exact ⟨i, hi.op hj hP ho⟩

theorem inv_idle (h : (aliveCount live volumeUUID s : Int) ≤ most) :
    Inv live volumeUUID s most (idle s) :=
  ⟨fun t ht => absurd ht (by simp [idle]), rfl, fun t ht => absurd ht (by simp [idle]),
    0, fun j t _ hj => absurd hj (by simp [idle]), fun t hi => absurd hi (by simp [idle]), h⟩

/-! ## What is proved -/

/--
**No volume gets more replicas than it wants**, or more than it had, in any interleaving of sweeps
in which each one that finds something to replace finds no other one replacing.
-/
theorem run_aliveCount_le (live : HostLiveness) (volumeUUID : String) (s : Store) (vol : Volume)
    (hvol : s.volumes.get volumeUUID = some vol) (events : List (Event String Env))
    (halone : Runs.Steady (step live) (Alone live volumeUUID) (idle s) events) (k : Nat) (w : Sweeps)
    (hrun : Runs.run (step live) (idle s) (events.take k) = some w) :
    (aliveCount live volumeUUID w.store : Int)
      ≤ max (aliveCount live volumeUUID s : Int) vol.replicaCount := by
  have hmost : ∀ v, s.volumes.get volumeUUID = some v →
      v.replicaCount ≤ max (aliveCount live volumeUUID s : Int) vol.replicaCount := by
    intro v hv
    obtain rfl := Option.some.inj (hv.symm.trans hvol)
    exact le_max_right _ _
  have hinv := Runs.run_steady (fun _ _ _ hw halone h => hw.step hmost halone h)
    (inv_idle (le_max_left (aliveCount live volumeUUID s : Int) vol.replicaCount))
    (halone.take k) hrun
  obtain ⟨i, hi⟩ := hinv.bounded
  exact hi.now

/-- A volume that wants three replicas. -/
def threeWanted : Volume where
  uuid := "v"
  projectUUID := ""
  name := "v"
  sizeBytes := 4096
  replicaCount := 3
  state := .healthy
  attachedTo := ""
  sourceVolumeUUID := ""
  sourceSnapshot := ""

def runningOn (host : String) : Replica where
  uuid := host
  volumeUUID := "v"
  hostUUID := host
  dc := ""
  address := ""
  state := .running
  sourceVolumeUUID := ""
  sourceSnapshot := ""

/-- It has them on host b and on two hosts that have died since. -/
def oneLeft : Store :=
  ⟨Table.empty.put threeWanted,
    ((Table.empty.put (runningOn "b")).put (runningOn "x")).put (runningOn "y"), Table.empty⟩

/-- Two hosts in one zone, one in another. -/
def fourLive : HostLiveness := ⟨["a", "b", "c", "d"], [⟨"a", "1"⟩, ⟨"c", "1"⟩, ⟨"d", "2"⟩]⟩

/-- Host b sweeps. -/
def sweepAlone : List (Event String Env) :=
  [.start "b", .step 0 calm, .step 0 calm, .step 0 calm, .step 0 calm, .step 0 calm, .step 0 calm]

theorem alone_of_single (h : w.threads.length = 1) (x : Env) :
    Alone live volumeUUID w (.step 0 x) ∧ ∀ w', step live w (.step 0 x) = some w' →
      w'.threads.length = 1 := by
  refine ⟨fun _ _ _ _ _ j t hj ht => ?_, fun w' hw' => ?_⟩
  · obtain ⟨hlt, -⟩ := List.getElem?_eq_some_iff.mp ht
    omega
  · rcases World.step_cases hw' with ⟨_, he, -⟩ | ⟨_, _, _, _, _, _, -, -, rfl⟩
    · simp at he
    · rw [List.length_set]
      exact h

theorem run_aliveCount_le_sweepAlone :
    ∃ w, Runs.run (step fourLive) (idle oneLeft) (sweepAlone.take 7) = some w
      ∧ (aliveCount fourLive "v" w.store : Int)
        ≤ max (aliveCount fourLive "v" oneLeft : Int) threeWanted.replicaCount := by
  have hsingle : ∀ w : Sweeps, w.threads.length = 1 →
      Runs.Steady (step fourLive) (Alone fourLive "v") w (List.replicate 6 (.step 0 calm)) := by
    intro w hw
    refine Runs.steady_of_inv (I := fun w => w.threads.length = 1) (fun w e he h => ?_) hw
    exact List.eq_of_mem_replicate he ▸ alone_of_single h calm
  refine ⟨_, rfl, run_aliveCount_le fourLive "v" oneLeft threeWanted (by decide) sweepAlone
    ⟨trivial, fun w hw => hsingle w ?_⟩ 7 _ rfl⟩
  obtain rfl := Option.some.inj hw
  rfl

/-- Host a, where the first replacement is put, sweeps before the second one is. -/
def sweepBetween : List (Event String Env) :=
  [.start "b", .step 0 calm, .step 0 calm, .step 0 calm, .step 0 calm, .step 0 calm,
    .start "a", .step 1 calm, .step 1 calm, .step 1 calm, .step 0 calm]

theorem sweepBetween_overshoots :
    ∃ w, Runs.run (step fourLive) (idle oneLeft) sweepBetween = some w
      ∧ ¬ (aliveCount fourLive "v" w.store : Int)
        ≤ max (aliveCount fourLive "v" oneLeft : Int) threeWanted.replicaCount :=
  ⟨_, rfl, by decide⟩

end Overshoot

end WeftBlock.Control
