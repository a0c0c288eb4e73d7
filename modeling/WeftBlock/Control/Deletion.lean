import WeftBlock.Control.Reconcile
import WeftBlock.Lib.Runs

/-!
# Deletion

Records are deleted in two steps: a call marks them, and the reconcile loop of their host removes
them. All the writers read records, go on to do something that may take long, and then put the
record back as a whole. The store does not compare, so a record that was marked or removed in the
meantime comes back.

What the calls put follows what they have read: none of them brings back a record that it has read
as marked. So deletion is final as long as what a call puts finds the record as it was read.
-/

namespace WeftBlock.Control

open Maps Tables Programs

variable {volumeUUID : String}

namespace Deletion

/-- The calls of the drivers, the ticks and the sweeps. -/
inductive Call
  | destroy (volumeUUID : String)
  | attach (volumeUUID hostUUID : String) (polls : Nat)
  | detach (volumeUUID hostUUID : String)
  | tick (host : String) (live : Option HostLiveness)
  | sweep (live : HostLiveness) (host : String)

/-- The program of a call. -/
def Call.prog : Call → Act Unit
  | .destroy volumeUUID => (destroyVolume volumeUUID).discard
  | .attach volumeUUID hostUUID polls => (attachVolume volumeUUID hostUUID polls).discard
  | .detach volumeUUID hostUUID => (detachVolume volumeUUID hostUUID).discard
  | .tick host live => Control.tick host live
  | .sweep live host => rereplicateOrphans live host

/-- Everybody who writes, and the store. -/
abbrev Agents := World Call Store Op Ans

/-- One operation of a call, or a new call. -/
def step : Agents → Event Call Env → Option Agents := World.step sem Call.prog

/-- Nobody has called yet. -/
def idle (s : Store) : Agents := ⟨s, []⟩

/-! ## What a call goes by -/

/-- A volume was read last: that of a clone's source, whose replicas are then listed. -/
def sourceRead : Log Op Ans → Bool
  | ⟨.getVolume _, _⟩ :: _ => true
  | _ => false

/-- The replicas of the volume as the call has read them. -/
def seenReplicas (volumeUUID : String) : Log Op Ans → List Replica
  | [] => []
  | ⟨.listReplicasFor u, rs⟩ :: log =>
    if u = volumeUUID ∧ sourceRead log = false then listed rs else seenReplicas volumeUUID log
  | _ :: log => seenReplicas volumeUUID log

/-- The engines of the volume as the call has read them. -/
def seenEngines (volumeUUID : String) : Log Op Ans → List Engine
  | [] => []
  | ⟨.listEnginesFor u, es⟩ :: log =>
    if u = volumeUUID then listed es else seenEngines volumeUUID log
  | _ :: log => seenEngines volumeUUID log

section Records

variable {ρ : Type} {key : ρ → String} (vol : ρ → String) (state : ρ → ReplicaState)

/--
The record is put where the table still has it as it was read. A pending record is a new one: there
is none of its UUID, and its volume is not being deleted.
-/
def CurrentPut (t : Table ρ String key) (deleting : String → Prop) (seen : List ρ) (r : ρ) : Prop :=
  if state r = .pending then t.get (key r) = none ∧ ¬ deleting (vol r)
  else ∀ r₀ ∈ seen, key r₀ = key r →
    (t.get (key r)).map (fun stored => (state stored, vol stored)) = some (state r₀, vol r)

/-- Unless it is new, a record that is put was read, and not brought back. -/
def FollowsPut (seen : List ρ) (r : ρ) : Prop :=
  state r ≠ .pending → ∃ r₀ ∈ seen, key r₀ = key r ∧ (state r₀ = .deleting → state r = .deleting)

/-- A record that is being deleted still is, or is removed. -/
def Lasting (t t' : Table ρ String key) : Prop :=
  ∀ r ∈ t.rows, state r = .deleting → ∀ r' ∈ t'.rows, key r' = key r → state r' = .deleting

/-- Every record of the volume was there before. -/
def NoneNew (volumeUUID : String) (t t' : Table ρ String key) : Prop :=
  ∀ r' ∈ t'.rows, vol r' = volumeUUID → ∃ r ∈ t.rows, key r = key r' ∧ vol r = volumeUUID

end Records

/-- The volume is in state `Deleting`. -/
def VolumeDeleting (s : Store) (volumeUUID : String) : Prop :=
  ∃ v ∈ s.volumes.rows, v.uuid = volumeUUID ∧ v.state = .deleting

/-- What an operation puts is current. -/
def CurrentOp (s : Store) (log : Log Op Ans) : Op → Prop
  | .putReplica r => CurrentPut Replica.volumeUUID Replica.state s.replicas (VolumeDeleting s)
      (seenReplicas r.volumeUUID log) r
  | .putEngine e => CurrentPut Engine.volumeUUID Engine.state s.engines (VolumeDeleting s)
      (seenEngines e.volumeUUID log) e
  | .putVolume v => v.state ≠ .deleting → ¬ VolumeDeleting s v.uuid
  | _ => True

/--
A record is put where the store still has it as the call has read it; no record of a volume that is
being deleted is created, and no volume is taken back from being deleted.
-/
def Current (w : Agents) : Event Call Env → Prop
  | .start _ => True
  | .step i _ => ∀ p ∈ w.pending i, CurrentOp w.store p.1 p.2

instance (s : Store) (log : Log Op Ans) (o : Op) : Decidable (CurrentOp s log o) := by
  cases o <;> unfold CurrentOp <;> try unfold CurrentPut VolumeDeleting
  all_goals infer_instance

instance (w : Agents) (event : Event Call Env) : Decidable (Current w event) := by
  cases event <;> unfold Current <;> infer_instance

/-- What is being deleted is being deleted, or removed. -/
def Marked (s s' : Store) : Prop :=
  Lasting Replica.state s.replicas s'.replicas ∧ Lasting Engine.state s.engines s'.engines

/-- A volume that is being deleted has no record that it has not had then. -/
def Gone (s s' : Store) : Prop :=
  ∀ volumeUUID, VolumeDeleting s volumeUUID →
    NoneNew Replica.volumeUUID volumeUUID s.replicas s'.replicas
      ∧ NoneNew Engine.volumeUUID volumeUUID s.engines s'.engines

/-! ## What the calls put -/

/-- What an operation puts follows what was read. -/
def Follows (_ : Call) (log : Log Op Ans) : Op → Prop
  | .putReplica r => @FollowsPut _ Replica.uuid Replica.state (seenReplicas r.volumeUUID log) r
  | .putEngine e => @FollowsPut _ Engine.uuid Engine.state (seenEngines e.volumeUUID log) e
  | _ => True

section Programs

variable {c : Call}

/-- The listing answers with records of the volume. -/
theorem listReplicasFor_answer {a : Except StoreErr (List Replica)}
    (h : Prog.Answer sem (.listReplicasFor volumeUUID) a) :
    ∀ r ∈ listed a, r.volumeUUID = volumeUUID := by
  obtain ⟨s, x, rfl⟩ := h
  rw [sem, Env.unless]
  split
  · exact fun r hr => absurd hr List.not_mem_nil
  · exact fun r hr => of_decide_eq_true (List.mem_filter.mp hr).2

theorem listEnginesFor_answer {a : Except StoreErr (List Engine)}
    (h : Prog.Answer sem (.listEnginesFor volumeUUID) a) :
    ∀ e ∈ listed a, e.volumeUUID = volumeUUID := by
  obtain ⟨s, x, rfl⟩ := h
  rw [sem, Env.unless]
  split
  · exact fun r hr => absurd hr List.not_mem_nil
  · exact fun r hr => of_decide_eq_true (List.mem_filter.mp hr).2

theorem destroyVolume_follows (volumeUUID : String) :
    Prog.Always sem (Follows c) (destroyVolume volumeUUID) (fun _ _ => True) [] := by
  refine Prog.always_next trivial (fun a ha => ?_)
  have hvol := listReplicasFor_answer ha
  refine Prog.always_bind (Prog.always_each (I := fun log => seenReplicas volumeUUID log = listed a)
    (by simp [seenReplicas, sourceRead]) (fun r hr log h => ?_) (fun log _ => ?_))
  · refine Prog.always_next (fun _ => ?_) (fun _ _ => h)
    refine ⟨r, ?_, rfl, fun _ => rfl⟩
    rw [show ({ r with state := .deleting } : Replica).volumeUUID = volumeUUID from hvol r hr, h]
    exact hr
  · refine Prog.always_next trivial (fun a _ => ?_)
    cases a with
    | error e => cases e <;> trivial
    | ok cur =>
      refine Prog.always_next trivial (fun a _ => ?_)
      cases a <;> trivial

/-- Attaching makes new engines only. -/
theorem attachVolume_follows (volumeUUID hostUUID : String) (polls : Nat) :
    Prog.Always sem (Follows c) (attachVolume volumeUUID hostUUID polls) (fun _ _ => True) [] :=
  attachVolume_always (fun _ _ => trivial) (fun _ _ => trivial) (fun _ _ => trivial)
    (fun _ hne => absurd rfl hne) (fun _ _ _ => trivial)

theorem deleteEngines_follows {seen : List Engine}
    (hvol : ∀ e ∈ seen, e.volumeUUID = volumeUUID) (es : List Engine) :
    (∀ e ∈ es, e ∈ seen) → ∀ log : Log Op Ans, seenEngines volumeUUID log = seen →
      Prog.Always sem (Follows c) (deleteEngines es) (fun _ _ => True) log := by
  induction es with
  | nil => exact fun _ _ _ => trivial
  | cons e es ih =>
    intro hes log hlog
    have he := hes e List.mem_cons_self
    refine Prog.always_next (fun _ => ?_) (fun a _ => ?_)
    · refine ⟨e, ?_, rfl, fun _ => rfl⟩
      rw [show ({ e with state := .deleting } : Engine).volumeUUID = volumeUUID from hvol e he, hlog]
      exact he
    · cases a with
      | error err => trivial
      | ok u => exact ih (fun x hx => hes x (List.mem_cons_of_mem _ hx)) _ hlog

theorem detachVolume_follows (volumeUUID hostUUID : String) :
    Prog.Always sem (Follows c) (detachVolume volumeUUID hostUUID) (fun _ _ => True) [] := by
  refine Prog.always_next trivial (fun es hes => ?_)
  refine Prog.always_bind (Prog.always_mono (deleteEngines_follows (listEnginesFor_answer hes) _
    (fun e he => (List.mem_filter.mp he).1) _ (by simp [seenEngines])) (fun log a _ => ?_))
  cases a with
  | error e => trivial
  | ok u =>
    refine Prog.always_next trivial (fun a _ => ?_)
    cases a with
    | error e => trivial
    | ok vol =>
      dsimp only
      split
      · exact ⟨trivial, fun _ _ => trivial⟩
      · trivial

/-- Where the replicas of a volume are processed that have been read. -/
def Reading (volumeUUID : String) (seen : List Replica) (log : Log Op Ans) : Prop :=
  seenReplicas volumeUUID log = seen ∧ sourceRead log = false

variable {seen : List Replica}

/-- A replica that was not read as marked is put in another state. -/
theorem follows_put {log : Log Op Ans} {r r' : Replica}
    (hlog : Reading volumeUUID seen log) (hr : r ∈ seen) (hvol : r.volumeUUID = volumeUUID)
    (hstate : r.state ≠ .deleting) (huuid : r'.uuid = r.uuid)
    (hvol' : r'.volumeUUID = r.volumeUUID) : Follows c log (.putReplica r') := by
  intro _
  refine ⟨r, ?_, huuid.symm, fun hdel => absurd hdel hstate⟩
  rw [hvol', hvol, hlog.1]
  exact hr

theorem processVolume_follows (live : HostLiveness) (host : String) (v : Volume) (log : Log Op Ans)
    (hlog : sourceRead log = false) :
    Prog.Always sem (Follows c) (processVolume live host v) (fun log _ => sourceRead log = false)
      log := by
  refine Prog.always_next trivial (fun a ha => ?_)
  cases a with
  | error e => rfl
  | ok rs =>
    have hvol := listReplicasFor_answer ha
    have hread : Reading v.uuid rs (⟨.listReplicasFor v.uuid, .ok rs⟩ :: log) :=
      ⟨if_pos ⟨rfl, hlog⟩, rfl⟩
    dsimp only
    split
    · refine Prog.always_bind (Prog.always_each (I := Reading v.uuid rs) hread
        (fun r hr log h => ?_) (fun log h => ?_))
      · obtain ⟨hr, horphan⟩ := List.mem_filter.mp hr
        rw [faultOrphan]
        split
        · exact h
        · refine Prog.always_next (follows_put h hr (hvol r hr) (fun hdel => ?_) rfl rfl)
            (fun _ _ => ⟨h.1, rfl⟩)
          rw [orphaned, hdel] at horphan
          simp at horphan
      · refine Prog.always_each (I := fun log => sourceRead log = false) h.2
          (fun p _ log _ => ?_) (fun _ h => h)
        exact Prog.always_next (fun hne => absurd rfl hne) (fun _ _ => rfl)
    · rfl

theorem rereplicateOrphans_follows (live : HostLiveness) (host : String) (log : Log Op Ans) :
    Prog.Always sem (Follows c) (rereplicateOrphans live host) (fun _ _ => True) log := by
  refine Prog.always_next trivial (fun a _ => ?_)
  cases a with
  | error e => trivial
  | ok vols =>
    exact Prog.always_each (I := fun log => sourceRead log = false) rfl
      (fun v _ log h => processVolume_follows live host v log h) (fun _ _ => trivial)

theorem startReplica_follows {r : Replica}
    (req : ReplicaRequest) (hr : r ∈ seen) (hvol : r.volumeUUID = volumeUUID)
    (hstate : r.state ≠ .deleting) (log : Log Op Ans) (hlog : Reading volumeUUID seen log) :
    Prog.Always sem (Follows c) (startReplica req r) (fun log _ => Reading volumeUUID seen log)
      log := by
  refine Prog.always_next trivial (fun addr _ => ?_)
  cases addr with
  | none =>
    exact Prog.always_next (follows_put ⟨hlog.1, rfl⟩ hr hvol hstate rfl rfl)
      (fun _ _ => ⟨hlog.1, rfl⟩)
  | some addr =>
    exact Prog.always_next (follows_put ⟨hlog.1, rfl⟩ hr hvol hstate rfl rfl)
      (fun _ _ => ⟨hlog.1, rfl⟩)

theorem reconcileReplica_follows {v : Volume} {r : Replica} (hr : r ∈ seen)
    (hvol : r.volumeUUID = v.uuid) (log : Log Op Ans) (hlog : Reading v.uuid seen log) :
    Prog.Always sem (Follows c) (reconcileReplica v r) (fun log _ => Reading v.uuid seen log)
      log := by
  rw [reconcileReplica]
  split
  · rename_i hpending
    have hstate : r.state ≠ .deleting := by
      rw [hpending]
      simp
    split
    · -- the listing of the source's replicas is not what the call goes by
      refine Prog.always_next trivial (fun parent _ => ?_)
      refine Prog.always_next trivial (fun rs _ => ?_)
      have hlog' : Reading v.uuid seen (⟨.listReplicasFor r.sourceVolumeUUID, rs⟩
          :: ⟨.getVolume r.sourceVolumeUUID, parent⟩ :: log) :=
        ⟨(if_neg (fun h => absurd h.2 (by simp [sourceRead]))).trans hlog.1, rfl⟩
      dsimp only
      split
      · exact hlog'
      · exact startReplica_follows _ hr hvol hstate _ hlog'
    · exact startReplica_follows _ hr hvol hstate _ hlog
  · exact ⟨trivial, fun _ _ => ⟨trivial, fun _ _ => ⟨hlog.1, rfl⟩⟩⟩
  · exact hlog

theorem reconcileEngine_follows {v : Volume} {seen : List Engine} {e : Engine} (rs : List Replica)
    (he : e ∈ seen) (hvol : e.volumeUUID = v.uuid) (log : Log Op Ans)
    (hlog : seenEngines v.uuid log = seen ∧ sourceRead log = false) :
    Prog.Always sem (Follows c) (reconcileEngine v rs e)
      (fun log _ => seenEngines v.uuid log = seen ∧ sourceRead log = false) log := by
  have hput : ∀ (e' : Engine) (log : Log Op Ans), seenEngines v.uuid log = seen → e.state = .pending →
      e'.uuid = e.uuid → e'.volumeUUID = e.volumeUUID → Follows c log (.putEngine e') := by
    intro e' log hlog hpending huuid hvol' _
    refine ⟨e, ?_, huuid.symm, fun hdel => absurd (hpending.symm.trans hdel) (by simp)⟩
    rw [hvol', hvol, hlog]
    exact he
  rw [reconcileEngine]
  split
  · rename_i hpending
    split
    · refine Prog.always_next trivial (fun path _ => ?_)
      cases path with
      | none =>
        exact Prog.always_next (hput _ _ hlog.1 hpending rfl rfl)
          (fun _ _ => ⟨hlog.1, rfl⟩)
      | some path =>
        exact Prog.always_next (hput _ _ hlog.1 hpending rfl rfl)
          (fun _ _ => ⟨hlog.1, rfl⟩)
    · exact hlog
  · exact ⟨trivial, fun _ _ => ⟨trivial, fun _ _ => ⟨hlog.1, rfl⟩⟩⟩
  · exact hlog

theorem reconcileVolume_follows (host : String) (v : Volume) (log : Log Op Ans)
    (hlog : sourceRead log = false) :
    Prog.Always sem (Follows c) (reconcileVolume host v) (fun log _ => sourceRead log = false)
      log := by
  refine Prog.always_next trivial (fun rs hrs => ?_)
  have hvol := listReplicasFor_answer hrs
  refine Prog.always_bind (Prog.always_each (I := Reading v.uuid (listed rs))
    ⟨if_pos ⟨rfl, hlog⟩, rfl⟩ (fun r hr log h => ?_) (fun log _ => ?_))
  · have hr := (List.mem_filter.mp hr).1
    exact reconcileReplica_follows hr (hvol r hr) log h
  · refine Prog.always_next trivial (fun es hes => ?_)
    have hvol := listEnginesFor_answer hes
    refine Prog.always_each (I := fun log => seenEngines v.uuid log = listed es
      ∧ sourceRead log = false) ⟨if_pos rfl, rfl⟩ (fun e he log h => ?_) (fun _ h => h.2)
    have he := (List.mem_filter.mp he).1
    exact reconcileEngine_follows _ he (hvol e he) log h

theorem tick_follows (host : String) (live : Option HostLiveness) :
    Prog.Always sem (Follows c) (Control.tick host live) (fun _ _ => True) [] := by
  refine Prog.always_next trivial (fun a _ => ?_)
  cases a with
  | error e => trivial
  | ok vols =>
    refine Prog.always_bind (Prog.always_each (I := fun log => sourceRead log = false) rfl
      (fun v _ log h => reconcileVolume_follows host v log h) (fun log _ => ?_))
    cases live with
    | none => trivial
    | some live => exact rereplicateOrphans_follows live host log

/-- **What a call puts follows what it has read.** -/
theorem prog_follows (c : Call) : Prog.Always sem (Follows c) c.prog (fun _ _ => True) [] := by
  cases c with
  | destroy volumeUUID => exact Prog.always_discard (destroyVolume_follows volumeUUID)
  | attach volumeUUID hostUUID polls =>
    exact Prog.always_discard (attachVolume_follows volumeUUID hostUUID polls)
  | detach volumeUUID hostUUID => exact Prog.always_discard (detachVolume_follows volumeUUID hostUUID)
  | tick host live => exact tick_follows host live
  | sweep live host => exact rereplicateOrphans_follows live host []

end Programs

/-! ## What an operation does to the records -/

section Records

variable {ρ : Type} {key : ρ → String} {vol : ρ → String} {state : ρ → ReplicaState}
  {t t' : Table ρ String key}

theorem lasting_refl (t : Table ρ String key) : Lasting state t t := by
  intro r hr hdel r' hr' hkey
  rw [Table.eq_of_key hr' hr hkey]
  exact hdel

theorem lasting_delete (t : Table ρ String key) (k : String) : Lasting state t (t.delete k) :=
  fun r hr hdel r' hr' hkey => lasting_refl t r hr hdel r' (Table.mem_delete.mp hr').1 hkey

theorem noneNew_refl (volumeUUID : String) (t : Table ρ String key) : NoneNew vol volumeUUID t t :=
  fun r' hr' hvol => ⟨r', hr', rfl, hvol⟩

theorem noneNew_delete (volumeUUID : String) (t : Table ρ String key) (k : String) :
    NoneNew vol volumeUUID t (t.delete k) :=
  fun r' hr' hvol => ⟨r', (Table.mem_delete.mp hr').1, rfl, hvol⟩

theorem NoneNew.trans {t₁ t₂ t₃ : Table ρ String key}
    (h : NoneNew vol volumeUUID t₁ t₂) (h' : NoneNew vol volumeUUID t₂ t₃) :
    NoneNew vol volumeUUID t₁ t₃ := by
  intro r₃ hr₃ hvol
  obtain ⟨r₂, hr₂, hkey, hvol₂⟩ := h' r₃ hr₃ hvol
  obtain ⟨r₁, hr₁, hkey₁, hvol₁⟩ := h r₂ hr₂ hvol₂
  exact ⟨r₁, hr₁, hkey₁.trans hkey, hvol₁⟩

variable {deleting : String → Prop} {seen : List ρ} {r : ρ}
  (hcurrent : CurrentPut vol state t deleting seen r)
  (hfollows : @FollowsPut _ key state seen r)

include hcurrent hfollows

/-- The record that is put is new, or takes the place of one that was not marked unless it is. -/
theorem put_cases : (t.get (key r) = none ∧ ¬ deleting (vol r))
    ∨ ∃ stored, t.get (key r) = some stored ∧ vol stored = vol r
      ∧ (state stored = .deleting → state r = .deleting) := by
  rw [CurrentPut] at hcurrent
  split at hcurrent
  · exact Or.inl hcurrent
  · rename_i hnew
    obtain ⟨r₀, hr₀, hkey, hkeep⟩ := hfollows hnew
    obtain ⟨stored, hstored, he⟩ := Option.map_eq_some_iff.mp (hcurrent r₀ hr₀ hkey)
    obtain ⟨hstate, hvol⟩ := Prod.mk.inj he
    exact Or.inr ⟨stored, hstored, hvol, fun hdel => hkeep (hstate ▸ hdel)⟩

theorem put_lasting : Lasting state t (t.put r) := by
  intro r₀ hr₀ hdel r' hr' hkey
  rcases Table.mem_put.mp hr' with rfl | ⟨hr', -⟩
  · have hget : t.get (key r') = some r₀ := Table.get_eq_some.mpr ⟨hr₀, hkey.symm⟩
    rcases put_cases hcurrent hfollows with ⟨hnone, -⟩ | ⟨stored, hstored, -, hkeep⟩
    · exact absurd (hnone.symm.trans hget) (by simp)
    · obtain rfl := Option.some.inj (hstored.symm.trans hget)
      exact hkeep hdel
  · exact lasting_refl t r₀ hr₀ hdel r' hr' hkey

theorem put_noneNew (hdel : deleting volumeUUID) :
    NoneNew vol volumeUUID t (t.put r) := by
  intro r' hr' hvol
  rcases Table.mem_put.mp hr' with rfl | ⟨hr', -⟩
  · rcases put_cases hcurrent hfollows with ⟨-, hnot⟩ | ⟨stored, hstored, hvol', -⟩
    · exact absurd (hvol ▸ hdel) hnot
    · obtain ⟨hmem, hkey⟩ := Table.get_eq_some.mp hstored
      exact ⟨stored, hmem, hkey, hvol'.trans hvol⟩
  · exact ⟨r', hr', rfl, hvol⟩

end Records

/-- The volume is still being deleted, and has no record that it has not had before. -/
def Stays (s s' : Store) : Prop :=
  ∀ volumeUUID, VolumeDeleting s volumeUUID → VolumeDeleting s' volumeUUID
    ∧ NoneNew Replica.volumeUUID volumeUUID s.replicas s'.replicas
    ∧ NoneNew Engine.volumeUUID volumeUUID s.engines s'.engines

theorem stays_refl (s : Store) : Stays s s :=
  fun u hu => ⟨hu, noneNew_refl u _, noneNew_refl u _⟩

theorem stays_trans {s₁ s₂ s₃ : Store} (h : Stays s₁ s₂) (h' : Stays s₂ s₃) : Stays s₁ s₃ := by
  intro u hu
  obtain ⟨hdel, hreplicas, hengines⟩ := h u hu
  obtain ⟨hdel', hreplicas', hengines'⟩ := h' u hdel
  exact ⟨hdel', hreplicas.trans hreplicas', hengines.trans hengines'⟩

/-- **One operation** that puts what is current and follows what was read. -/
theorem op_final {c : Call} {s : Store} {log : Log Op Ans} {o : Op} (x : Env)
    (hfollows : Follows c log o) (hcurrent : CurrentOp s log o) :
    Marked s (sem s o x).1 ∧ Stays s (sem s o x).1 := by
  have h := sem_wrote s o x
  generalize (sem s o x).1 = s' at h
  cases h with
  | nothing o => exact ⟨⟨lasting_refl _, lasting_refl _⟩, stays_refl s⟩
  | replica r =>
    exact ⟨⟨put_lasting hcurrent hfollows, lasting_refl _⟩,
      fun u hu => ⟨hu, put_noneNew hcurrent hfollows hu, noneNew_refl u _⟩⟩
  | noReplica uuid =>
    exact ⟨⟨lasting_delete _ _, lasting_refl _⟩,
      fun u hu => ⟨hu, noneNew_delete u _ _, noneNew_refl u _⟩⟩
  | engine e =>
    exact ⟨⟨lasting_refl _, put_lasting hcurrent hfollows⟩,
      fun u hu => ⟨hu, noneNew_refl u _, put_noneNew hcurrent hfollows hu⟩⟩
  | noEngine uuid =>
    exact ⟨⟨lasting_refl _, lasting_delete _ _⟩,
      fun u hu => ⟨hu, noneNew_refl u _, noneNew_delete u _ _⟩⟩
  | volume v =>
    refine ⟨⟨lasting_refl _, lasting_refl _⟩,
      fun u hu => ⟨?_, noneNew_refl u _, noneNew_refl u _⟩⟩
    -- a volume that is being deleted is put as one that is
    obtain ⟨v₀, hv₀, huuid, hdel⟩ := hu
    by_cases hsame : v.uuid = u
    · refine ⟨v, Table.mem_put.mpr (Or.inl rfl), hsame, ?_⟩
      by_contra hnot
      exact hcurrent hnot ⟨v₀, hv₀, huuid.trans hsame.symm, hdel⟩
    · refine ⟨v₀, Table.mem_put.mpr (Or.inr ⟨hv₀, fun he => hsame ?_⟩), huuid, hdel⟩
      exact he.symm.trans huuid

/-! ## Every interleaving -/

theorem step_final {w w' : Agents} {event : Event Call Env} (hkept : World.Kept sem Follows w)
    (hcurrent : Current w event) (h : step w event = some w') :
    World.Kept sem Follows w' ∧ Marked w.store w'.store ∧ Stays w.store w'.store := by
  refine ⟨World.kept_step prog_follows hkept h, ?_⟩
  rcases World.step_cases h with ⟨c, rfl, rfl⟩ | ⟨i, x, c, log, o, next, rfl, hi, rfl⟩
  · exact ⟨⟨lasting_refl _, lasting_refl _⟩, stays_refl _⟩
  · have hfollows : Follows c log o := (hkept _ (List.mem_of_getElem? hi)).1
    exact op_final x hfollows (hcurrent _ (World.pending_call hi))

theorem kept_idle (s : Store) : World.Kept sem Follows (idle s) :=
  fun t ht => absurd ht (by simp [idle])

/--
**Deletion is final**, in every interleaving, operation by operation, in which every record is put
where the store still has it as it was read: what is marked stays marked until it is removed, and
what is removed of a volume that is being deleted does not come back.
-/
theorem run_final (s : Store) (events : List (Event Call Env))
    (hcurrent : Runs.Steady step Current (idle s) events) :
    (∀ k event w w', events[k]? = some event → Runs.run step (idle s) (events.take k) = some w →
        step w event = some w' → Marked w.store w'.store)
      ∧ ∀ k l w w', Runs.run step (idle s) (events.take k) = some w →
        Runs.run step (idle s) (events.take (k + l)) = some w' → Gone w.store w'.store := by
  refine ⟨fun k event w w' hk hrun hstep => ?_, fun k l w w' hrun hrun' u hu => ?_⟩
  · have hkept : World.Kept sem Follows w := World.threads_always prog_follows (kept_idle s) hrun
    exact (step_final hkept (hcurrent.ok_at hrun hk) hstep).2.1
  · have htrans : ∀ a b d : Agents, Stays a.store b.store → Stays b.store d.store →
        Stays a.store d.store := fun _ _ _ h h' => stays_trans h h'
    have hstep : ∀ a e b, World.Kept sem Follows a → Current a e → step a e = some b →
        World.Kept sem Follows b ∧ Stays a.store b.store := by
      intro a e b hkept hok he
      obtain ⟨hb, -, hstays⟩ := step_final hkept hok he
      exact ⟨hb, hstays⟩
    have hstays : Stays w.store w'.store :=
      Runs.Steady.related (R := fun a b : Agents => Stays a.store b.store)
        (fun a => stays_refl a.store) htrans hstep (kept_idle s) hcurrent hrun hrun'
    exact (hstays u hu).2

/-- A replica that is to be started on host a. -/
def replicaOfV : Replica where
  uuid := "r"
  volumeUUID := "v"
  hostUUID := "a"
  dc := ""
  address := ""
  state := .pending
  sourceVolumeUUID := ""
  sourceSnapshot := ""

/-- A volume and its replica. -/
def toStart : Store where
  volumes := Table.empty.put
    { uuid := "v", projectUUID := "", name := "v", sizeBytes := 4096, replicaCount := 1,
      state := .provisioning, attachedTo := "", sourceVolumeUUID := "", sourceSnapshot := "" }
  replicas := Table.empty.put replicaOfV
  engines := Table.empty

/-- A store that does not fail, and a spawner that does not fail either. -/
def spawning : Env := ⟨false, MapOrder.listed, some "addr"⟩

/-- The volume is destroyed, and then host a ticks. -/
def oneByOne : List (Event Call Env) :=
  [.start (.destroy "v"), .step 0 spawning, .step 0 spawning, .step 0 spawning, .step 0 spawning,
    .start (.tick "a" none), .step 1 spawning, .step 1 spawning, .step 1 spawning, .step 1 spawning]

theorem run_final_oneByOne :
    ∃ w w', Runs.run step (idle toStart) (oneByOne.take 5) = some w
      ∧ Runs.run step (idle toStart) (oneByOne.take (5 + 5)) = some w' ∧ Gone w.store w'.store := by
  have hcurrent : Runs.Steady step Current (idle toStart) oneByOne := by decide
  exact ⟨_, _, rfl, rfl, (run_final toStart oneByOne hcurrent).2 5 5 _ _ rfl rfl⟩

/-- The volume is destroyed while host a starts the replica. -/
def whileStarting : List (Event Call Env) :=
  [.start (.tick "a" none), .step 0 spawning, .step 0 spawning, .step 0 spawning,
    .start (.destroy "v"), .step 1 spawning, .step 1 spawning, .step 1 spawning, .step 1 spawning]

theorem whileStarting_comesBack :
    ∃ w w', Runs.run step (idle toStart) whileStarting = some w
      ∧ step w (.step 0 spawning) = some w' ∧ ¬ Marked w.store w'.store := by
  refine ⟨_, _, rfl, rfl, fun h => ?_⟩
  have hback := h.1 { replicaOfV with state := .deleting } (by decide) rfl
    { replicaOfV with address := "addr", state := .running } (by decide) rfl
  exact absurd hback (by decide)

end Deletion

end WeftBlock.Control
