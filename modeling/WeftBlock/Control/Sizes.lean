import WeftBlock.Control.Driver

/-!
# The sizes of volumes

`EnsureVolume` refuses to shrink a volume. But every call that writes a volume writes the whole
record, and goes by what it read a while before; meanwhile the driver of another host may have
made the volume larger. Here is what the calls write and when a size goes back.
-/

namespace WeftBlock.Control

open Maps Tables Programs

namespace Sizes

/-- The calls of the drivers. -/
inductive Call
  | ensure (hosts : List HostCandidate) (spec : VolumeSpec)
  | attach (volumeUUID hostUUID : String) (polls : Nat)
  | detach (volumeUUID hostUUID : String)
  | destroy (volumeUUID : String)
  | clone (hosts : List HostCandidate) (req : CloneRequest)

/-- The program of a call. -/
def Call.prog : Call → Act Unit
  | .ensure hosts spec => (ensureVolume hosts spec).discard
  | .attach volumeUUID hostUUID polls => (attachVolume volumeUUID hostUUID polls).discard
  | .detach volumeUUID hostUUID => (detachVolume volumeUUID hostUUID).discard
  | .destroy volumeUUID => (destroyVolume volumeUUID).discard
  | .clone hosts req => (createFromSnapshot hosts req).discard

/-- The drivers and their store. -/
abbrev Drivers := World Call Store Op Ans

/-- One operation of a call, or a new call. -/
def step : Drivers → Event Call Env → Option Drivers := World.step sem Call.prog

/-- Nobody has called yet. -/
def idle (s : Store) : Drivers := ⟨s, []⟩

/-- The size that the call has read last of a volume. -/
def sizeRead (uuid : String) : Log Op Ans → Option Int
  | [] => none
  | ⟨.getVolume u, .ok v⟩ :: log => if u = uuid then some v.sizeBytes else sizeRead uuid log
  | _ :: log => sizeRead uuid log

/--
The size that a call goes by: the one it is asked for, the one of the parent, or that of the volume
when it was read.
-/
def Call.goesBy (log : Log Op Ans) : Call → Option Int
  | .ensure hosts spec => some (desiredVolume hosts spec).sizeBytes
  | .clone _ req => sizeRead req.parentVolumeUUID log
  | .attach volumeUUID _ _ | .detach volumeUUID _ | .destroy volumeUUID => sizeRead volumeUUID log

/-- No volume that is put has been made larger than the size its call goes by. -/
def Current (w : Drivers) : Event Call Env → Prop
  | .start _ => True
  | .step i x => ∀ c log v next, w.threads[i]? = some ⟨c, log, .call (.putVolume v) next⟩ →
      x.fails = false → v.uuid ≠ "" →
      ∀ stored, w.store.volumes.get v.uuid = some stored →
        ∀ size, c.goesBy log = some size → stored.sizeBytes ≤ size

/-- No volume has become smaller. -/
def Grown (w w' : Drivers) : Prop :=
  ∀ uuid v, w.store.volumes.get uuid = some v →
    ∃ v', w'.store.volumes.get uuid = some v' ∧ v.sizeBytes ≤ v'.sizeBytes

theorem grown_refl (w : Drivers) : Grown w w := fun _ v h => ⟨v, h, le_refl _⟩

theorem grown_trans (w₁ w₂ w₃ : Drivers) (h : Grown w₁ w₂) (h' : Grown w₂ w₃) : Grown w₁ w₃ := by
  intro uuid v hv
  obtain ⟨v', hv', hle⟩ := h uuid v hv
  obtain ⟨v'', hv'', hle'⟩ := h' uuid v' hv'
  exact ⟨v'', hv'', hle.trans hle'⟩

/-! ## What the calls write -/

/-- A volume is put with the size that the call goes by. -/
def Writes (c : Call) (log : Log Op Ans) : Op → Prop
  | .putVolume v => c.goesBy log = some v.sizeBytes
  | _ => True

theorem ensureVolume_writes (hosts : List HostCandidate) (spec : VolumeSpec) (log : Log Op Ans) :
    Prog.Always sem (Writes (.ensure hosts spec)) (ensureVolume hosts spec) (fun _ _ => True) log :=
  ensureVolume_always (fun _ _ => trivial) (fun _ _ => trivial) rfl (fun _ => rfl)

/-- The size of the record that was read. -/
theorem attachVolume_writes (volumeUUID hostUUID : String) (polls : Nat) (log : Log Op Ans) :
    Prog.Always sem (Writes (.attach volumeUUID hostUUID polls))
      (attachVolume volumeUUID hostUUID polls) (fun _ _ => True) log :=
  attachVolume_always (fun _ _ => trivial) (fun _ _ => trivial) (fun _ _ => trivial)
    (fun _ => trivial) (fun _ _ _ => by simp [Writes, Call.goesBy, sizeRead])

theorem deleteEngines_writes {c : Call} (es : List Engine) : ∀ log : Log Op Ans,
    Prog.Always sem (Writes c) (deleteEngines es) (fun _ _ => True) log := by
  induction es with
  | nil => exact fun _ => trivial
  | cons e es ih =>
    intro log
    refine Prog.always_next trivial (fun a _ => ?_)
    cases a with
    | error e => trivial
    | ok u => exact ih _

theorem detachVolume_writes (volumeUUID hostUUID : String) (log : Log Op Ans) :
    Prog.Always sem (Writes (.detach volumeUUID hostUUID)) (detachVolume volumeUUID hostUUID)
      (fun _ _ => True) log := by
  refine Prog.always_next trivial (fun es _ => ?_)
  refine Prog.always_bind (Prog.always_mono (deleteEngines_writes _ _) (fun log a _ => ?_))
  cases a with
  | error e => trivial
  | ok u =>
    refine Prog.always_next trivial (fun a _ => ?_)
    cases a with
    | error e => trivial
    | ok vol =>
      dsimp only
      split
      · refine Prog.always_next ?_ (fun _ _ => trivial)
        simp [Writes, Call.goesBy, sizeRead]
      · trivial

theorem destroyVolume_writes (volumeUUID : String) (log : Log Op Ans) :
    Prog.Always sem (Writes (.destroy volumeUUID)) (destroyVolume volumeUUID) (fun _ _ => True)
      log := by
  refine Prog.always_next trivial (fun rs _ => ?_)
  refine Prog.always_bind (Prog.always_each (I := fun _ => True) trivial (fun r _ log _ => ?_) (fun log _ => ?_))
  · exact Prog.always_next trivial (fun _ _ => trivial)
  refine Prog.always_next trivial (fun a _ => ?_)
  cases a with
  | error e => cases e <;> trivial
  | ok cur =>
    refine Prog.always_next ?_ (fun a _ => ?_)
    · simp [Writes, Call.goesBy, sizeRead]
    · cases a <;> trivial

theorem createFromSnapshot_writes (hosts : List HostCandidate) (req : CloneRequest)
    (log : Log Op Ans) :
    Prog.Always sem (Writes (.clone hosts req)) (createFromSnapshot hosts req) (fun _ _ => True)
      log := by
  rw [createFromSnapshot]
  split
  · trivial
  split
  · trivial
  refine Prog.always_next trivial (fun a _ => ?_)
  cases a with
  | error e => trivial
  | ok parent =>
    refine Prog.always_next trivial (fun a _ => ?_)
    cases a with
    | ok existing => trivial
    | error e =>
      cases e with
      | notFound =>
        dsimp only
        split
        · trivial
        · -- the size of the parent, read before the new volume was looked for
          refine Prog.always_next ?_ (fun a _ => ?_)
          · simp [Writes, Call.goesBy, sizeRead, cloneVolume]
          · cases a with
            | error e => trivial
            | ok u =>
              refine Prog.always_bind (Prog.always_mono (putReplicas_always (fun _ _ => trivial) _ _ _)
                (fun log a _ => ?_))
              cases a with
              | error e => trivial
              | ok u =>
                refine Prog.always_next trivial (fun a _ => ?_)
                cases a <;> trivial
      | required => trivial
      | unavailable => trivial

theorem prog_writes (c : Call) : Prog.Always sem (Writes c) c.prog (fun _ _ => True) [] := by
  cases c with
  | ensure hosts spec => exact Prog.always_discard (ensureVolume_writes hosts spec [])
  | attach volumeUUID hostUUID polls =>
    exact Prog.always_discard (attachVolume_writes volumeUUID hostUUID polls [])
  | detach volumeUUID hostUUID =>
    exact Prog.always_discard (detachVolume_writes volumeUUID hostUUID [])
  | destroy volumeUUID => exact Prog.always_discard (destroyVolume_writes volumeUUID [])
  | clone hosts req => exact Prog.always_discard (createFromSnapshot_writes hosts req [])

/-! ## When a size goes back -/

theorem grown_of_volumes {w w' : Drivers} (h : w'.store.volumes = w.store.volumes) :
    Grown w w' := by
  intro uuid v hv
  rw [h]
  exact ⟨v, hv, le_refl _⟩

/-- A volume that is put takes no size back exactly if the stored one is not larger. -/
theorem grown_put_iff {w w' : Drivers} {v : Volume}
    (h : w'.store.volumes = w.store.volumes.put v) :
    Grown w w' ↔ ∀ stored, w.store.volumes.get v.uuid = some stored →
      stored.sizeBytes ≤ v.sizeBytes := by
  constructor
  · intro hg stored hstored
    obtain ⟨v', hv', hle⟩ := hg v.uuid stored hstored
    rw [h, Table.get_put, if_pos rfl] at hv'
    rwa [Option.some.inj hv']
  · intro hle uuid u hu
    rw [h, Table.get_put]
    split
    · rename_i hk
      rw [hk] at hu
      exact ⟨v, rfl, hle u hu⟩
    · exact ⟨u, hu, le_refl _⟩

theorem sem_putVolume (s : Store) (v : Volume) (x : Env) :
    (sem s (.putVolume v) x).1.volumes
      = if x.fails = false ∧ v.uuid ≠ "" then s.volumes.put v else s.volumes := by
  rw [sem, Env.unless]
  by_cases hf : x.fails = true
  · rw [if_pos hf, if_neg (by simp [hf])]
  · by_cases hu : v.uuid = ""
    · rw [if_neg hf, if_pos hu, if_neg (by simp [hu])]
    · rw [if_neg hf, if_neg hu, if_pos ⟨Bool.not_eq_true _ ▸ hf, hu⟩]

theorem step_grown (w : Drivers) (e : Event Call Env) (h : World.Kept sem Writes w) :
    (step w e = none ∧ Current w e)
      ∨ ∃ w', step w e = some w' ∧ World.Kept sem Writes w' ∧ (Current w e ↔ Grown w w') := by
  cases hstep : step w e with
  | none =>
    refine Or.inl ⟨rfl, ?_⟩
    cases e with
    | start c => trivial
    | step i x =>
      intro c log v next hi
      rw [step, World.step, hi] at hstep
      simp at hstep
  | some w' =>
    refine Or.inr ⟨w', rfl, World.kept_step prog_writes h hstep, ?_⟩
    rcases World.step_cases hstep with ⟨c, rfl, rfl⟩ | ⟨i, x, c, log, o, next, rfl, hi, rfl⟩
    · exact ⟨fun _ => grown_of_volumes rfl, fun _ => trivial⟩
    by_cases ho : o.writesVolumes = true
    · cases o with
      | putVolume v =>
        have hgoes : c.goesBy log = some v.sizeBytes := (h _ (List.mem_of_getElem? hi)).1
        have hcur : Current w (.step i x) ↔ (x.fails = false → v.uuid ≠ "" →
            ∀ stored, w.store.volumes.get v.uuid = some stored →
              stored.sizeBytes ≤ v.sizeBytes) := by
          refine ⟨fun hc hf hu stored hs => hc c log v next hi hf hu stored hs _ hgoes, ?_⟩
          intro hc c' log' v' next' hi' hf hu stored hs size hsize
          obtain ⟨rfl, rfl, hcall⟩ := Thread.mk.inj (Option.some.inj (hi.symm.trans hi'))
          obtain ⟨ho, -⟩ := Prog.call.inj hcall
          obtain rfl := Op.putVolume.inj ho
          rw [← Option.some.inj (hgoes.symm.trans hsize)]
          exact hc hf hu stored hs
        have hput := sem_putVolume w.store v x
        rw [hcur]
        by_cases hdone : x.fails = false ∧ v.uuid ≠ ""
        · rw [if_pos hdone] at hput
          rw [grown_put_iff hput]
          exact ⟨fun hc => hc hdone.1 hdone.2, fun hc _ _ => hc⟩
        · rw [if_neg hdone] at hput
          exact ⟨fun _ => grown_of_volumes hput, fun _ hf hu => absurd ⟨hf, hu⟩ hdone⟩
      | _ => exact absurd ho (by simp [Op.writesVolumes])
    · -- another operation
      refine ⟨fun _ => grown_of_volumes (sem_volumes _ _ (Bool.not_eq_true _ ▸ ho)), fun _ => ?_⟩
      intro c' log' v' next' hi'
      obtain ⟨-, -, hcall⟩ := Thread.mk.inj (Option.some.inj (hi.symm.trans hi'))
      obtain ⟨rfl, -⟩ := Prog.call.inj hcall
      exact absurd rfl ho

/--
**Volumes only grow**, in every interleaving of the calls from any store, exactly as long as no call
puts a volume that another one has made larger than the size it goes by.
-/
theorem run_grown_iff (s : Store) (events : List (Event Call Env)) :
    Runs.Steady step Current (idle s) events ↔
      ∀ k l w w', Runs.run step (idle s) (events.take k) = some w →
        Runs.run step (idle s) (events.take (k + l)) = some w' → Grown w w' :=
  Runs.steady_iff_related grown_refl grown_trans step_grown
    (fun t ht => absurd ht (by simp [idle]))

/-- A volume of one GiB. -/
def oneGiB : Volume where
  uuid := "v"
  projectUUID := ""
  name := "v"
  sizeBytes := 2 ^ 30
  replicaCount := 1
  state := .healthy
  attachedTo := ""
  sourceVolumeUUID := ""
  sourceSnapshot := ""

/-- Host a attaches the volume while the driver of host b makes it two GiB. -/
def growBehind : List (Event Call Env) :=
  [.start (.attach "v" "a" 0), .step 0 calm, .step 0 calm,
    .start (.ensure [] ⟨"v", "", "v", 2⟩), .step 1 calm, .step 1 calm,
    .step 0 calm, .step 0 calm]

theorem growBehind_shrinks :
    ∃ w w', Runs.run step (idle ⟨Table.empty.put oneGiB, Table.empty, Table.empty⟩)
        (growBehind.take 6) = some w
      ∧ Runs.run step (idle ⟨Table.empty.put oneGiB, Table.empty, Table.empty⟩) growBehind = some w'
      ∧ ¬ Grown w w' := by
  refine ⟨_, _, rfl, rfl, fun h => ?_⟩
  obtain ⟨v', hv', hle⟩ := h "v" { oneGiB with sizeBytes := 2 ^ 31 } (by decide)
  have heq : v' = { oneGiB with attachedTo := "a", state := .attached } :=
    (Option.some.inj hv').symm
  rw [heq] at hle
  exact absurd hle (by decide)

end Sizes

end WeftBlock.Control
