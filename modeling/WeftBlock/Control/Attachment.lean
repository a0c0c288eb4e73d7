import WeftBlock.Control.Reconcile

/-!
# Who a volume is attached to

`AttachVolume`, `DetachVolume` and the ticks of the hosts, each run by itself. A volume should have
an engine that is starting or running on one host at most, the one its record names.

`AttachVolume` looks for an engine on its own host only. It is the one call that can break this,
when there is an engine on another host.
-/

namespace WeftBlock.Control

open Maps Tables Programs

/-- Starting or running. -/
def Engine.working (e : Engine) : Bool := e.state == .pending || e.state == .running

/-- **Single attachment.** -/
structure SingleAttachment (s : Store) : Prop where
  /-- At most one host has a working engine of a volume. -/
  single : ∀ e ∈ s.engines.rows, ∀ e' ∈ s.engines.rows, e.working = true → e'.working = true →
    e.volumeUUID = e'.volumeUUID → e.hostUUID = e'.hostUUID
  /-- The volume names it. -/
  named : ∀ e ∈ s.engines.rows, e.working = true →
    ∃ vol, s.volumes.get e.volumeUUID = some vol ∧ vol.attachedTo = e.hostUUID

namespace Attachment

/-- What is done. -/
inductive Call
  | attach (volumeUUID hostUUID : String) (polls : Nat)
  | detach (volumeUUID hostUUID : String)
  | tick (host : String) (live : Option HostLiveness)

/-- The program of a call. -/
def Call.prog : Call → Act Unit
  | .attach volumeUUID hostUUID polls => (attachVolume volumeUUID hostUUID polls).discard
  | .detach volumeUUID hostUUID => (detachVolume volumeUUID hostUUID).discard
  | .tick host live => Control.tick host live

/-- A call, the orders of maps and what the spawns in it answer. -/
structure Event where
  call : Call
  choices : Nat → MapOrder × Option String

/-- A call run by itself. -/
def step (s : Store) (e : Event) : Option Store :=
  some (Prog.exec sem e.call.prog (fun n => ⟨false, (e.choices n).1, (e.choices n).2⟩) s).1

/-- The call makes an engine record. -/
def Creates (s : Store) (volumeUUID hostUUID : String) : Prop :=
  volumeUUID ≠ "" ∧ (s.volumes.get volumeUUID).isSome = true
    ∧ ∀ e ∈ s.engines.rows, e.volumeUUID = volumeUUID → e.hostUUID ≠ hostUUID

/-- Attaching makes no engine beside a working one. -/
def Call.Exclusive (s : Store) : Call → Prop
  | .attach volumeUUID hostUUID _ => Creates s volumeUUID hostUUID →
      ∀ e ∈ s.engines.rows, e.volumeUUID = volumeUUID → e.working = false
  | _ => True

/-! ## Engines keep their names -/

/-- The record is named after its volume and host. -/
def Named (e : Engine) : Prop := e.uuid = engineUUID e.volumeUUID e.hostUUID ∧ e.volumeUUID ≠ ""

/-- All engine records are. -/
def Base (s : Store) : Prop := ∀ e ∈ s.engines.rows, Named e

theorem engineUUID_ne_empty (volumeUUID hostUUID : String) :
    engineUUID volumeUUID hostUUID ≠ "" := by
  intro h
  have hlen := congrArg String.length h
  simp [engineUUID, String.length_append] at hlen

theorem engineUUID_inj {volumeUUID hostUUID hostUUID' : String}
    (h : engineUUID volumeUUID hostUUID = engineUUID volumeUUID hostUUID') :
    hostUUID = hostUUID' := by
  have hl := congrArg String.toList h
  simp only [engineUUID, String.toList_append, List.append_cancel_left_eq] at hl
  exact String.toList_inj.mp hl

variable {e : Engine} {s : Store}

theorem Named.uuid_ne (h : Named e) : ¬ (e.uuid = "" ∨ e.volumeUUID = "") := by
  rintro (he | he)
  · exact engineUUID_ne_empty _ _ (h.1.symm.trans he)
  · exact h.2 he

theorem engineOn_eq_empty {hostUUID : String} {es : List Engine} (h : ∀ e ∈ es, Named e) :
    engineOn hostUUID es = "" ↔ ∀ e ∈ es, e.hostUUID ≠ hostUUID := by
  rw [engineOn]
  cases hf : es.find? (fun e => e.hostUUID = hostUUID) with
  | none =>
    have := List.find?_eq_none.mp hf
    simpa using this
  | some e =>
    have hmem := List.mem_of_find?_eq_some hf
    have hhost : e.hostUUID = hostUUID := by simpa using List.find?_some hf
    refine ⟨fun he => absurd (Or.inl he) (h e hmem).uuid_ne, fun hall => ?_⟩
    exact absurd hhost (hall e hmem)

/-! ## Attaching -/

theorem sat_pollEngine {E : Env → Prop} (volumeUUID hostUUID engine : String) (polls : Nat)
    (s : Store) :
    Prog.Sat sem E (pollEngine volumeUUID hostUUID engine polls) s (fun s' _ => s' = s) := by
  induction polls with
  | zero => exact Prog.sat_done rfl
  | succ polls ih =>
    refine Prog.sat_bind (sat_getEngine (fun r => ?_))
    cases r with
    | error e => exact Prog.sat_done rfl
    | ok e =>
      dsimp only
      split
      · split
        · exact Prog.sat_done rfl
        · exact Prog.sat_done rfl
      · exact Prog.sat_done rfl
      · exact ih

/-- The store after an engine has been made. -/
def attached (s : Store) (vol : Volume) (volumeUUID hostUUID : String) : Store where
  volumes := s.volumes.put { vol with attachedTo := hostUUID, state := .attached }
  replicas := s.replicas
  engines := s.engines.put (newEngine volumeUUID hostUUID)

/-- `AttachVolume` makes an engine, or leaves the store alone. -/
theorem sat_attachVolume (h : Base s) (volumeUUID hostUUID : String) (polls : Nat) :
    Prog.Sat sem Reliable (attachVolume volumeUUID hostUUID polls) s (fun s' _ =>
      (¬ Creates s volumeUUID hostUUID ∧ s' = s)
      ∨ Creates s volumeUUID hostUUID ∧ ∃ vol, s.volumes.get volumeUUID = some vol
        ∧ s' = attached s vol volumeUUID hostUUID) := by
  refine Prog.sat_bind (sat_getVolume Reliable.elim
    (fun hnone => ?_) (fun vol hvol => ?_))
  · refine Prog.sat_done (Or.inl ⟨fun hc => ?_, rfl⟩)
    have hsome := hc.2.1
    rw [hnone] at hsome
    simp at hsome
  have huuid : vol.uuid = volumeUUID := (Table.get_eq_some.mp hvol).2
  refine Prog.sat_bind (sat_listEnginesFor Reliable.elim
    (fun es hes => ?_))
  have hmem : ∀ e, e ∈ es ↔ e ∈ s.engines.rows ∧ e.volumeUUID = volumeUUID := fun e => by
    rw [hes.mem_iff, List.mem_filter, decide_eq_true_eq]
  have hnamed : ∀ e ∈ es, Named e := fun e he => h e ((hmem e).mp he).1
  dsimp only [listed]
  split
  · -- no engine on this host
    rename_i hon
    have hnone := (engineOn_eq_empty hnamed).mp hon
    refine Prog.sat_bind (sat_putEngine Reliable.elim
      (fun hreq => ?_) (fun hreq => ?_))
    · refine Prog.sat_done (Or.inl ⟨fun hc => ?_, rfl⟩)
      rcases hreq with hreq | hreq
      · exact engineUUID_ne_empty _ _ hreq
      · exact hc.1 hreq
    have hne : volumeUUID ≠ "" := fun he => hreq (Or.inr he)
    have hc : Creates s volumeUUID hostUUID :=
      ⟨hne, by rw [hvol]; rfl, fun e he hv => hnone e ((hmem e).mpr ⟨he, hv⟩)⟩
    refine Prog.sat_bind (sat_putVolume Reliable.elim
      (fun hreq => absurd (huuid.symm.trans hreq) hne) (fun _ => ?_))
    exact Prog.sat_mono (sat_pollEngine _ _ _ _ _)
      (fun s' _ hs' => Or.inr ⟨hc, vol, hvol, hs'⟩)
  · rename_i hon
    refine Prog.sat_mono (sat_pollEngine _ _ _ _ _) (fun s' _ hs' => Or.inl ⟨fun hc => hon ?_, hs'⟩)
    exact (engineOn_eq_empty hnamed).mpr (fun e he => hc.2.2 e ((hmem e).mp he).1 ((hmem e).mp he).2)

/-- An engine that is made beside no working one keeps the attachment single. -/
theorem attached_single (hb : Base s) (hs : SingleAttachment s) {vol : Volume}
    {volumeUUID hostUUID : String} (hc : Creates s volumeUUID hostUUID)
    (hvol : s.volumes.get volumeUUID = some vol) :
    SingleAttachment (attached s vol volumeUUID hostUUID)
      ↔ ∀ e ∈ s.engines.rows, e.volumeUUID = volumeUUID → e.working = false := by
  have huuid : vol.uuid = volumeUUID := (Table.get_eq_some.mp hvol).2
  have hget : ∀ k, (attached s vol volumeUUID hostUUID).volumes.get k
      = if k = volumeUUID then some { vol with attachedTo := hostUUID, state := .attached }
        else s.volumes.get k := fun k => by
    rw [attached, Table.get_put]
    exact congrArg (fun u => if k = u then _ else _) huuid
  constructor
  · intro hs' e he hv
    -- it is still there, on another host
    have hhost := hc.2.2 e he hv
    have hkeep : e ∈ (attached s vol volumeUUID hostUUID).engines.rows := by
      refine Table.mem_put.mpr (Or.inr ⟨he, fun hk => hhost ?_⟩)
      rw [(hb e he).1, hv] at hk
      exact engineUUID_inj hk
    by_contra hw
    rw [Bool.not_eq_false] at hw
    exact hhost (hs'.single e hkeep _ (Table.mem_put.mpr (Or.inl rfl)) hw rfl hv)
  · intro hfree
    -- working engines are the new one and those of other volumes
    have hcases : ∀ e ∈ (attached s vol volumeUUID hostUUID).engines.rows, e.working = true →
        e = newEngine volumeUUID hostUUID ∨ e ∈ s.engines.rows ∧ e.volumeUUID ≠ volumeUUID := by
      intro e he hw
      rcases Table.mem_put.mp he with rfl | ⟨he, -⟩
      · exact Or.inl rfl
      · refine Or.inr ⟨he, fun hv => ?_⟩
        rw [hfree e he hv] at hw
        simp at hw
    refine ⟨fun e he e' he' hw hw' hv => ?_, fun e he hw => ?_⟩
    · rcases hcases e he hw with rfl | ⟨he, hne⟩ <;> rcases hcases e' he' hw' with rfl | ⟨he', hne'⟩
      · rfl
      · exact absurd hv.symm hne'
      · exact absurd hv hne
      · exact hs.single e he e' he' hw hw' hv
    · rcases hcases e he hw with rfl | ⟨he, hne⟩
      · exact ⟨_, (hget _).trans (if_pos rfl), rfl⟩
      · rw [hget, if_neg hne]
        exact hs.named e he hw

/-! ## Detaching, and the ticks -/

/-- Nothing has changed but engines, of which no new ones are working. -/
structure Fewer (s s' : Store) : Prop where
  volumes : s'.volumes = s.volumes
  base : Base s'
  fewer : ∀ e' ∈ s'.engines.rows, e'.working = true →
    ∃ e ∈ s.engines.rows, e.working = true ∧ e.volumeUUID = e'.volumeUUID
      ∧ e.hostUUID = e'.hostUUID

theorem Fewer.refl (h : Base s) : Fewer s s :=
  ⟨rfl, h, fun e he hw => ⟨e, he, hw, rfl, rfl⟩⟩

theorem Fewer.single {s s' : Store} (h : Fewer s s') (hs : SingleAttachment s) :
    SingleAttachment s' := by
  refine ⟨fun e he e' he' hw hw' hv => ?_, fun e he hw => ?_⟩
  · obtain ⟨x, hx, hwx, hvx, hhx⟩ := h.fewer e he hw
    obtain ⟨y, hy, hwy, hvy, hhy⟩ := h.fewer e' he' hw'
    rw [← hhx, ← hhy]
    exact hs.single x hx y hy hwx hwy ((hvx.trans hv).trans hvy.symm)
  · obtain ⟨x, hx, hwx, hvx, hhx⟩ := h.fewer e he hw
    rw [h.volumes, ← hvx, ← hhx]
    exact hs.named x hx hwx

/-- The engines are marked, and nothing else changes. -/
theorem sat_deleteEngines {s₀ : Store} {es : List Engine} (hes : ∀ e ∈ es, Named e) :
    ∀ {s : Store}, Fewer s₀ s → Prog.Sat sem Reliable (deleteEngines es) s (fun s' r =>
      r = .ok () ∧ Fewer s₀ s' ∧ ∀ e' ∈ s'.engines.rows, e'.working = true →
        e' ∈ s.engines.rows ∧ ∀ e ∈ es, e'.uuid ≠ e.uuid) := by
  induction es with
  | nil =>
    intro s hs
    exact Prog.sat_done ⟨rfl, hs, fun e' he' _ => ⟨he', fun _ h => absurd h (by simp)⟩⟩
  | cons e es ih =>
    intro s hs
    have hnamed := hes e List.mem_cons_self
    refine Prog.sat_bind (sat_putEngine Reliable.elim (fun hreq => absurd hreq hnamed.uuid_ne)
      (fun _ => ?_))
    have hput : Fewer s₀ { s with engines := s.engines.put { e with state := .deleting } } := by
      refine ⟨hs.volumes, fun x hx => ?_, fun x hx hw => ?_⟩
      · rcases Table.mem_put.mp hx with rfl | ⟨hx, -⟩
        · exact hnamed
        · exact hs.base x hx
      · rcases Table.mem_put.mp hx with rfl | ⟨hx, -⟩
        · exact absurd hw (by simp [Engine.working])
        · exact hs.fewer x hx hw
    refine Prog.sat_mono (ih (fun x hx => hes x (List.mem_cons_of_mem _ hx)) hput)
      (fun s' r h => ⟨h.1, h.2.1, fun x hx hw => ?_⟩)
    obtain ⟨hmem, hne⟩ := h.2.2 x hx hw
    rcases Table.mem_put.mp hmem with rfl | ⟨hmem, hk⟩
    · exact absurd hw (by simp [Engine.working])
    · refine ⟨hmem, fun y hy => ?_⟩
      rcases List.mem_cons.mp hy with rfl | hy
      · exact hk
      · exact hne y hy

theorem sat_detachVolume (hb : Base s) (hs : SingleAttachment s) (volumeUUID hostUUID : String) :
    Prog.Sat sem Reliable (detachVolume volumeUUID hostUUID) s (fun s' _ =>
      Base s' ∧ SingleAttachment s') := by
  refine Prog.sat_bind (sat_listEnginesFor Reliable.elim (fun es hes => ?_))
  have hmem : ∀ e, e ∈ (listed (.ok es)).filter (fun e => e.hostUUID = hostUUID)
      ↔ (e ∈ s.engines.rows ∧ e.volumeUUID = volumeUUID) ∧ e.hostUUID = hostUUID := fun e => by
    rw [listed, List.mem_filter, hes.mem_iff, List.mem_filter, decide_eq_true_eq, decide_eq_true_eq]
  refine Prog.sat_bind (Prog.sat_mono (sat_deleteEngines
    (fun e he => hb e ((hmem e).mp he).1.1) (Fewer.refl hb)) (fun s₁ r h => ?_))
  obtain ⟨rfl, hfew, hgone⟩ := h
  have hs₁ := hfew.single hs
  refine Prog.sat_bind (sat_getVolume Reliable.elim (fun _ => Prog.sat_done ⟨hfew.base, hs₁⟩)
    (fun vol hvol => ?_))
  have huuid : vol.uuid = volumeUUID := (Table.get_eq_some.mp hvol).2
  dsimp only
  split
  · rename_i hto
    refine Prog.sat_bind (sat_putVolume Reliable.elim
      (fun _ => Prog.sat_done ⟨hfew.base, hs₁⟩) (fun _ => Prog.sat_done ⟨hfew.base, ?_⟩))
    -- no working engine of the volume is left
    refine ⟨hs₁.single, fun e he hw => ?_⟩
    have hne : e.volumeUUID ≠ volumeUUID := by
      intro hv
      obtain ⟨hmem₀, hother⟩ := hgone e he hw
      obtain ⟨vol', hvol', hto'⟩ := hs₁.named e he hw
      rw [hv, hvol] at hvol'
      obtain rfl := Option.some.inj hvol'
      exact hother e ((hmem e).mpr ⟨⟨hmem₀, hv⟩, hto'.symm.trans hto⟩) rfl
    rw [Table.get_put, if_neg (fun hk => hne (hk.trans huuid))]
    exact hs₁.named e he hw
  · exact Prog.sat_done ⟨hfew.base, hs₁⟩

/-- An engine of which a working one of its place was there to begin with. -/
def Backed (s₀ : Store) (e : Engine) : Prop :=
  Named e ∧ (e.working = true → ∃ x ∈ s₀.engines.rows, x.working = true
    ∧ x.volumeUUID = e.volumeUUID ∧ x.hostUUID = e.hostUUID)

section

variable {s₀ s : Store} (h : Fewer s₀ s)
include h

theorem Fewer.put (he : Backed s₀ e) :
    Fewer s₀ { s with engines := s.engines.put e } := by
  refine ⟨h.volumes, fun x hx => ?_, fun x hx hw => ?_⟩
  · rcases Table.mem_put.mp hx with rfl | ⟨hx, -⟩
    · exact he.1
    · exact h.base x hx
  · rcases Table.mem_put.mp hx with rfl | ⟨hx, -⟩
    · exact he.2 hw
    · exact h.fewer x hx hw

theorem Fewer.delete (uuid : String) :
    Fewer s₀ { s with engines := s.engines.delete uuid } :=
  ⟨h.volumes, fun x hx => h.base x (Table.mem_delete.mp hx).1,
    fun x hx => h.fewer x (Table.mem_delete.mp hx).1⟩

theorem sat_reconcileEngine (he : Backed s₀ e) (v : Volume) (rs : List Replica) :
    Prog.Sat sem Reliable (reconcileEngine v rs e) s (fun s' _ => Fewer s₀ s') := by
  rw [reconcileEngine]
  split
  · rename_i hstate
    -- the engine is working before and after
    have hback : ∀ e' : Engine, e'.uuid = e.uuid → e'.volumeUUID = e.volumeUUID →
        e'.hostUUID = e.hostUUID → Backed s₀ e' := by
      intro e' hu hv hh
      refine ⟨⟨by rw [hu, hv, hh]; exact he.1.1, by rw [hv]; exact he.1.2⟩, fun _ => ?_⟩
      rw [hv, hh]
      exact he.2 (by simp [Engine.working, hstate])
    split
    · refine Prog.sat_bind (sat_spawnEngine (fun x _ => ?_))
      cases x.spawned with
      | none =>
        refine Prog.sat_bind (sat_putEngine Reliable.elim (fun _ => Prog.sat_done h)
          (fun _ => Prog.sat_done (h.put (hback _ rfl rfl rfl))))
      | some path =>
        refine Prog.sat_bind (sat_putEngine Reliable.elim (fun _ => Prog.sat_done h)
          (fun _ => Prog.sat_done (h.put (hback _ rfl rfl rfl))))
    · exact Prog.sat_done h
  · refine Prog.sat_bind (sat_stopEngine ?_)
    exact Prog.sat_bind (sat_deleteEngine Reliable.elim (Prog.sat_done (h.delete _)))
  · exact Prog.sat_done h

end

/-- What writes replicas only changes nothing here. -/
theorem sat_fewer_of_replicasOnly {α : Type} {p : Act α} {s₀ s : Store}
    (hp : Prog.Always sem ReplicasOnly p (fun _ _ => True) []) (h : Fewer s₀ s) :
    Prog.Sat sem Reliable p s (fun s' _ => Fewer s₀ s') := by
  refine Prog.sat_of_always hp (fun s _ o x ho hs => ?_) h
  have hv := sem_volumes s x ho.1
  have he := sem_engines s x ho.2
  exact ⟨hv.trans hs.volumes, fun e hmem => hs.base e (he ▸ hmem),
    fun e hmem => hs.fewer e (he ▸ hmem)⟩

theorem sat_reconcileVolume {s₀ s : Store} (h : Fewer s₀ s) (host : String) (v : Volume) :
    Prog.Sat sem Reliable (reconcileVolume host v) s (fun s' _ => Fewer s₀ s') := by
  refine Prog.sat_bind (sat_listReplicasFor Reliable.elim (fun rs _ => ?_))
  refine Prog.sat_bind (Prog.sat_mono (Prog.sat_forEach (I := fun _ s => Fewer s₀ s)
    (fun r _ s hs => sat_fewer_of_replicasOnly (reconcileReplica_replicasOnly v r []) hs) h)
    (fun s₁ _ h₁ => ?_))
  refine Prog.sat_bind (sat_listEnginesFor Reliable.elim (fun es hes => ?_))
  -- the engines that were listed have been there from the beginning
  have hback : ∀ e ∈ es, Backed s₀ e := by
    intro e he
    have hmem := (List.mem_filter.mp (hes.mem_iff.mp he)).1
    exact ⟨h₁.base e hmem, h₁.fewer e hmem⟩
  refine Prog.sat_mono (Prog.sat_forEach
    (I := fun l s => Fewer s₀ s ∧ ∀ e ∈ l, Backed s₀ e) (fun e l s hs => ?_)
    ⟨h₁, fun e he => hback e (List.mem_of_mem_filter he)⟩) (fun _ _ h => h.1)
  refine Prog.sat_mono (sat_reconcileEngine hs.1 (hs.2 e List.mem_cons_self) v _)
    (fun s' _ h' => ⟨h', fun x hx => hs.2 x (List.mem_cons_of_mem _ hx)⟩)

theorem sat_tick (hb : Base s) (host : String) (live : Option HostLiveness) :
    Prog.Sat sem Reliable (Control.tick host live) s (fun s' _ => Fewer s s') := by
  refine Prog.sat_bind (sat_listVolumes Reliable.elim (fun vols _ => ?_))
  refine Prog.sat_bind (Prog.sat_mono (Prog.sat_forEach (I := fun _ s' => Fewer s s')
    (fun v _ s' hs' => sat_reconcileVolume hs' host v) (Fewer.refl hb)) (fun s' _ hs' => ?_))
  cases live with
  | none => exact Prog.sat_done hs'
  | some live => exact sat_fewer_of_replicasOnly (rereplicateOrphans_replicasOnly live host []) hs'

/-! ## Runs -/

/-- A call keeps the attachment single exactly when it is exclusive. -/
theorem step_single (s : Store) (e : Event) (hb : Base s) (hs : SingleAttachment s) :
    ∃ s', step s e = some s' ∧ Base s' ∧ (e.call.Exclusive s ↔ SingleAttachment s') := by
  obtain ⟨call, choices⟩ := e
  have hrel : ∀ n, Reliable ⟨false, (choices n).1, (choices n).2⟩ := fun _ => rfl
  cases call with
  | attach volumeUUID hostUUID polls =>
    have hsat := Prog.sat_discard (sat_attachVolume hb volumeUUID hostUUID polls) _ hrel
    rcases hsat with ⟨hc, heq⟩ | ⟨hc, vol, hvol, heq⟩
    · exact ⟨s, congrArg some heq, hb, fun _ => hs, fun _ hc' => absurd hc' hc⟩
    · have hbase : Base (attached s vol volumeUUID hostUUID) := by
        intro x hx
        rcases Table.mem_put.mp hx with rfl | ⟨hx, -⟩
        · exact ⟨rfl, hc.1⟩
        · exact hb x hx
      have hiff := attached_single hb hs hc hvol
      exact ⟨_, congrArg some heq, hbase, fun hok => hiff.mpr (hok hc), fun hs' _ => hiff.mp hs'⟩
  | detach volumeUUID hostUUID =>
    have hsat := Prog.sat_discard (sat_detachVolume hb hs volumeUUID hostUUID) _ hrel
    exact ⟨_, rfl, hsat.1, fun _ => hsat.2, fun _ => trivial⟩
  | tick host live =>
    have hsat := sat_tick hb host live _ hrel
    exact ⟨_, rfl, hsat.base, fun _ => hsat.single hs, fun _ => trivial⟩

/--
**Single attachment**: in the calls and ticks from a store without engines, exactly as long as no
volume is attached to a host while it has a working engine on another one.
-/
theorem run_single_iff (volumes : Table Volume String Volume.uuid)
    (replicas : Table Replica String Replica.uuid) (events : List Event) :
    Runs.Steady step (fun s e => e.call.Exclusive s) ⟨volumes, replicas, Table.empty⟩ events ↔
      ∀ k s, Runs.run step ⟨volumes, replicas, Table.empty⟩ (events.take k) = some s →
        SingleAttachment s := by
  have hnone : ∀ e : Engine, e ∉ (Table.empty : Table Engine String Engine.uuid).rows :=
    fun e he => absurd he (by simp [Table.empty])
  refine Runs.steady_iff Base (fun s e hb hs => Or.inr (step_single s e hb hs)) ?_ ?_
  · exact fun e he => absurd he (hnone e)
  · exact ⟨fun e he => absurd he (hnone e), fun e he => absurd he (hnone e)⟩

/-- A volume without replicas. -/
def plainVolume (uuid : String) : Volume where
  uuid := uuid
  projectUUID := ""
  name := uuid
  sizeBytes := 4096
  replicaCount := 1
  state := .healthy
  attachedTo := ""
  sourceVolumeUUID := ""
  sourceSnapshot := ""

/-- One volume, attached to two hosts. -/
def attachTwice : List Event :=
  [⟨.attach "v" "a" 0, fun _ => (MapOrder.listed, none)⟩,
    ⟨.attach "v" "b" 0, fun _ => (MapOrder.listed, none)⟩]

theorem attachTwice_not_single :
    ∃ s, Runs.run step ⟨Table.empty.put (plainVolume "v"), Table.empty, Table.empty⟩ attachTwice
        = some s ∧ ¬ SingleAttachment s := by
  refine ⟨_, rfl, fun h => ?_⟩
  exact absurd (h.single (newEngine "v" "a") (by decide) (newEngine "v" "b") (by decide) rfl rfl rfl)
    (by decide)

end Attachment

end WeftBlock.Control
