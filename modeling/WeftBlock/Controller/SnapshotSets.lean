import WeftBlock.Controller.UnmapBlame
import WeftBlock.Lib.Runs

/-!
# The snapshots the replicas hold

`Snapshot` asks every replica that is not in error for a snapshot, and hands the
errors to `handleErrorNoLock`. `AddReplica` takes a snapshot of the present replicas
and of the new one first, and returns the errors as they are. Each replica takes its
snapshot or fails and stays as it was, so after a call the RW replicas hold the same
snapshots only if those that failed have been demoted.

`AddReplica` demotes no one. And `Snapshot` leaves a replica alone whose error says
that the snapshot exists already, which is harmless only if it does.
-/

namespace WeftBlock

open DataConn Maps

namespace Controller

variable {β : Type}

/-- The errors of `Snapshot`. -/
inductive SnapshotErr
  | check (e : CtlErr)
  | io (e : IOErr)

/--
`Snapshot`: whether there is room is checked once under the read lock and once more
under the write lock.
-/
def snapshot (order : MapOrder) (c : Controller β) (first second : SnapshotAnswers) :
    Option (Controller β × Option SnapshotErr) :=
  match c.canDoSnapshot order first with
  | none => none
  | some (some e) => some (c, some (.check e))
  | some none =>
    match c.canDoSnapshot order second with
    | none => none
    | some (some e) => some (c, some (.check e))
    | some none =>
      match snapshotErrors second.snapshot (entries order c.backend.backends) with
      | none => none
      | some errors =>
        (c.handleErrorNoLock order
          (if errors.keys.length ≠ 0 then some (.backend ⟨errors, ∅⟩) else none)).map
          (fun (c, err) => (c, err.map .io))

/-- The replica at this address is asked for a snapshot. -/
def isAsked (c : Controller β) (a : String) : Bool :=
  c.replicas.any (fun r => r.address = a && r.mode ≠ .ERR)

variable {c : Controller β} {snapshot : String → Option Err}

theorem isAsked_iff {a : String} :
    c.isAsked a = true ↔ ∃ m, ⟨a, m⟩ ∈ c.replicas ∧ m ≠ .ERR :=
  any_asked

/-- The errors of a snapshot are those of the replicas that are asked. -/
theorem snapshotErrors_spec (h : Consistent c) (order : MapOrder) (snapshot : String → Option Err) :
    ∃ errors, snapshotErrors snapshot (entries order c.backend.backends) = some errors
      ∧ ∀ a, errors.lookup a = if c.isAsked a then snapshot a else none := by
  refine ⟨_, snapshotErrors_eq (h.entries_live order) snapshot, fun a => ?_⟩
  rw [lookup_gather]
  exact if_congr ((h.mem_asked order).trans isAsked_iff.symm) rfl rfl

/-- Every replica that is asked takes the snapshot. -/
def allTake (c : Controller β) (snapshot : String → Option Err) : Bool :=
  c.replicas.all (fun r => r.mode = .ERR || (snapshot r.address).isNone)

theorem allTake_iff :
    c.allTake snapshot = true ↔ ∀ r ∈ c.replicas, r.mode ≠ .ERR → snapshot r.address = none := by
  simp only [allTake, List.all_eq_true, Bool.or_eq_true, decide_eq_true_eq, Option.isNone_iff_eq_none,
    or_iff_not_imp_left]

theorem exists_error_iff {errors : AList (fun _ : String => Err)}
    (hl : ∀ a, errors.lookup a = if c.isAsked a then snapshot a else none) :
    (∃ a, a ∈ errors) ↔ c.allTake snapshot = false := by
  rw [← Bool.not_eq_true, allTake_iff]
  push Not
  constructor
  · intro hex
    obtain ⟨a, ha⟩ := hex
    obtain ⟨e, he⟩ := Option.isSome_iff_exists.mp (AList.lookup_isSome.mpr ha)
    rw [hl a] at he
    by_cases hask : c.isAsked a = true
    · rw [if_pos hask] at he
      obtain ⟨m, hr, hm⟩ := isAsked_iff.mp hask
      exact ⟨_, hr, hm, by rw [he]; simp⟩
    · rw [if_neg hask] at he
      simp at he
  · intro hex
    obtain ⟨r, hr, hm, hne⟩ := hex
    refine ⟨r.address, AList.lookup_isSome.mp ?_⟩
    rw [hl, if_pos (isAsked_iff.mpr ⟨_, hr, hm⟩)]
    exact Option.ne_none_iff_isSome.mp hne

/-- There is room for a snapshot. -/
def hasRoom (order : MapOrder) (c : Controller β) (answers : SnapshotAnswers) : Bool :=
  match c.canDoSnapshot order answers with
  | some none => true
  | _ => false

/-- **Snapshot demotes exactly the `Demoted`**, if it gets as far as asking the replicas. -/
theorem snapshot_spec (h : Consistent c) (order : MapOrder) (first second : SnapshotAnswers) :
    ∃ c' err, c.snapshot order first second = some (c', err) ∧ Consistent c' ∧
      if c.hasRoom order first && c.hasRoom order second then
        ∀ a, ⟨a, .RW⟩ ∈ c'.replicas ↔ ⟨a, .RW⟩ ∈ c.replicas
          ∧ ¬ Demoted c (fun a => if c.isAsked a then second.snapshot a else none) a
      else c'.replicas = c.replicas := by
  unfold snapshot hasRoom
  obtain ⟨e1, h1⟩ := canDoSnapshot_total h order first
  obtain ⟨e2, h2⟩ := canDoSnapshot_total h order second
  rw [h1, h2]
  cases e1 with
  | some e => exact ⟨c, _, rfl, h, rfl⟩
  | none =>
    cases e2 with
    | some e => exact ⟨c, _, rfl, h, rfl⟩
    | none =>
      obtain ⟨errors, he, hl⟩ := snapshotErrors_spec h order second.snapshot
      rw [he]
      dsimp only [Bool.and_self, if_true]
      by_cases hany : ∃ a, a ∈ errors
      · have hlen : errors.keys.length ≠ 0 := by
          obtain ⟨a, ha⟩ := hany
          exact (List.length_pos_of_mem (AList.mem_keys.mp ha)).ne'
        obtain ⟨c', err, marked, hrun, hmoded, hmark⟩ := handleErrorNoLock_demoted h order hany
        rw [if_pos hlen, hrun]
        refine ⟨c', _, rfl, hmoded.consistent, fun a => ?_⟩
        rw [hmoded.replicas, mem_map_markErr (by simp)]
        refine and_congr_right (fun ha => not_congr ?_)
        rw [hmark _ ha (by simp)]
        simp only [hl]
      · have hlen : ¬ errors.keys.length ≠ 0 := by
          rw [not_not, List.length_eq_zero_iff, List.eq_nil_iff_forall_not_mem]
          exact fun a ha => hany ⟨a, AList.mem_keys.mpr ha⟩
        rw [if_neg hlen, handleErrorNoLock_other order (by simp)]
        refine ⟨c, _, rfl, h, fun a => ⟨fun ha => ⟨ha, fun hd => ?_⟩, fun ha => ha.1⟩⟩
        obtain ⟨x, hx, -⟩ := hd
        dsimp only at hx
        rw [← hl] at hx
        exact hany ⟨a, AList.lookup_isSome.mp (by rw [hx]; rfl)⟩

/-- `AddReplica` gets as far as asking the present replicas for a snapshot. -/
def fansOut (order : MapOrder) (c : Controller β) (address : String) (mode : Mode)
    (answers : AddAnswers β) : Bool :=
  (c.canAdd address).1 && answers.create.isOk && answers.size.isOk && mode ≠ .ERR
    && (c.backend.backends.keys.length = 0 || c.hasRoom order answers.snapshots)

/-- `AddReplica` gets all the snapshots it asks for. -/
def joins (order : MapOrder) (c : Controller β) (address : String) (mode : Mode)
    (answers : AddAnswers β) : Bool :=
  c.fansOut order address mode answers && c.allTake answers.snapshots.snapshot
    && (answers.snapshots.snapshot address).isNone

section

variable {order : MapOrder} {c : Controller β} {address : String} {mode : Mode}
  {answers : AddAnswers β}

theorem joins_iff :
    c.joins order address mode answers = true ↔ c.fansOut order address mode answers = true
      ∧ c.allTake answers.snapshots.snapshot = true
      ∧ answers.snapshots.snapshot address = none := by
  simp only [joins, Bool.and_eq_true, Option.isNone_iff_eq_none, and_assoc]

/-- An address that is asked to join is a new one. -/
theorem fansOut_new (h : c.fansOut order address mode answers = true) (m : Mode) :
    ⟨address, m⟩ ∉ c.replicas := by
  intro hm
  have hhas : c.hasReplica address = true := (hasReplica_iff c address).mpr ⟨m, hm⟩
  simp [fansOut, canAdd, hhas] at h

end

theorem snapshotForAdd_joins (h : Consistent c) (order : MapOrder) (b : β) (address : String)
    (answers : SnapshotAnswers) :
    ∃ err, c.snapshotForAdd order (some b) address answers = some err ∧
      (err = none ↔ ((c.backend.backends.keys.length = 0 || c.hasRoom order answers)
        && c.allTake answers.snapshot && (answers.snapshot address).isNone) = true) := by
  obtain ⟨err, herr⟩ := canDoSnapshot_total h order answers
  obtain ⟨errors, he, hl⟩ := snapshotErrors_spec h order answers.snapshot
  have hany := exists_error_iff hl
  have hlen : errors.keys.length ≠ 0 ↔ ∃ a, a ∈ errors := by
    rw [← Nat.pos_iff_ne_zero, List.length_pos_iff_exists_mem]
    simp only [AList.mem_keys]
  have hfirst : ∃ e, (if c.backend.backends.keys.length ≠ 0 then c.canDoSnapshot order answers
      else some none) = some e
      ∧ (e = none ↔ (c.backend.backends.keys.length = 0 || c.hasRoom order answers) = true) := by
    unfold hasRoom
    rw [herr]
    by_cases hk : c.backend.backends.keys.length = 0
    · rw [if_neg (by simpa using hk)]; exact ⟨none, rfl, by simp [hk]⟩
    · rw [if_pos hk]
      cases err with
      | none => exact ⟨none, rfl, by simp⟩
      | some e => exact ⟨some e, rfl, by simp [hk]⟩
  obtain ⟨e, hfirst, hroom⟩ := hfirst
  unfold snapshotForAdd
  rw [hfirst, he]
  cases e with
  | some e =>
    have : (c.backend.backends.keys.length = 0 || c.hasRoom order answers) = false :=
      Bool.eq_false_iff.mpr (fun hh => absurd (hroom.mpr hh) (by simp))
    exact ⟨_, rfl, by rw [this]; simp⟩
  | none =>
    rw [hroom.mp rfl]
    dsimp only
    by_cases herrs : ∃ a, a ∈ errors
    · rw [if_pos (hlen.mpr herrs), hany.mp herrs]
      exact ⟨_, rfl, by simp⟩
    · have hall : c.allTake answers.snapshot = true := by
        simpa using fun hf => herrs (hany.mpr hf)
      rw [if_neg (fun hh => herrs (hlen.mp hh)), if_neg (by simp), hall]
      exact ⟨_, rfl, by simp⟩

/-- Who is RW once `addReplicaNoLock` has returned. -/
theorem addReplicaNoLock_joins {c c' : Controller β} (h : Consistent c) {order : MapOrder} {b : β}
    {address : String} {mode : Mode} {answers : SnapshotAnswers} {err : Option CtlErr}
    (hrun : c.addReplicaNoLock order (some b) address true mode answers = some (c', err))
    (a : String) :
    ⟨a, .RW⟩ ∈ c'.replicas ↔ ⟨a, .RW⟩ ∈ c.replicas ∨ a = address ∧ mode = .RW
      ∧ ((c.canAdd address).1 && ((c.backend.backends.keys.length = 0 || c.hasRoom order answers)
        && c.allTake answers.snapshot && (answers.snapshot address).isNone)) = true := by
  unfold addReplicaNoLock at hrun
  obtain ⟨ok, e, hadd⟩ : ∃ ok e, c.canAdd address = (ok, e) := ⟨_, _, rfl⟩
  rw [hadd] at hrun ⊢
  cases ok with
  | false =>
    obtain ⟨rfl, rfl⟩ := by simpa using hrun
    simp
  | true =>
    obtain ⟨err', hsnap, hiff⟩ := snapshotForAdd_joins h order b address answers
    rw [Bool.true_and, ← hiff]
    by_cases hm : mode = .ERR
    · -- nothing is asked for, and the new replica is not RW
      rw [if_neg (fun hh => hh.2 hm)] at hrun
      obtain ⟨rfl, rfl⟩ := by simpa using hrun
      simp [hm]
    · rw [if_pos ⟨rfl, hm⟩, hsnap] at hrun
      cases err' with
      | some e' =>
        obtain ⟨rfl, rfl⟩ := by simpa using hrun
        simp
      | none =>
        obtain ⟨rfl, rfl⟩ := by simpa using hrun
        simp only [List.mem_append, List.mem_singleton, Replica.mk.injEq, and_true]
        exact or_congr_right (and_congr_right (fun _ => eq_comm))

/--
**A replica becomes RW by joining exactly if all the snapshots are taken.** The others
are left alone.
-/
theorem addReplica_joins (h : Consistent c) (order : MapOrder) (address : String) (mode : Mode)
    (answers : AddAnswers β) :
    ∃ c' err, c.addReplica order address true mode answers = some (c', err) ∧ Consistent c'
      ∧ ∀ a, ⟨a, .RW⟩ ∈ c'.replicas ↔ ⟨a, .RW⟩ ∈ c.replicas
        ∨ a = address ∧ mode = .RW ∧ c.joins order address mode answers = true := by
  obtain ⟨c', err, hrun, hc, -⟩ := addReplica_spec h order address true mode answers
  refine ⟨c', err, hrun, hc, fun a => ?_⟩
  unfold addReplica at hrun
  unfold joins fansOut
  obtain ⟨ok, e, hadd⟩ : ∃ ok e, c.canAdd address = (ok, e) := ⟨_, _, rfl⟩
  cases ok with
  | false =>
    rw [hadd] at hrun ⊢
    obtain ⟨rfl, rfl⟩ := by simpa using hrun
    simp
  | true =>
    rw [hadd] at hrun
    cases hcreate : answers.create with
    | error x =>
      rw [hcreate] at hrun
      obtain ⟨rfl, rfl⟩ := by simpa using hrun
      simp [Except.isOk, Except.toBool]
    | ok b =>
      cases hs : answers.size with
      | error x =>
        rw [hcreate, hs] at hrun
        obtain ⟨rfl, rfl⟩ := by simpa using hrun
        simp [Except.isOk, Except.toBool]
      | ok size =>
        rw [hcreate, hs] at hrun
        dsimp only at hrun
        -- neither the members nor the checks depend on the size
        have hjoin : ⟨a, .RW⟩ ∈ c'.replicas ↔ ⟨a, .RW⟩ ∈ c.replicas ∨ a = address ∧ mode = .RW
            ∧ ((c.canAdd address).1 && ((c.backend.backends.keys.length = 0
              || c.hasRoom order answers.snapshots) && c.allTake answers.snapshots.snapshot
              && (answers.snapshots.snapshot address).isNone)) = true := by
          split at hrun
          · have hsize : Consistent { c with size := size } :=
              ⟨h.distinct, h.modes, h.oneWO, h.nil_err, h.built⟩
            exact addReplicaNoLock_joins hsize hrun a
          · exact addReplicaNoLock_joins h hrun a
        rw [hjoin, hadd]
        refine or_congr_right (and_congr_right (fun _ => and_congr_right (fun hm => ?_)))
        simp [Except.isOk, Except.toBool, hm]

/-! ## The replicas with their snapshots -/

/-- The controller, and the names of the snapshots each replica holds. -/
structure SnapshotSets (β : Type) where
  ctl : Controller β
  names : String → Finset String

/-- The calls that take snapshots; an `AddReplica` asks for one. -/
inductive SnapshotCall (β : Type)
  | snapshot (order : MapOrder) (name : String) (first second : SnapshotAnswers)
  | addReplica (order : MapOrder) (address : String) (mode : Mode) (uuid : String)
      (answers : AddAnswers β)

namespace SnapshotSets

/-- The snapshots after each replica that is asked took one or failed and stayed as it was. -/
def take (w : SnapshotSets β) (name : String) (snapshot : String → Option Err) (a : String) :
    Finset String :=
  if w.ctl.isAsked a && (snapshot a).isNone then insert name (w.names a) else w.names a

/-- One call. The snapshot of a joining replica comes after those of the others. -/
def step (w : SnapshotSets β) : SnapshotCall β → Option (SnapshotSets β)
  | .snapshot order name first second =>
    (w.ctl.snapshot order first second).map (fun x => ⟨x.1,
      if w.ctl.hasRoom order first && w.ctl.hasRoom order second then
        w.take name second.snapshot
      else w.names⟩)
  | .addReplica order address mode uuid answers =>
    (w.ctl.addReplica order address true mode answers).map (fun x => ⟨x.1,
      if w.ctl.joins order address mode answers then
        Function.update (w.take uuid answers.snapshots.snapshot) address
          (insert uuid (w.names address))
      else if w.ctl.fansOut order address mode answers then
        w.take uuid answers.snapshots.snapshot
      else w.names⟩)

/-- **The RW replicas hold the same snapshots.** -/
def Agree (w : SnapshotSets β) : Prop :=
  ∀ a b, ⟨a, .RW⟩ ∈ w.ctl.replicas → ⟨b, .RW⟩ ∈ w.ctl.replicas → w.names a = w.names b

/--
When a call leaves them so. A snapshot that one RW replica takes must not be refused by
another as already existing, unless it does exist. For `AddReplica` it must not be
refused by another at all; and a replica that joins as RW must bring what the others
hold.
-/
def Sound (w : SnapshotSets β) : SnapshotCall β → Prop
  | .snapshot order name first second =>
    w.ctl.hasRoom order first = true → w.ctl.hasRoom order second = true →
    ∀ a b, ⟨a, .RW⟩ ∈ w.ctl.replicas → ⟨b, .RW⟩ ∈ w.ctl.replicas →
      second.snapshot a = none → ∀ e, second.snapshot b = some e →
      isSnapshotDiskExist e = true → name ∈ w.names b
  | .addReplica order address mode uuid answers =>
    w.ctl.fansOut order address mode answers = true →
    (∀ a b, ⟨a, .RW⟩ ∈ w.ctl.replicas → ⟨b, .RW⟩ ∈ w.ctl.replicas →
      answers.snapshots.snapshot a = none → answers.snapshots.snapshot b ≠ none →
      uuid ∈ w.names b)
    ∧ (mode = .RW → w.ctl.joins order address mode answers = true →
      ∀ a, ⟨a, .RW⟩ ∈ w.ctl.replicas → insert uuid (w.names address) = insert uuid (w.names a))

section

variable {w : SnapshotSets β}

theorem take_rw {a : String} (ha : ⟨a, .RW⟩ ∈ w.ctl.replicas) (name : String)
    (snapshot : String → Option Err) :
    w.take name snapshot a
      = if snapshot a = none then insert name (w.names a) else w.names a := by
  have hask : w.ctl.isAsked a = true := Controller.isAsked_iff.mpr ⟨_, ha, by simp⟩
  rw [take, hask, Bool.true_and]
  simp only [Option.isNone_iff_eq_none]

/--
Some RW replicas of those that agreed are left after a snapshot. They agree exactly if
where one of them took it and another did not, it was there.
-/
theorem take_agree_iff (hw : w.Agree) {P : String → Prop}
    (hP : ∀ a, P a → ⟨a, .RW⟩ ∈ w.ctl.replicas) (name : String)
    (snapshot : String → Option Err) :
    (∀ a b, P a → P b → w.take name snapshot a = w.take name snapshot b)
      ↔ ∀ a b, P a → P b → snapshot a = none → snapshot b ≠ none → name ∈ w.names b := by
  constructor
  · intro hall a b ha hb hsa hsb
    have hab := hall a b ha hb
    rw [take_rw (hP a ha), take_rw (hP b hb), if_pos hsa, if_neg hsb] at hab
    exact hab ▸ Finset.mem_insert_self _ _
  · intro hall a b ha hb
    have hab := hw a b (hP a ha) (hP b hb)
    rw [take_rw (hP a ha), take_rw (hP b hb)]
    by_cases hsa : snapshot a = none
    · by_cases hsb : snapshot b = none
      · rw [if_pos hsa, if_pos hsb, hab]
      · rw [if_pos hsa, if_neg hsb, hab, Finset.insert_eq_of_mem (hall a b ha hb hsa hsb)]
    · by_cases hsb : snapshot b = none
      · rw [if_neg hsa, if_pos hsb, hab, Finset.insert_eq_of_mem (hab ▸ hall b a hb ha hsb hsa)]
      · rw [if_neg hsa, if_neg hsb, hab]

/-- Where one RW replica has taken the snapshot, another keeps its mode after an error
exactly if the error says that it exists already. -/
theorem demoted_iff {a b : String} (ha : ⟨a, .RW⟩ ∈ w.ctl.replicas) (hb : ⟨b, .RW⟩ ∈ w.ctl.replicas)
    (hsa : snapshot a = none) {e : Err} (hsb : snapshot b = some e) :
    Demoted w.ctl (fun a => if w.ctl.isAsked a then snapshot a else none) b
      ↔ isSnapshotDiskExist e = false := by
  have hask : ∀ {a}, ⟨a, .RW⟩ ∈ w.ctl.replicas → w.ctl.isAsked a = true := fun h =>
    isAsked_iff.mpr ⟨_, h, by simp⟩
  constructor
  · intro hd
    obtain ⟨x, hx, hor⟩ := hd
    dsimp only at hx
    rw [if_pos (hask hb), hsb] at hx
    obtain rfl := Option.some.inj hx
    rcases hor with hp | ⟨hf, -⟩
    · simp only [isPlain, Bool.and_eq_true, Bool.not_eq_true'] at hp
      exact hp.1
    · simp only [isFull, Bool.and_eq_true, Bool.not_eq_true'] at hf
      exact hf.1
  · intro he
    refine ⟨e, by dsimp only; rw [if_pos (hask hb), hsb], ?_⟩
    rcases isPlain_or_isFull he with hp | hf
    · exact Or.inl hp
    · refine Or.inr ⟨hf, Or.inr ⟨_, ha, rfl, fun y hy => ?_⟩⟩
      dsimp only at hy
      rw [if_pos (hask ha), hsa] at hy
      simp at hy

/-- **A call that can be made leaves the RW replicas agreed exactly if it is sound.** -/
theorem step_spec (h : Consistent w.ctl) (call : SnapshotCall β) :
    ∃ w', w.step call = some w' ∧ Consistent w'.ctl ∧ (w.Agree → (w.Sound call ↔ w'.Agree)) := by
  cases call with
  | snapshot order name first second =>
    obtain ⟨c', err, hrun, hc, hif⟩ := snapshot_spec h order first second
    refine ⟨_, by rw [step, hrun]; rfl, hc, fun hw => ?_⟩
    dsimp only [Sound, Agree]
    by_cases hroom : (w.ctl.hasRoom order first && w.ctl.hasRoom order second) = true
    · rw [if_pos hroom] at hif ⊢
      obtain ⟨h1, h2⟩ := Bool.and_eq_true_iff.mp hroom
      simp only [h1, h2, true_imp_iff]
      rw [take_agree_iff hw (fun a ha => ((hif a).mp ha).1)]
      simp only [hif]
      constructor
      · intro hall a b ha hb hsa hsb
        obtain ⟨e, he⟩ := Option.ne_none_iff_exists'.mp hsb
        refine hall a b ha.1 hb.1 hsa e he ?_
        by_contra hex
        exact hb.2 ((demoted_iff ha.1 hb.1 hsa he).mpr (by simpa using hex))
      · intro hall a b ha hb hsa e he hex
        have hda : ¬ Demoted w.ctl (fun a => if w.ctl.isAsked a then second.snapshot a else none)
            a := by
          intro hd
          obtain ⟨x, hx, -⟩ := hd
          dsimp only at hx
          rw [hsa, ite_self] at hx
          simp at hx
        have hdb := mt (demoted_iff ha hb hsa he).mp (by simp [hex])
        exact hall a b ⟨ha, hda⟩ ⟨hb, hdb⟩ hsa (by simp [he])
    · rw [if_neg hroom] at hif ⊢
      rw [hif]
      exact ⟨fun _ => hw, fun _ h1 h2 => absurd (by rw [h1, h2]; rfl) hroom⟩
  | addReplica order address mode uuid answers =>
    obtain ⟨c', err, hrun, hc, hrw⟩ := addReplica_joins h order address mode answers
    refine ⟨_, by rw [step, hrun]; rfl, hc, fun hw => ?_⟩
    dsimp only [Sound, Agree]
    simp only [hrw]
    by_cases hjoin : w.ctl.joins order address mode answers = true
    · -- all the snapshots are taken, and only what the new replica brings matters
      obtain ⟨hfan, hall, -⟩ := joins_iff.mp hjoin
      have htake : ∀ a, ⟨a, .RW⟩ ∈ w.ctl.replicas →
          Function.update (w.take uuid answers.snapshots.snapshot) address
            (insert uuid (w.names address)) a = insert uuid (w.names a) := by
        intro a ha
        rw [Function.update_of_ne (fun heq => fansOut_new hfan _ (heq ▸ ha)), take_rw ha,
          if_pos (allTake_iff.mp hall _ ha (by simp))]
      rw [if_pos hjoin]
      simp only [hfan, hjoin, true_imp_iff, and_true]
      constructor
      · intro hsound a b ha hb
        rcases ha with ha | ⟨rfl, hm⟩ <;> rcases hb with hb | ⟨rfl, hm'⟩
        · rw [htake a ha, htake b hb, hw a b ha hb]
        · rw [htake a ha, Function.update_self, hsound.2 hm' a ha]
        · rw [htake b hb, Function.update_self, hsound.2 hm b hb]
        · rfl
      · intro hagree
        refine ⟨fun a b _ hb _ hsb => absurd (allTake_iff.mp hall _ hb (by simp)) hsb,
          fun hm a ha => ?_⟩
        rw [← htake a ha, ← hagree address a (Or.inr ⟨rfl, hm⟩) (Or.inl ha), Function.update_self]
    · rw [if_neg hjoin]
      simp only [hjoin, Bool.false_eq_true, and_false, or_false, false_imp_iff, imp_true_iff,
        and_true]
      by_cases hfan : w.ctl.fansOut order address mode answers = true
      · rw [if_pos hfan, take_agree_iff hw (fun a ha => ha)]
        simp only [hfan, true_imp_iff]
      · rw [if_neg hfan]
        exact ⟨fun _ => hw, fun _ hh => absurd hh hfan⟩

end

/--
**The RW replicas hold the same snapshots after every call exactly if every call is
sound** in the state its turn comes in.
-/
theorem run_agree_iff {w : SnapshotSets β} (h : Consistent w.ctl) (hw : w.Agree)
    (calls : List (SnapshotCall β)) :
    (∀ k, ∃ w', Runs.run step w (calls.take k) = some w')
      ∧ ((∀ k w', Runs.run step w (calls.take k) = some w' → w'.Agree)
        ↔ Runs.Steady step Sound w calls) := by
  constructor
  · intro k
    have hstep : ∀ w : SnapshotSets β, ∀ call ∈ calls.take k, Consistent w.ctl →
        ∃ w', w.step call = some w' ∧ Consistent w'.ctl := by
      intro w call _ h
      obtain ⟨w', hs, hc, -⟩ := step_spec h call
      exact ⟨w', hs, hc⟩
    obtain ⟨w', hrun, -⟩ := Runs.run_total hstep h
    exact ⟨w', hrun⟩
  · refine (Runs.steady_iff (fun w => Consistent w.ctl) (fun w call h hw => ?_) h hw).symm
    obtain ⟨w', hs, hc, hiff⟩ := step_spec h call
    exact Or.inr ⟨w', hs, hc, hiff hw⟩

/-- There is room, the replica at `b` fails, and every other one takes the snapshot. -/
def secondFails : SnapshotAnswers where
  usage _ := .ok (1, 1, 0)
  headFileSize _ := .ok 0
  snapshot a := if a = "b" then some (.other (text "r/w timeout")) else none

/-- Two RW replicas without a snapshot. -/
def two : SnapshotSets Nat := ⟨pair, fun _ => ∅⟩

theorem sound_two : two.Sound (.snapshot .listed "s" secondFails secondFails) := by
  intro _ _ a b _ _ _ e he hex
  dsimp only [secondFails] at he
  split at he
  · rw [← Option.some.inj he] at hex
    exact absurd hex (by decide)
  · simp at he

theorem run_agree_secondFails :
    ∃ w', Runs.run step two [.snapshot .listed "s" secondFails secondFails] = some w' ∧ w'.Agree := by
  obtain ⟨hrun, hiff⟩ := run_agree_iff (w := two) consistent_pair (fun _ _ _ _ => rfl)
    [.snapshot .listed "s" secondFails secondFails]
  obtain ⟨w', hw'⟩ := hrun 1
  exact ⟨w', hw', hiff.mpr ⟨sound_two, fun _ _ => trivial⟩ 1 w' hw'⟩

/--
A third replica is to join. The first takes the snapshot for it and the second does
not; the call returns the error, and both are still RW.
-/
theorem run_disagree :
    ∃ w', Runs.run step two
        [.addReplica .listed "c" .WO "u" ⟨.ok 3, .ok 8192, secondFails⟩] = some w'
      ∧ ⟨"a", .RW⟩ ∈ w'.ctl.replicas ∧ ⟨"b", .RW⟩ ∈ w'.ctl.replicas
      ∧ w'.names "a" = {"u"} ∧ w'.names "b" = ∅ := by
  have hrun : (Runs.run step two
      [.addReplica .listed "c" .WO "u" ⟨.ok 3, .ok 8192, secondFails⟩]).map
      (fun w' => (w'.ctl.replicas, w'.names "a", w'.names "b"))
      = some ([⟨"a", .RW⟩, ⟨"b", .RW⟩], {"u"}, ∅) := by decide
  obtain ⟨w', hw', heq⟩ := Option.map_eq_some_iff.mp hrun
  obtain ⟨hr, ha, hb⟩ := by simpa using heq
  exact ⟨w', hw', by rw [hr]; simp, by rw [hr]; simp, ha, hb⟩

end SnapshotSets

end Controller

end WeftBlock
