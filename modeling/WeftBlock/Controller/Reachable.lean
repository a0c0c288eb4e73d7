import WeftBlock.Controller.Operations
import WeftBlock.Lib.Runs

/-!
# Every reachable controller

Starting from a fresh controller, whatever operations are requested in whatever
order, and whatever the backends answer, the list of replicas and the map of
backends stay in step, the data path fans out to exactly the replicas it should,
and a replica in error is in error until it is removed.

Each operation is one step, as each holds the controller's lock throughout; the
calls of the data path take it twice, and their second half, the handling of the
error, is a step of its own.
-/

namespace WeftBlock

open DataConn Maps

namespace Controller

variable {β : Type}

/-! ## Runs -/

/-- What can be asked of a controller, with everything the backends will answer. -/
inductive Request (β : Type)
  | start (volumeSize volumeCurrentSize : Int) (addresses : List String)
      (answers : StartAnswers β)
  | addReplica (address : String) (snapshotRequired : Bool) (mode : Mode) (answers : AddAnswers β)
  | removeReplica (address : String) (frontendUp : Bool)
  | setReplicaMode (address : String) (mode : Mode)
  | verifyRebuildReplica (address : String) (answers : VerifyAnswers)
  /-- The first half of a read, which moves on the reader that is next. -/
  | readLocked (read : β → Replicator.ReadAnswer) (buf : List UInt8) (off : Int)
  /-- The second half of any call of the data path that failed. -/
  | handleError (err : IOErr)

/-- The request asks for the replica at this address to be removed. -/
def Request.removes (a : String) : Request β → Prop
  | .removeReplica address _ => address = a
  | _ => False

/-- One step: the controller after the request, whatever it returned. -/
def serve (order : MapOrder) (c : Controller β) : Request β → Option (Controller β)
  | .start volumeSize volumeCurrentSize addresses answers =>
    (c.start order volumeSize volumeCurrentSize addresses answers).map (fun x => x.1)
  | .addReplica address snapshotRequired mode answers =>
    (c.addReplica order address snapshotRequired mode answers).map (fun x => x.1)
  | .removeReplica address frontendUp =>
    (c.removeReplica order address frontendUp).map (fun x => x.1)
  | .setReplicaMode address mode => (c.setReplicaMode order address mode).map (fun x => x.1)
  | .verifyRebuildReplica address answers =>
    (c.verifyRebuildReplica order address answers).map (fun x => x.1)
  | .readLocked read buf off => (c.readLocked read buf off).map (fun x => x.1)
  | .handleError err => (c.handleErrorNoLock order (some err)).map (fun x => x.1)

/-- A step with the order its maps are enumerated in. -/
def step (c : Controller β) (q : MapOrder × Request β) : Option (Controller β) := c.serve q.1 q.2

/-- A run: requests one after the other. -/
def run (c : Controller β) (reqs : List (MapOrder × Request β)) : Option (Controller β) :=
  Runs.run step c reqs

/-- What a step of a consistent controller keeps. -/
structure Kept (c c' : Controller β) (req : Request β) : Prop where
  consistent : Consistent c'
  sticky : ∀ a, ¬ req.removes a → ⟨a, .ERR⟩ ∈ c.replicas → ⟨a, .ERR⟩ ∈ c'.replicas

theorem Regraded.kept {c c' : Controller β} (h : Regraded c c') (req : Request β) :
    Kept c c' req := ⟨h.consistent, fun a _ ha => h.sticky a ha⟩

/-! ## Reading -/

/-- The buffer is what the successful read of a replica in mode RW made of it. -/
def ServedBy (c : Controller β) (read : β → Replicator.ReadAnswer) (buf : List UInt8)
    (a : String) : Prop :=
  ⟨a, .RW⟩ ∈ c.replicas ∧ ∃ b, c.handle a = some b ∧ (read b).err = none
    ∧ ∃ before, buf = (read b).fill before

/-- The read of the RW replica at this address fails with `e`. -/
def ReadFails (c : Controller β) (read : β → Replicator.ReadAnswer) (a : String) (e : Err) : Prop :=
  ⟨a, .RW⟩ ∈ c.replicas ∧ ∃ b, c.handle a = some b ∧ (read b).err = some e

/-- The errors are errors that RW replicas returned to the read. -/
def ReadErrors (c : Controller β) (read : β → Replicator.ReadAnswer)
    (errors : AList (fun _ : String => Err)) : Prop :=
  ∀ a e, errors.lookup a = some e → ReadFails c read a e

variable {c : Controller β}

variable {errors : AList (fun _ : String => Err)} {ts : List (String × β)}

theorem ReadErrors.insert {read : β → Replicator.ReadAnswer} (h : ReadErrors c read errors)
    {a : String} {b : β} (ha : ⟨a, .RW⟩ ∈ c.replicas) (hb : c.handle a = some b) {e : Err}
    (he : (read b).err = some e) : ReadErrors c read (errors.insert a e) := by
  intro a' e' hl
  rw [lookup_insert_eq] at hl
  by_cases heq : a' = a
  · rw [if_pos heq] at hl
    obtain rfl := heq
    obtain rfl := Option.some.inj hl
    exact ⟨ha, b, hb, he⟩
  · rw [if_neg heq] at hl
    exact h a' e' hl

/--
The loop over the readers ends: some reader served the read, or each of the `k`
readers from `index` on has its error in the result.
-/
theorem readLoop_spec (ht : Targets c (fun m => m = .RW) c.backend.readerIndex c.backend.readers ts)
    (read : β → Replicator.ReadAnswer) (k : Nat) {index : Nat} (hi : index < ts.length)
    (buf : List UInt8) (n : Nat) (herr : ReadErrors c read errors) :
    ∃ buf' n' errors', c.backend.readLoop read k index buf n errors = some (buf', n', errors')
      ∧ ReadErrors c read errors' ∧ (∀ a ∈ errors, a ∈ errors')
      ∧ ((∃ a, ServedBy c read buf' a)
        ∨ ∀ j < k, ∀ t, ts[(index + j) % ts.length]? = some t → t.1 ∈ errors') := by
  induction k generalizing index buf n errors with
  | zero =>
    exact ⟨buf, n, errors, rfl, herr, fun _ ha => ha, Or.inr (fun j hj => absurd hj (by omega))⟩
  | succ k ih =>
    have hlen : c.backend.readers.length = ts.length := by rw [ht.handles_eq, List.length_map]
    have hget : c.backend.readers[index]? = some (some ts[index].2) := by
      rw [ht.handles_eq, List.getElem?_map, List.getElem?_eq_getElem hi]
      rfl
    obtain ⟨hb, m, hr, rfl⟩ := (ht.mem_iff ts[index].1 ts[index].2).mp (List.getElem_mem hi)
    rw [Replicator.readLoop, hget]
    dsimp only
    cases hread : (read ts[index].2).err with
    | none =>
      exact ⟨_, _, _, rfl, herr, fun _ ha => ha,
        Or.inl ⟨_, hr, _, hb, hread, buf, rfl⟩⟩
    | some e =>
      have hnext : (index + 1) % ts.length < ts.length := Nat.mod_lt _ (by omega)
      rw [hlen, ht.addressOf hi]
      obtain ⟨buf', n', errors', he, h1, h2, h3⟩ := ih hnext ((read ts[index].2).fill buf)
        (read ts[index].2).n (herr.insert hr hb hread)
      refine ⟨buf', n', errors', he, h1, fun a ha => h2 a ?_, h3.imp_right ?_⟩
      · exact (AList.mem_insert _).mpr (Or.inr ha)
      · -- the first of the readers is in the errors by now, the others follow it
        intro hrest j hj t htj
        cases j with
        | zero =>
          rw [Nat.add_zero, Nat.mod_eq_of_lt hi, List.getElem?_eq_getElem hi] at htj
          rw [← Option.some.inj htj]
          exact h2 _ ((AList.mem_insert _).mpr (Or.inl rfl))
        | succ j =>
          refine hrest j (by omega) t ?_
          rw [Nat.mod_add_mod, ← htj, Nat.add_right_comm, Nat.add_assoc]

/-- What the readers made of a read, if there are any. -/
structure Swept (c : Controller β) (read : β → Replicator.ReadAnswer) (buf : List UInt8)
    (errors : AList (fun _ : String => Err)) : Prop where
  told : ReadErrors c read errors
  served : (∃ a, ServedBy c read buf a) ∨ ∀ a, ⟨a, .RW⟩ ∈ c.replicas → a ∈ errors

theorem replicator_readAt (h : Consistent c) (read : β → Replicator.ReadAnswer)
    (buf : List UInt8) (hav : c.backend.backendsAvailable = true) :
    ∃ next buf' n errors, c.backend.readAt read buf
        = some ({ c.backend with next := next }, buf', n,
          if errors.keys.length ≠ 0 then some (.backend ⟨errors, ∅⟩) else none)
      ∧ Swept c read buf' errors := by
  obtain ⟨es, hes⟩ := h.built
  obtain ⟨ts, ht⟩ := h.readers
  have hlen : c.backend.readers.length = ts.length := by rw [ht.handles_eq, List.length_map]
  have hpos : 0 < ts.length := hlen ▸ hes.available.mp hav
  have hnext : (c.backend.next + 1) % ts.length < ts.length := Nat.mod_lt _ hpos
  have hnone : ReadErrors c read ∅ := fun a e hl => absurd hl (by simp)
  obtain ⟨buf', n, errors, hloop, h1, _, h3⟩ := readLoop_spec ht read ts.length hnext buf 0 hnone
  refine ⟨(c.backend.next + 1) % ts.length, buf', n, errors, ?_, h1, h3.imp_right fun hall a ha => ?_⟩
  · rw [Replicator.readAt, if_neg (by rw [hav]; simp)]
    dsimp only
    rw [hlen, hloop]
  · obtain ⟨b, _, hin⟩ := h.target_of_mem (by simp) ht ha rfl
    obtain ⟨i, hi, hget⟩ := List.getElem_of_mem hin
    -- the loop comes to position `i` after this many readers
    refine hall ((i + (ts.length - (c.backend.next + 1) % ts.length)) % ts.length)
      (Nat.mod_lt _ hpos) (a, b) ?_
    rw [Nat.add_mod_mod, show (c.backend.next + 1) % ts.length
      + (i + (ts.length - (c.backend.next + 1) % ts.length)) = i + ts.length by omega,
      Nat.add_mod_right, Nat.mod_eq_of_lt hi, List.getElem?_eq_getElem hi, hget]

/-- The controller with another reader that is next. -/
def setNext (c : Controller β) (next : Nat) : Controller β :=
  { c with backend := { c.backend with next := next } }

section

variable (h : Consistent c)
include h

theorem readLocked_spec (read : β → Replicator.ReadAnswer) (buf : List UInt8) (off : Int) :
    ∃ next buf' n err, c.readLocked read buf off = some (c.setNext next, buf', n, err) := by
  unfold readLocked
  by_cases hb : c.beyond buf.length off
  · rw [if_pos hb]; exact ⟨c.backend.next, _, _, _, rfl⟩
  · rw [if_neg hb]
    by_cases hav : c.backend.backendsAvailable = true
    · obtain ⟨next, buf', n, errors, he, _⟩ := replicator_readAt h read buf hav
      rw [he]
      exact ⟨next, _, _, _, rfl⟩
    · rw [Replicator.readAt, if_pos (Bool.eq_false_iff.mpr hav)]
      exact ⟨c.backend.next, _, _, _, rfl⟩

theorem Consistent.setNext (next : Nat) :
    Consistent (c.setNext next) := by
  obtain ⟨es, hes⟩ := h.built
  exact ⟨h.distinct, h.modes, h.oneWO, h.nil_err, es, hes.nodup, hes.mem_iff,
    ⟨hes.lists.readers, hes.lists.writers, hes.lists.unmappers⟩, hes.available⟩

/-- **One step.** No request makes a consistent controller panic or leave consistency. -/
theorem serve_kept (order : MapOrder) (req : Request β) :
    ∃ c', c.serve order req = some c' ∧ Kept c c' req := by
  cases req with
  | start volumeSize volumeCurrentSize addresses answers =>
    obtain ⟨c', err, he, hc, hs⟩ := start_spec h order volumeSize volumeCurrentSize addresses
      answers
    exact ⟨c', by rw [serve, he]; rfl, hc, fun a _ ha => hs a ha⟩
  | addReplica address snapshotRequired mode answers =>
    obtain ⟨c', err, he, hc, hs⟩ := addReplica_spec h order address snapshotRequired mode answers
    exact ⟨c', by rw [serve, he]; rfl, hc, fun a _ ha => hs _ ha⟩
  | removeReplica address frontendUp =>
    obtain ⟨c', err, he, hc, hs, -⟩ := removeReplica_spec h order address frontendUp
    exact ⟨c', by rw [serve, he]; rfl, hc, fun a hne ha => hs _ ha (fun hh => hne hh.symm)⟩
  | setReplicaMode address mode =>
    obtain ⟨c', err, he, hc⟩ := setReplicaMode_regraded h order address mode
    exact ⟨c', by rw [serve, he]; rfl, hc.kept _⟩
  | verifyRebuildReplica address answers =>
    obtain ⟨c', err, he, hc⟩ := verifyRebuildReplica_regraded h order address answers
    exact ⟨c', by rw [serve, he]; rfl, hc.kept _⟩
  | readLocked read buf off =>
    obtain ⟨next, buf', n, err, he⟩ := readLocked_spec h read buf off
    exact ⟨_, by rw [serve, he]; rfl, h.setNext next, fun _ _ ha => ha⟩
  | handleError err =>
    obtain ⟨c', err', he, hc⟩ := handleErrorNoLock_regraded h order (some err)
    exact ⟨c', by rw [serve, he]; rfl, hc.kept _⟩

/-- **All steps.** A run of a consistent controller ends in a consistent one. -/
theorem run_kept (reqs : List (MapOrder × Request β)) :
    ∃ c', c.run reqs = some c' ∧ Consistent c'
      ∧ ∀ a, (∀ q ∈ reqs, ¬ q.2.removes a) → ⟨a, .ERR⟩ ∈ c.replicas → ⟨a, .ERR⟩ ∈ c'.replicas := by
  have hstep : ∀ c : Controller β, ∀ q ∈ reqs, Consistent c →
      ∃ c', c.step q = some c' ∧ Consistent c' := by
    intro c q _ h
    obtain ⟨c', he, hk⟩ := serve_kept h q.1 q.2
    exact ⟨c', he, hk.consistent⟩
  obtain ⟨c', hrun, hc⟩ := Runs.run_total hstep h
  refine ⟨c', hrun, hc, fun a hq ha => ?_⟩
  -- the same run once more, with the replica that is in error as part of the invariant
  have hsticky : ∀ c : Controller β, ∀ q ∈ reqs, Consistent c ∧ ⟨a, .ERR⟩ ∈ c.replicas →
      ∃ c', c.step q = some c' ∧ Consistent c' ∧ ⟨a, .ERR⟩ ∈ c'.replicas := by
    intro c q hin h
    obtain ⟨c', he, hk⟩ := serve_kept h.1 q.1 q.2
    exact ⟨c', he, hk.consistent, hk.sticky a (hq q hin) h.2⟩
  obtain ⟨c'', hrun', _, hs⟩ := Runs.run_total hsticky ⟨h, ha⟩
  rwa [Option.some.inj (hrun.symm.trans hrun')]

theorem Consistent.getD_run
    (reqs : List (MapOrder × Request β)) : Consistent ((c.run reqs).getD c) := by
  obtain ⟨c', he, hc, _⟩ := run_kept h reqs
  rw [he]
  exact hc

end

/-! ## What consistency means, spelled out -/

/-- A list of the data path and its index map, against the backends that `keep` keeps. -/
structure FansOut (c : Controller β) (keep : Mode → Prop) (index : AList (fun _ : Nat => String))
    (handles : List (Option β)) : Prop where
  /-- The index map has exactly the positions of the list. -/
  positions : ∀ i, i ∈ index ↔ i < handles.length
  /-- It is a bijection onto the addresses that belong there. -/
  bijection : Set.BijOn (Replicator.addressOf index) {i | i < handles.length}
    {a | ∃ b, c.backend.backends.lookup a = some b ∧ keep b.mode}
  /-- Each position holds the connection to its address. -/
  handle : ∀ i < handles.length, handles[i]? = some (c.handle (Replicator.addressOf index i))

/-- The controller and the replicator agree, and the data path follows. -/
structure Coherent (c : Controller β) : Prop where
  distinct : (c.replicas.map (fun r => r.address)).Nodup
  keys : ∀ a, a ∈ c.backend.backends ↔ ∃ r ∈ c.replicas, r.address = a
  modes : ∀ r ∈ c.replicas, ∃ b, c.backend.backends.lookup r.address = some ⟨b, r.mode⟩
  oneWO : ∀ r ∈ c.replicas, ∀ s ∈ c.replicas, r.mode = .WO → s.mode = .WO → r = s
  readers : FansOut c (fun m => m = .RW) c.backend.readerIndex c.backend.readers
  writers : FansOut c (fun m => m ≠ .ERR) c.backend.writerIndex c.backend.writers
  unmappers : FansOut c (fun m => m ≠ .ERR) c.backend.unmapperIndex c.backend.unmappers
  nil_err : ∀ a b, c.backend.backends.lookup a = some b → b.backend = none → b.mode = .ERR
  available : c.backend.backendsAvailable = true ↔ ∃ r ∈ c.replicas, r.mode = .RW

theorem Targets.fansOut (h : Consistent c) {keep : Mode → Prop}
    {index : AList (fun _ : Nat => String)} {handles : List (Option β)}
    (ht : Targets c keep index handles ts) (herr : ¬ keep .ERR) : FansOut c keep index handles := by
  have hlen : handles.length = ts.length := by rw [ht.handles_eq, List.length_map]
  refine ⟨fun i => ?_, ⟨?_, ?_, ?_⟩, fun i hi => ?_⟩
  · rw [mem_iff_lookup, hlen, ht.numbers i, List.getElem?_map]
    constructor
    · intro hex
      obtain ⟨a, ha⟩ := hex
      obtain ⟨t, hx, _⟩ := Option.map_eq_some_iff.mp ha
      exact (List.getElem?_eq_some_iff.mp hx).1
    · intro hi
      exact ⟨_, by rw [List.getElem?_eq_getElem hi]; rfl⟩
  · intro i hi
    have hi' : i < ts.length := hlen ▸ hi
    rw [ht.addressOf hi']
    obtain ⟨_, m, hm, hk⟩ := (ht.mem_iff _ _).mp (List.getElem_mem hi')
    obtain ⟨b, hb⟩ := (h.modes _ _).mp hm
    exact ⟨_, hb, hk⟩
  · intro i hi j hj hij
    have hi' : i < ts.length := hlen ▸ hi
    have hj' : j < ts.length := hlen ▸ hj
    rw [ht.addressOf hi', ht.addressOf hj'] at hij
    have hi'' : i < (ts.map (fun t => t.1)).length := by rw [List.length_map]; exact hi'
    have hj'' : j < (ts.map (fun t => t.1)).length := by rw [List.length_map]; exact hj'
    have heq : (ts.map (fun t => t.1))[i] = (ts.map (fun t => t.1))[j] := by
      rw [List.getElem_map, List.getElem_map]; exact hij
    exact (List.Nodup.getElem_inj_iff ht.nodup).mp heq
  · intro a hex
    obtain ⟨⟨b, m⟩, hb, hk⟩ := hex
    have hr : ⟨a, m⟩ ∈ c.replicas := (h.modes _ _).mpr ⟨b, hb⟩
    obtain ⟨b', _, hb'⟩ := h.target_of_mem herr ht hr hk
    obtain ⟨i, hi, he⟩ := List.getElem_of_mem hb'
    exact ⟨i, hlen ▸ hi, by rw [ht.addressOf hi, he]⟩
  · have hi' : i < ts.length := hlen ▸ hi
    have hh : c.handle ts[i].1 = some ts[i].2 := ((ht.mem_iff _ _).mp (List.getElem_mem hi')).1
    rw [ht.addressOf hi', hh, ht.handles_eq, List.getElem?_map, List.getElem?_eq_getElem hi']
    rfl

theorem Consistent.coherent (h : Consistent c) : Coherent c := by
  obtain ⟨rs, hrs⟩ := h.readers
  obtain ⟨ws, hws⟩ := h.writers
  obtain ⟨us, hus⟩ := h.unmappers
  refine ⟨h.distinct, fun a => ?_, fun r hr => (h.modes _ _).mp hr, h.oneWO,
    hrs.fansOut h (by simp), hws.fansOut h (by simp), hus.fansOut h (by simp),
    fun a b hb hn => ?_, h.available_iff⟩
  · rw [h.mem_backends]
    constructor
    · intro hex
      obtain ⟨m, hm⟩ := hex
      exact ⟨_, hm, rfl⟩
    · intro hex
      obtain ⟨r, hr, rfl⟩ := hex
      exact ⟨r.mode, hr⟩
  · obtain ⟨b, m⟩ := b
    obtain rfl : b = none := hn
    exact h.nil_err a m hb

/--
**Every reachable controller is coherent**, no request makes it panic, and a replica
in error is in error for as long as nobody asks for its removal.
-/
theorem run_coherent {c : Controller β} (h : c.Fresh) (reqs : List (MapOrder × Request β)) :
    ∃ c', c.run reqs = some c' ∧ Coherent c'
      ∧ ∀ a, ⟨a, .ERR⟩ ∈ c'.replicas →
          ∀ more : List (MapOrder × Request β), (∀ q ∈ more, ¬ q.2.removes a) →
            ∃ c'', c'.run more = some c'' ∧ ⟨a, .ERR⟩ ∈ c''.replicas := by
  obtain ⟨c', he, hc, _⟩ := run_kept (consistent_fresh h) reqs
  refine ⟨c', he, hc.coherent, fun a ha more hmore => ?_⟩
  obtain ⟨c'', he', _, hs⟩ := run_kept hc more
  exact ⟨c'', he', hs a hmore ha⟩

/-- A controller as `NewController` leaves it. -/
def blank : Controller Nat where
  size := 8192
  sectorSize := 512
  replicas := []
  backend := .zero
  isUpgrade := false
  isExpanding := false
  revisionCounterDisabled := true
  salvageRequested := false
  unmapMarkSnapChainRemoved := false
  snapshotMaxCount := 250
  snapshotMaxSize := 0

/-- Answers without any fault, for the backend `b`. -/
def faultless (b : Nat) : AddAnswers Nat where
  create := .ok b
  size := .ok 8192
  snapshots := ⟨fun _ => .ok (0, 0, 0), fun _ => .ok 0, fun _ => none⟩

/-- Two replicas, the second rebuilt from the first, then an error of the first. -/
def rebuilt : List (MapOrder × Request Nat) :=
  [ (.listed, .addReplica "a" false .RW (faultless 1)),
    (.listed, .addReplica "b" true .WO (faultless 2)),
    (.reversed, .verifyRebuildReplica "b" ⟨.ok {"s"}, .ok {"s"}, .ok 0, fun _ => .ok ()⟩),
    (.listed, .handleError (.backend ⟨AList.singleton "a" (.other (text "timeout")), ∅⟩)) ]

example : (blank.run rebuilt).map (fun c => c.replicas) = some [⟨"a", .ERR⟩, ⟨"b", .RW⟩] := by
  decide

theorem run_coherent_rebuilt :
    blank.Fresh ∧ ∃ c', blank.run rebuilt = some c' ∧ Coherent c'
      ∧ ∀ a, ⟨a, .ERR⟩ ∈ c'.replicas →
          ∀ more : List (MapOrder × Request Nat), (∀ q ∈ more, ¬ q.2.removes a) →
            ∃ c'', c'.run more = some c'' ∧ ⟨a, .ERR⟩ ∈ c''.replicas :=
  ⟨⟨rfl, rfl⟩, run_coherent ⟨rfl, rfl⟩ rebuilt⟩

end Controller

end WeftBlock
