import WeftBlock.Controller.Reachable

/-!
# Reads that race with a rebuild

`ReadAt` asks the replicas under the read lock, gives the lock up, and takes it
again, for writing, to handle the errors they returned. `handleErrorNoLock` drops
an error when some replica in mode RW is not among those that failed, on the
grounds that this one must have served the read. But it looks at the modes of
that moment, and between the two halves a rebuild may have finished: a replica
that is RW by then and was WO before has not failed, for it was never asked.

So a nil error means that a healthy replica filled the buffer **exactly when** one
of the replicas that were asked succeeded or no replica was promoted meanwhile.
-/

namespace WeftBlock

open DataConn Maps

variable {errors : AList (fun _ : String => Err)} {buf : List UInt8}

namespace Controller

variable {β : Type}

/-- A call of `ReadAt`, with all that can happen to it. -/
structure ReadCall (β : Type) where
  read : β → Replicator.ReadAnswer
  buf : List UInt8
  off : Int
  /-- The requests that are served while the lock is free, in their order. -/
  between : List (MapOrder × Request β)
  order : MapOrder

/-- `ReadAt`: the two halves, with what is served between them. -/
def readAt (c : Controller β) (x : ReadCall β) :
    Option (Controller β × List UInt8 × Nat × Option IOErr) :=
  if c.beyond x.buf.length x.off then c.readLocked x.read x.buf x.off
  else
    match c.readLocked x.read x.buf x.off with
    | none => none
    | some (c, buf, n, none) => some (c, buf, n, none)
    | some (c, buf, n, some e) =>
      match c.run x.between with
      | none => none
      | some c => (c.handleErrorNoLock x.order (some e)).map (fun (c, err) => (c, buf, n, err))

/-- The controller as the second half finds it. -/
def relocked (c : Controller β) (x : ReadCall β) : Option (Controller β) :=
  match c.readLocked x.read x.buf x.off with
  | none => none
  | some (c, _) => c.run x.between

/-- The read of the RW replica at this address succeeds. -/
def ReadSucceeds (c : Controller β) (read : β → Replicator.ReadAnswer) (a : String) : Prop :=
  ⟨a, .RW⟩ ∈ c.replicas ∧ ∃ b, c.handle a = some b ∧ (read b).err = none

/--
The call returns, and if it returns no error then the buffer is what a replica made
of it that was RW when it was asked and whose read succeeded.
-/
def Real (c : Controller β) (x : ReadCall β) : Prop :=
  ∃ c' buf n err, c.readAt x = some (c', buf, n, err)
    ∧ (err = none → ∃ a, ServedBy c x.read buf a)

/-! ## When every replica that was asked has failed -/

variable {read : β → Replicator.ReadAnswer} {c : Controller β}

theorem ServedBy.succeeds {a : String} (h : ServedBy c read buf a) : ReadSucceeds c read a := by
  obtain ⟨ha, b, hb, hr, _⟩ := h
  exact ⟨ha, b, hb, hr⟩

/-- The RW replicas failed the read, all of them, and `errors` says how. -/
structure AllFailed (c : Controller β) (read : β → Replicator.ReadAnswer)
    (errors : AList (fun _ : String => Err)) : Prop where
  told : ReadErrors c read errors
  all : ∀ a, ⟨a, .RW⟩ ∈ c.replicas → a ∈ errors

section

variable (h : AllFailed c read errors) (a : String)
include h a

theorem AllFailed.mem_iff :
    a ∈ errors ↔ ⟨a, .RW⟩ ∈ c.replicas := by
  refine ⟨fun ha => ?_, h.all a⟩
  obtain ⟨e, he⟩ := (mem_iff_lookup _ _).mp ha
  exact (h.told a e he).1

theorem AllFailed.lookup_iff (e : Err) :
    errors.lookup a = some e ↔ ReadFails c read a e := by
  refine ⟨h.told a e, fun hf => ?_⟩
  obtain ⟨ha, b, hb, hr⟩ := hf
  obtain ⟨e', he'⟩ := (mem_iff_lookup _ _).mp (h.all a ha)
  obtain ⟨_, b', hb', hr'⟩ := h.told a e' he'
  -- one address, one connection, one answer
  obtain rfl := Option.some.inj (hb.symm.trans hb')
  rw [he', ← hr', hr]

theorem AllFailed.not_succeeds :
    ¬ ReadSucceeds c read a := by
  intro hs
  obtain ⟨ha, b, hb, hr⟩ := hs
  obtain ⟨e, he⟩ := (mem_iff_lookup _ _).mp (h.all a ha)
  obtain ⟨_, b', hb', hr'⟩ := h.told a e he
  obtain rfl := Option.some.inj (hb.symm.trans hb')
  exact absurd (hr.symm.trans hr') (by simp)

end

/-- The second half drops the error if a replica is RW by now that was not asked. -/
theorem AllFailed.handled {c c2 : Controller β} (h : AllFailed c read errors)
    (hrw : ∃ a, ⟨a, .RW⟩ ∈ c.replicas) (h2 : Consistent c2) (order : MapOrder) :
    ∃ c' err, c2.handleErrorNoLock order (some (.backend ⟨errors, ∅⟩)) = some (c', err)
      ∧ (err = none ↔ (∀ a e, ReadFails c read a e → isSnapshotDiskExist e = false)
        ∧ ∃ a, ⟨a, .RW⟩ ∈ c2.replicas ∧ ⟨a, .RW⟩ ∉ c.replicas) := by
  obtain ⟨a, ha⟩ := hrw
  obtain ⟨c', err, marked, he, _, hh⟩ := handleErrorNoLock_spec h2 order ⟨errors, ∅⟩
    ⟨a, h.all a ha⟩
  refine ⟨c', err, he, hh.dropped_iff.trans (and_congr ?_ ?_)⟩
  · exact forall₂_congr fun a e => by rw [h.lookup_iff]
  · constructor
    · intro hex
      obtain ⟨r, hr, hm, hne⟩ := hex
      exact ⟨r.address, hm ▸ hr, fun hin => hne (h.all _ hin)⟩
    · intro hex
      obtain ⟨a, hr, hne⟩ := hex
      exact ⟨⟨a, .RW⟩, hr, rfl, fun hin => hne ((h.mem_iff a).mp hin)⟩

/-! ## The call -/

/-- The first half of a read inside the volume: nobody to ask, served, or failed by all. -/
theorem readLocked_cases (h : Consistent c) (read : β → Replicator.ReadAnswer) {off : Int}
    (hin : ¬ c.beyond buf.length off) :
    ∃ next buf' n err, c.readLocked read buf off = some (c.setNext next, buf', n, err)
      ∧ (((∀ r ∈ c.replicas, r.mode ≠ .RW) ∧ err = some .noBackend)
        ∨ (∃ a, ServedBy c read buf' a)
        ∨ ∃ errors, err = some (.backend ⟨errors, ∅⟩) ∧ AllFailed c read errors
          ∧ ∃ a, ⟨a, .RW⟩ ∈ c.replicas) := by
  unfold readLocked
  rw [if_neg hin]
  by_cases hav : c.backend.backendsAvailable = true
  · obtain ⟨next, buf', n, errors, he, htold, hserved⟩ := replicator_readAt h read buf hav
    rw [he]
    refine ⟨next, buf', n, _, rfl, Or.inr (hserved.imp_right fun hall => ?_)⟩
    obtain ⟨r, hr, hm⟩ := h.available_iff.mp hav
    have ha : ⟨r.address, .RW⟩ ∈ c.replicas := hm ▸ hr
    have hpos : errors.keys.length ≠ 0 := by
      have := List.length_pos_of_mem (AList.mem_keys.mp (hall _ ha))
      omega
    exact ⟨errors, if_pos hpos, ⟨htold, hall⟩, r.address, ha⟩
  · rw [Replicator.readAt, if_pos (Bool.eq_false_iff.mpr hav)]
    exact ⟨c.backend.next, _, _, _, rfl,
      Or.inl ⟨fun r hr hm => hav (h.available_iff.mpr ⟨r, hr, hm⟩), rfl⟩⟩

variable {x : ReadCall β}

theorem readAt_of_error {c c1 c2 : Controller β} {n : Nat}
    {e : IOErr} (hin : ¬ c.beyond x.buf.length x.off)
    (h1 : c.readLocked x.read x.buf x.off = some (c1, buf, n, some e))
    (h2 : c1.run x.between = some c2) :
    c.readAt x = (c2.handleErrorNoLock x.order (some e)).map (fun (c, err) => (c, buf, n, err)) := by
  rw [readAt, if_neg hin, h1]
  dsimp only
  rw [h2]

theorem AllFailed.real_iff {c c2 : Controller β} {n : Nat} (h : AllFailed c x.read errors)
    (hrw : ∃ a, ⟨a, .RW⟩ ∈ c.replicas) (h2 : Consistent c2)
    (hcall : c.readAt x = (c2.handleErrorNoLock x.order (some (.backend ⟨errors, ∅⟩))).map
      (fun (c, err) => (c, buf, n, err))) :
    c.Real x ↔ (∃ a e, c.ReadFails x.read a e ∧ isSnapshotDiskExist e = true)
      ∨ ∀ a, ⟨a, .RW⟩ ∈ c2.replicas → ⟨a, .RW⟩ ∈ c.replicas := by
  obtain ⟨c', err, he, hdrop⟩ := h.handled hrw h2 x.order
  rw [he] at hcall
  constructor
  · intro hreal
    obtain ⟨_, _, _, err', heq, hok⟩ := hreal
    have herr : err = err' := by
      have := Option.some.inj (hcall.symm.trans heq)
      exact congrArg (fun y => y.2.2.2) this
    -- nobody served it, so the error was not dropped
    have hsome : ¬ err = none := by
      intro hnone
      obtain ⟨a, ha⟩ := hok (herr ▸ hnone)
      exact h.not_succeeds a ha.succeeds
    rw [hdrop] at hsome
    by_cases hsnap : ∀ a e, ReadFails c x.read a e → isSnapshotDiskExist e = false
    · refine Or.inr fun a ha => ?_
      by_contra hne
      exact hsome ⟨hsnap, a, ha, hne⟩
    · push Not at hsnap
      obtain ⟨a, e, hf, hs⟩ := hsnap
      exact Or.inl ⟨a, e, hf, Bool.eq_true_of_not_eq_false hs⟩
  · intro hwhen
    refine ⟨c', buf, n, err, hcall, fun hnone => ?_⟩
    obtain ⟨hsnap, a, ha, hne⟩ := hdrop.mp hnone
    rcases hwhen with ⟨a', e, hf, hs⟩ | hsame
    · exact absurd (hs.symm.trans (hsnap a' e hf)) (by simp)
    · exact absurd (hsame a ha) hne

theorem ServedBy.real {c c1 c2 : Controller β} {n : Nat}
    {err : Option IOErr} {a : String} (h : ServedBy c x.read buf a)
    (hin : ¬ c.beyond x.buf.length x.off)
    (h1 : c.readLocked x.read x.buf x.off = some (c1, buf, n, err))
    (hrun : c1.run x.between = some c2) (h2 : Consistent c2) : c.Real x := by
  cases err with
  | none => exact ⟨c1, buf, n, none, by rw [readAt, if_neg hin, h1], fun _ => ⟨a, h⟩⟩
  | some e =>
    obtain ⟨c', err', he, _⟩ := handleErrorNoLock_regraded h2 x.order (some e)
    exact ⟨c', buf, n, err', by rw [readAt_of_error hin h1 hrun, he]; rfl, fun _ => ⟨a, h⟩⟩

/--
**A read without error was really served exactly when no replica was promoted behind
its back.** For every consistent controller, every answer of the replicas and every
sequence of requests between the two halves; the other three cases are a volume with
nobody to ask, a replica that succeeds, and an error that is never dropped.
-/
theorem readAt_real_iff {c : Controller β} (h : Consistent c) {x : ReadCall β}
    (hin : ¬ c.beyond x.buf.length x.off) :
    c.Real x ↔ (∀ r ∈ c.replicas, r.mode ≠ .RW)
      ∨ (∃ a, c.ReadSucceeds x.read a)
      ∨ (∃ a e, c.ReadFails x.read a e ∧ isSnapshotDiskExist e = true)
      ∨ ∀ c2, c.relocked x = some c2 →
          ∀ a, ⟨a, .RW⟩ ∈ c2.replicas → ⟨a, .RW⟩ ∈ c.replicas := by
  obtain ⟨next, buf', n, err, he, hcases⟩ := readLocked_cases h x.read hin
  obtain ⟨c2, hrun, h2, _⟩ := run_kept (h.setNext next) x.between
  have hrelocked : c.relocked x = some c2 := by rw [relocked, he]; exact hrun
  rcases hcases with ⟨hnobody, rfl⟩ | ⟨a, ha⟩ | ⟨errors, rfl, hall, hrw⟩
  · refine ⟨fun _ => Or.inl hnobody, fun _ => ⟨c2, buf', n, some .noBackend, ?_, by simp⟩⟩
    rw [readAt_of_error hin he hrun,
      handleErrorNoLock_other x.order (fun e he => absurd he (by simp))]
    rfl
  · exact ⟨fun _ => Or.inr (Or.inl ⟨a, ha.succeeds⟩), fun _ => ha.real hin he hrun h2⟩
  · rw [hall.real_iff hrw h2 (readAt_of_error hin he hrun)]
    constructor
    · intro hwhen
      refine Or.inr (Or.inr (hwhen.imp_right fun hsame c3 hc3 => ?_))
      rwa [← Option.some.inj (hrelocked.symm.trans hc3)]
    · intro hwhen
      rcases hwhen with hnobody | ⟨a, hs⟩ | hwhen
      · obtain ⟨a, ha⟩ := hrw
        exact absurd rfl (hnobody _ ha)
      · exact absurd hs (hall.not_succeeds a)
      · exact hwhen.imp_right fun hsame => hsame c2 hrelocked

/-- The replica `a` is in mode RW, and `b` is being rebuilt from it. -/
def rebuilding : Controller Nat :=
  (blank.run [ (.listed, .addReplica "a" false .RW (faultless 1)),
    (.listed, .addReplica "b" true .WO (faultless 2)) ]).getD blank

theorem consistent_rebuilding : rebuilding.Consistent := (consistent_fresh ⟨rfl, rfl⟩).getD_run _

/-- The read of the first backend times out and leaves the buffer alone, any other fills it. -/
def readTimesOut (b : Nat) : Replicator.ReadAnswer :=
  if b = 1 then ⟨id, 0, some (.other (text "r/w timeout"))⟩
  else ⟨fun buf => buf.map (fun _ => 7), 2, none⟩

/-- The read fails, and while it waits for the lock the rebuild of `b` is verified. -/
def promoted : ReadCall Nat where
  read := readTimesOut
  buf := [0, 0]
  off := 0
  between := [(.listed, .verifyRebuildReplica "b" ⟨.ok {"s"}, .ok {"s"}, .ok 0, fun _ => .ok ()⟩)]
  order := .listed

/-- Nothing happens between the two halves. -/
def undisturbed : ReadCall Nat := { promoted with between := [] }

theorem readAt_real_iff_undisturbed :
    ¬ rebuilding.beyond undisturbed.buf.length undisturbed.off
      ∧ (rebuilding.Real undisturbed ↔ (∀ r ∈ rebuilding.replicas, r.mode ≠ .RW)
        ∨ (∃ a, rebuilding.ReadSucceeds undisturbed.read a)
        ∨ (∃ a e, rebuilding.ReadFails undisturbed.read a e ∧ isSnapshotDiskExist e = true)
        ∨ ∀ c2, rebuilding.relocked undisturbed = some c2 →
            ∀ a, ⟨a, .RW⟩ ∈ c2.replicas → ⟨a, .RW⟩ ∈ rebuilding.replicas) :=
  ⟨by decide, readAt_real_iff consistent_rebuilding (by decide)⟩

theorem rebuilding_not_succeeds (a : String) : ¬ rebuilding.ReadSucceeds promoted.read a := by
  intro hs
  obtain ⟨ha, b, hb, hr⟩ := hs
  have hreplicas : rebuilding.replicas = [⟨"a", .RW⟩, ⟨"b", .WO⟩] := by decide
  rw [hreplicas] at ha
  obtain rfl : a = "a" := by simpa using ha
  obtain rfl : 1 = b := Option.some.inj hb
  exact absurd hr (by simp [promoted, readTimesOut])

/--
The only RW replica fails the read, the error is dropped because `b` is RW by the time
it is handled, and the caller gets no error and the zeroes it passed in.
-/
theorem readAt_serves_nothing :
    ¬ rebuilding.beyond promoted.buf.length promoted.off
      ∧ rebuilding.replicas = [⟨"a", .RW⟩, ⟨"b", .WO⟩]
      ∧ (rebuilding.readAt promoted).map (fun x => (x.1.replicas, x.2))
        = some ([⟨"a", .ERR⟩, ⟨"b", .RW⟩], [0, 0], 0, none)
      ∧ ¬ rebuilding.Real promoted := by
  have hcall : (rebuilding.readAt promoted).map (fun x => (x.1.replicas, x.2))
      = some ([⟨"a", .ERR⟩, ⟨"b", .RW⟩], [0, 0], 0, none) := rfl
  refine ⟨by decide, by decide, hcall, ?_⟩
  intro hreal
  obtain ⟨c', buf, n, err, he, hok⟩ := hreal
  rw [he] at hcall
  have herr : err = none := congrArg (fun y => y.2.2.2) (Option.some.inj hcall)
  obtain ⟨a, ha⟩ := hok herr
  exact rebuilding_not_succeeds a ha.succeeds

end Controller

end WeftBlock
