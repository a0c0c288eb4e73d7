import WeftBlock.Controller.Reachable

/-!
# What a verification does to the modes

`VerifyRebuildReplica` of `pkg/controller/rebuild.go` makes a replica RW that has the disks
and the counter of a healthy one, and sets it to ERR after any error. Two of its paths are
different from that. An error that has nothing to do with the replica, there being no other
RW replica to compare with, also costs the replica its mode, even the only healthy one. And
a counter of -1 is reported by wrapping an error that is nil: the call returns nil, and the
replica stays WO.
-/

namespace WeftBlock

open DataConn Maps

namespace Controller

variable {β : Type}

/-- **What a verification must keep to**: with the controller `c` before and `c'` after it. -/
structure Verified (c : Controller β) (address : String) (answers : VerifyAnswers)
    (c' : Controller β) (err : Option CtlErr) : Prop where
  /-- No replica loses the mode RW. -/
  kept : ∀ a, ⟨a, .RW⟩ ∈ c.replicas → ⟨a, .RW⟩ ∈ c'.replicas
  /-- The mode RW is earned. -/
  earned : err = none → ⟨address, .RW⟩ ∈ c'.replicas → ⟨address, .RW⟩ ∈ c.replicas
    ∨ ∃ rw, SameDisks c address answers rw ∧ CounterSet c answers
  /-- Nil is not returned for a replica that is still rebuilding. -/
  settled : err = none → ⟨address, .WO⟩ ∉ c'.replicas

/-- The replica can be compared with another one, and the counter that comes is one. -/
def Verifiable (c : Controller β) (address : String) (answers : VerifyAnswers) : Prop :=
  (⟨address, .RW⟩ ∈ c.replicas → ∃ r ∈ c.replicas, r.address ≠ address ∧ r.mode = .RW)
    ∧ ∀ rw, SameDisks c address answers rw → ¬ CounterUnknown c answers

theorem mem_setTo {c : Controller β} {address : String} {m mode : Mode}
    (h : ⟨address, m⟩ ∈ c.replicas) (hm : m ≠ .ERR) :
    ⟨address, mode⟩ ∈ c.replicas.map (setTo address mode) :=
  List.mem_map.mpr ⟨_, h, if_pos ⟨rfl, hm⟩⟩

theorem mem_setTo_of_ne {c : Controller β} {address a : String} {m mode : Mode}
    (h : ⟨a, m⟩ ∈ c.replicas) (hne : a ≠ address) :
    ⟨a, m⟩ ∈ c.replicas.map (setTo address mode) :=
  List.mem_map.mpr ⟨_, h, if_neg (fun hh => hne hh.1)⟩

/-- **Which verifications keep to it.** -/
theorem verifyRebuildReplica_verified_iff {c : Controller β} (h : Consistent c) (order : MapOrder)
    (address : String) (answers : VerifyAnswers) :
    (∃ c' err, c.verifyRebuildReplica order address answers = some (c', err)
        ∧ Verified c address answers c' err)
      ↔ Verifiable c address answers := by
  have hone : ∀ {a m m'}, ⟨a, m⟩ ∈ c.replicas → ⟨a, m'⟩ ∈ c.replicas → m = m' := fun hm hm' =>
    congrArg Replica.mode (h.eq_of_address hm hm' rfl)
  rcases verifyBody_cases h order address answers with
    ⟨e, he, halone, hknown⟩ | ⟨he, hrw, r, hr, hne, hrm⟩ | ⟨he, rw, hsame, hun⟩ | ⟨c', he, hset, rw,
      hsame, hcount, hknown⟩
  · -- an error: the replica is set to ERR, whatever it was
    obtain ⟨c', hc', hset⟩ := setReplicaModeNoLock_spec h order address .ERR (by simp)
    have hrun : c.verifyRebuildReplica order address answers = some (c', some e) := by
      rw [verifyRebuildReplica, he]
      dsimp only
      rw [hc']
      rfl
    constructor
    · intro hex
      obtain ⟨c'', err, heq, hv⟩ := hex
      obtain ⟨rfl, -⟩ := Prod.mk.inj (Option.some.inj (hrun.symm.trans heq))
      refine ⟨fun hrw => ?_, hknown⟩
      have hERR : ⟨address, .ERR⟩ ∈ c'.replicas := by
        rw [hset.replicas]
        exact mem_setTo hrw (by simp)
      have := hset.consistent.eq_of_address (hv.kept address hrw) hERR rfl
      exact absurd (congrArg Replica.mode this) (by simp)
    · intro hok
      refine ⟨c', some e, hrun, fun a ha => ?_, fun hn => absurd hn (by simp),
        fun hn => absurd hn (by simp)⟩
      rw [hset.replicas]
      refine mem_setTo_of_ne ha (fun heq => ?_)
      subst heq
      obtain ⟨r, hr, hne, hrm⟩ := hok.1 ha
      exact halone ha r hr hne hrm
  · have hrun : c.verifyRebuildReplica order address answers = some (c, none) := by
      rw [verifyRebuildReplica, he]
    refine iff_of_true ⟨c, none, hrun, fun a ha => ha, fun _ => .inl, fun _ hwo => ?_⟩
      ⟨fun _ => ⟨r, hr, hne, hrm⟩, fun rw' hsame => ?_⟩
    · exact absurd (hone hwo hrw) (by simp)
    · exact absurd (hone hsame.rebuilding hrw) (by simp)
  · have hrun : c.verifyRebuildReplica order address answers = some (c, none) := by
      rw [verifyRebuildReplica, he]
    refine iff_of_false (fun hex => ?_) (fun hok => hok.2 rw hsame hun)
    obtain ⟨c', err, heq, hv⟩ := hex
    obtain ⟨rfl, rfl⟩ := Prod.mk.inj (Option.some.inj (hrun.symm.trans heq))
    exact hv.settled rfl hsame.rebuilding
  · have hrun : c.verifyRebuildReplica order address answers = some (c', none) := by
      rw [verifyRebuildReplica, he]
    have hRW : ⟨address, .RW⟩ ∈ c'.replicas := by
      rw [hset.replicas]
      exact mem_setTo hsame.rebuilding (by simp)
    refine iff_of_true ⟨c', none, hrun, fun a ha => ?_, fun _ _ => .inr ⟨rw, hsame, hcount⟩,
      fun _ hwo => ?_⟩ ⟨fun hrw => absurd (hone hsame.rebuilding hrw) (by simp), fun rw' _ => hknown⟩
    · rw [hset.replicas]
      refine mem_setTo_of_ne ha (fun heq => ?_)
      subst heq
      exact absurd (hone hsame.rebuilding ha) (by simp)
    · have := hset.consistent.eq_of_address hwo hRW rfl
      exact absurd (congrArg Replica.mode this) (by simp)

/--
**Verification never costs a healthy replica**, unless it is the only one there is, and it
never leaves a replica WO with nil, unless the counter to be set comes as -1.
-/
theorem run_verified_iff {c₀ : Controller β} (hfresh : c₀.Fresh)
    (reqs : List (MapOrder × Request β)) {c : Controller β} (hrun : c₀.run reqs = some c)
    (order : MapOrder) (address : String) (answers : VerifyAnswers) :
    (∃ c' err, c.verifyRebuildReplica order address answers = some (c', err)
        ∧ Verified c address answers c' err)
      ↔ Verifiable c address answers := by
  obtain ⟨c', he, hc, -⟩ := run_kept (consistent_fresh hfresh) reqs
  obtain rfl := Option.some.inj (he.symm.trans hrun)
  exact verifyRebuildReplica_verified_iff hc order address answers

/-- A replica that has been added to a healthy one. -/
def rebuildingPair : List (MapOrder × Request Nat) :=
  [ (.listed, .addReplica "a" false .RW (faultless 1)),
    (.listed, .addReplica "b" true .WO (faultless 2)) ]

theorem run_verified_iff_rebuilt : ∃ c : Controller Nat, blank.run rebuildingPair = some c
    ∧ ∃ c' err, c.verifyRebuildReplica .listed "b" ⟨.ok {"s"}, .ok {"s"}, .ok 7, fun _ => .ok ()⟩
        = some (c', err) ∧ Verified c "b" ⟨.ok {"s"}, .ok {"s"}, .ok 7, fun _ => .ok ()⟩ c' err := by
  have hblank : blank.Fresh := ⟨rfl, rfl⟩
  obtain ⟨c, hrun, hc, -⟩ := run_kept (consistent_fresh hblank) rebuildingPair
  have hreps : c.replicas = [⟨"a", .RW⟩, ⟨"b", .WO⟩] := by
    have : (blank.run rebuildingPair).map (fun c => c.replicas) = some [⟨"a", .RW⟩, ⟨"b", .WO⟩] := by
      decide
    rw [hrun] at this
    exact Option.some.inj this
  refine ⟨c, hrun, (run_verified_iff hblank rebuildingPair hrun .listed "b" _).mpr ⟨fun hrw => ?_,
    fun rw _ hun => ?_⟩⟩
  · rw [hreps] at hrw
    exact absurd hrw (by decide)
  · exact absurd hun.2 (by simp)

/-- A volume with revision counters: the replicas before and after a verification, and nil or not. -/
def verification (reqs : List (MapOrder × Request Nat)) (address : String)
    (answers : VerifyAnswers) : Option (List Replica × List Replica × Bool) :=
  (run { blank with revisionCounterDisabled := false } reqs).bind (fun c =>
    (c.verifyRebuildReplica .listed address answers).map (fun x =>
      (c.replicas, x.1.replicas, x.2.isNone)))

/--
The only replica of a volume is RW, is verified and is ERR; the replica that is added to it
is verified with a counter of -1, nil is returned, and it is still WO.
-/
theorem verification_costs :
    verification [(.listed, .addReplica "a" false .RW (faultless 1))] "a"
        ⟨.ok {"s"}, .ok {"s"}, .ok 0, fun _ => .ok ()⟩
      = some ([⟨"a", .RW⟩], [⟨"a", .ERR⟩], false)
    ∧ verification rebuildingPair "b" ⟨.ok {"s"}, .ok {"s"}, .ok (-1), fun _ => .ok ()⟩
      = some ([⟨"a", .RW⟩, ⟨"b", .WO⟩], [⟨"a", .RW⟩, ⟨"b", .WO⟩], true) := by
  constructor <;> decide

end Controller

end WeftBlock
