import WeftBlock.Controller.Reachable

/-!
# Who is blamed for a failed unmap

`replicator.UnmapAt` looks for a `*MultiWriterError`, but its fan-out returns a
`*MultiUnmapperError`, so the slots of the error are never read: the whole of it
is booked on the backend at position 0. The controller then sets that replica to
ERR and no other. The right replicas are blamed exactly when nobody but the one at
position 0 has failed, and which one that is depends on the order of a map.
-/

namespace WeftBlock

open DataConn Maps

theorem Replicator.callAll_some {β γ : Type} (call : β → γ) (ts : List (String × β)) :
    Replicator.callAll call (ts.map (fun t => some t.2)) = some (ts.map (fun t => call t.2)) := by
  unfold callAll
  induction ts with
  | nil => rfl
  | cons t ts ih => rw [List.map_cons, List.mapM_cons, ih]; rfl

namespace Controller

variable {β : Type}

/-- The unmap that is sent to the replica at this address fails. -/
def UnmapFails (c : Controller β) (unmap : β → Nat × Option Err) (a : String) : Prop :=
  ∃ b e, c.handle a = some b ∧ (unmap b).2 = some e

/--
Every replica the unmap was sent to is treated by how its own unmap went: in ERR
when it failed, in its old mode when it did not.
-/
def Blamed (c c' : Controller β) (unmap : β → Nat × Option Err) : Prop :=
  ∀ r ∈ c.replicas, r.mode ≠ .ERR →
    (c.UnmapFails unmap r.address → ⟨r.address, .ERR⟩ ∈ c'.replicas)
      ∧ (¬ c.UnmapFails unmap r.address → r ∈ c'.replicas)

/-- The address that is blamed. -/
def firstUnmapper (c : Controller β) : String :=
  Replicator.addressOf c.backend.unmapperIndex 0

variable {unmap : β → Nat × Option Err} {c : Controller β}

theorem blamed_self
    (h : ∀ r ∈ c.replicas, r.mode ≠ .ERR → ¬ c.UnmapFails unmap r.address) : Blamed c c unmap :=
  fun r hr hm => ⟨fun hf => absurd hf (h r hr hm), fun _ => hr⟩

variable {ts : List (String × β)}

/-- What the replicator makes of a fan-out in which somebody fails. -/
theorem replicator_unmapAt {r : Replicator β} (hav : r.backendsAvailable = true)
    (hts : r.unmappers = ts.map (fun t => some t.2)) (order : MapOrder)
    (unmap : β → Nat × Option Err) :
    ∃ n, r.unmapAt order unmap = some (n,
      if ∀ t ∈ ts, (unmap t.2).2 = none then none
      else some (.backend ⟨AList.singleton (Replicator.addressOf r.unmapperIndex 0)
        (.other (slotsText (ts.map (fun t => (unmap t.2).2)))), ∅⟩)) := by
  have hall : (∀ e ∈ (ts.map (fun t => unmap t.2)).map (fun a => a.2), e = none)
      ↔ ∀ t ∈ ts, (unmap t.2).2 = none := by
    rw [List.map_map]
    exact List.forall_mem_map
  unfold Replicator.unmapAt Replicator.multiUnmapAt
  rw [if_neg (by rw [hav]; simp), hts, Replicator.callAll_some]
  dsimp only
  by_cases hok : ∀ t ∈ ts, (unmap t.2).2 = none
  · rw [if_pos hok, if_pos (hall.mpr hok)]
    exact ⟨_, rfl⟩
  · rw [if_neg hok, if_neg (fun hh => hok (hall.mp hh))]
    simp only [List.map_map]
    exact ⟨_, rfl⟩

theorem slotsText_head {e : Err} {errs : List (Option Err)} (h : ∀ x ∈ errs, x = none) :
    slotsText (some e :: errs) = e.text := by
  have hnil : errs.filterMap id = [] := by
    rw [List.filterMap_eq_nil_iff]
    exact fun x hx => h x hx
  have hone : (some e :: errs).filterMap id = [e] := by
    rw [List.filterMap_cons_some (show id (some e) = some e from rfl), hnil]
  rw [slotsText, hone]
  rfl

/-- If only the first unmapper failed, the text of the whole error is the text of its own. -/
theorem slotsText_only
    (ht : Targets c (fun m => m ≠ .ERR) c.backend.unmapperIndex c.backend.unmappers ts) (hfail : ¬ ∀ t ∈ ts, (unmap t.2).2 = none)
    (honly : ∀ t ∈ ts, (unmap t.2).2 ≠ none → t.1 = c.firstUnmapper) :
    ∃ t ∈ ts, ∃ e, (unmap t.2).2 = some e
      ∧ slotsText (ts.map (fun t => (unmap t.2).2)) = e.text := by
  cases ts with
  | nil => exact absurd (by simp) hfail
  | cons t ts =>
    have hfirst : c.firstUnmapper = t.1 := ht.addressOf (Nat.zero_lt_succ _)
    obtain ⟨hnd, _⟩ := List.nodup_cons.mp ht.nodup
    have hrest : ∀ u ∈ ts, (unmap u.2).2 = none := by
      intro u hu
      by_contra hne
      exact hnd (List.mem_map.mpr ⟨u, hu, (honly u (List.mem_cons_of_mem _ hu) hne).trans hfirst⟩)
    have hhead : (unmap t.2).2 ≠ none := fun hh =>
      hfail (List.forall_mem_cons.mpr ⟨hh, hrest⟩)
    obtain ⟨e, he⟩ := Option.ne_none_iff_exists'.mp hhead
    refine ⟨t, List.mem_cons_self, e, he, ?_⟩
    rw [List.map_cons, he]
    exact slotsText_head (List.forall_mem_map.mpr hrest)

/-- Only the text of an error decides what is made of it. -/
theorem isPlain_of_text (e e' : Err) (h : e.text = e'.text) : isPlain e = isPlain e' := by
  unfold isPlain isSnapshotDiskExist isNoSpace
  rw [h]

theorem unmapFails_iff
    (ht : Targets c (fun m => m ≠ .ERR) c.backend.unmapperIndex c.backend.unmappers ts)
    (unmap : β → Nat × Option Err) {r : Replica} (hr : r ∈ c.replicas) (hm : r.mode ≠ .ERR) :
    c.UnmapFails unmap r.address ↔ ∃ t ∈ ts, t.1 = r.address ∧ (unmap t.2).2 ≠ none := by
  constructor
  · intro hex
    obtain ⟨b, e, hb, he⟩ := hex
    exact ⟨(r.address, b), (ht.mem_iff _ _).mpr ⟨hb, r.mode, hr, hm⟩, rfl, by rw [he]; simp⟩
  · intro hex
    obtain ⟨⟨a, b⟩, hin, rfl, hne⟩ := hex
    obtain ⟨e, he⟩ := Option.ne_none_iff_exists'.mp hne
    exact ⟨b, e, ((ht.mem_iff _ _).mp hin).1, he⟩

section

variable {c c' : Controller β} (h : Consistent c) {marked : List String}
  (hc : Moded c c' (markErr marked))
include h hc

/-- A failure that is not the first unmapper's goes unnoticed. -/
theorem not_blamed {r : Replica}
    (hr : r ∈ c.replicas) (hm : r.mode ≠ .ERR) (hf : c.UnmapFails unmap r.address)
    (hout : r.address ∉ marked) : ¬ Blamed c c' unmap := by
  intro hb
  have herr := (hb r hr hm).1 hf
  rw [hc.replicas] at herr
  obtain ⟨r', hr', he⟩ := List.mem_map.mp herr
  have ha : r'.address = r.address := by rw [← address_markErr marked r', he]
  obtain rfl := h.eq_of_address hr' hr ha
  rw [markErr, if_neg hout] at he
  exact hm (by rw [he])

/-- If only the first unmapper failed, it is the one that is set to ERR. -/
theorem blamed_first (hsub : ∀ a ∈ marked, a = c.firstUnmapper) (hmarked : c.firstUnmapper ∈ marked)
    {r₀ : Replica} (hr₀ : r₀ ∈ c.replicas) (hf₀ : c.UnmapFails unmap r₀.address)
    (honly : ∀ r ∈ c.replicas, r.mode ≠ .ERR → c.UnmapFails unmap r.address →
      r.address = c.firstUnmapper) (hm₀ : r₀.mode ≠ .ERR) : Blamed c c' unmap := by
  have h₀ := honly r₀ hr₀ hm₀ hf₀
  intro r hr hm
  rw [hc.replicas]
  refine ⟨fun hf => ?_, fun hf => ?_⟩
  · refine List.mem_map.mpr ⟨r, hr, ?_⟩
    rw [markErr, if_pos (by rw [honly r hr hm hf]; exact hmarked)]
  · -- it is not the first, or it would be the one that failed
    have hne : r.address ∉ marked := fun hin => by
      have heq := h.eq_of_address hr hr₀ ((hsub _ hin).trans h₀.symm)
      exact hf (heq ▸ hf₀)
    exact List.mem_map.mpr ⟨r, hr, if_neg hne⟩

end

/--
**Unmap failures reach the right replicas exactly when only the first unmapper
failed.** Without a WO replica, whatever the map order was and whichever unmaps
fail with errors that are neither out of space nor about an existing snapshot.
-/
theorem unmapAt_blames_iff {c : Controller β} (h : Consistent c) (hwo : c.hasWOReplica = false)
    (hexp : c.isExpanding = false) {length : UInt32} {off : Int}
    (hin : ¬ c.beyond length.toNat off) {unmap : β → Nat × Option Err}
    (herr : ∀ b e, (unmap b).2 = some e → isSnapshotDiskExist e = false ∧ isNoSpace e = false)
    (order : MapOrder) :
    (∃ c' n err, c.unmapAt order unmap length off = some (c', n, err) ∧ Blamed c c' unmap)
      ↔ ∀ r ∈ c.replicas, r.mode ≠ .ERR → c.UnmapFails unmap r.address →
          r.address = c.firstUnmapper := by
  obtain ⟨ts, hts⟩ := h.unmappers
  have hfails := fun r hr hm => unmapFails_iff (r := r) hts unmap hr hm
  unfold unmapAt
  rw [if_neg hin, if_neg (by rw [hwo]; simp), if_neg (by rw [hexp]; simp)]
  by_cases hav : c.backend.backendsAvailable = true
  · obtain ⟨n, hn⟩ := replicator_unmapAt hav hts.handles_eq order unmap
    rw [hn]
    by_cases hok : ∀ t ∈ ts, (unmap t.2).2 = none
    · have hnone : ∀ r ∈ c.replicas, r.mode ≠ .ERR → ¬ c.UnmapFails unmap r.address := by
        intro r hr hm hf
        obtain ⟨t, ht, _, hne⟩ := (hfails r hr hm).mp hf
        exact hne (hok t ht)
      rw [if_pos hok]
      exact ⟨fun _ r hr hm hf => absurd hf (hnone r hr hm),
        fun _ => ⟨c, n, none, rfl, blamed_self hnone⟩⟩
    · rw [if_neg hok]
      generalize he : slotsText (ts.map (fun t => (unmap t.2).2)) = t
      have hlook : ∀ a, (AList.singleton c.firstUnmapper (.other t) :
          AList (fun _ : String => Err)).lookup a
            = if a = c.firstUnmapper then some (.other t) else none :=
        fun a => lookup_singleton_eq _ _ _
      obtain ⟨c', err, marked, hc, hmoded, hh⟩ := handleErrorNoLock_spec h order
        ⟨AList.singleton c.firstUnmapper (.other t), ∅⟩
        ⟨_, (mem_iff_lookup _ _).mpr ⟨_, by rw [hlook, if_pos rfl]⟩⟩
      have hsub : ∀ a ∈ marked, a = c.firstUnmapper := by
        intro a ha
        obtain ⟨x, hx⟩ := (mem_iff_lookup _ _).mp (hh.sub a ha)
        rw [hlook] at hx
        by_contra hne
        rw [if_neg hne] at hx
        simp at hx
      have hcall : c.finish order n (some (.backend ⟨AList.singleton c.firstUnmapper (.other t), ∅⟩))
          = some (c', n, err) := by
        rw [finish, hc]
        rfl
      constructor
      · intro hex r hr hm hf
        obtain ⟨c'', n', err', heq, hb⟩ := hex
        obtain ⟨rfl, _⟩ := Prod.mk.inj (Option.some.inj (hcall.symm.trans heq))
        by_contra hne
        exact not_blamed h hmoded hr hm hf (fun hin => hne (hsub _ hin)) hb
      · intro honly
        refine ⟨c', n, err, hcall, ?_⟩
        -- somebody failed, so it was the first, and nobody else did
        have hts_only : ∀ t ∈ ts, (unmap t.2).2 ≠ none → t.1 = c.firstUnmapper := by
          intro hex hin hne
          obtain ⟨a, b⟩ := hex
          obtain ⟨hb, m, hr, hm⟩ := (hts.mem_iff _ _).mp hin
          exact honly _ hr hm ((hfails _ hr hm).mpr ⟨_, hin, rfl, hne⟩)
        obtain ⟨⟨a, b⟩, hin, x, hx, htext⟩ := slotsText_only hts hok hts_only
        obtain ⟨hb, m, hr, hm⟩ := (hts.mem_iff _ _).mp hin
        have hplain : isPlain (.other t) = true := by
          rw [isPlain_of_text _ x (by rw [← htext, ← he]; rfl), isPlain, (herr b x hx).1,
            (herr b x hx).2]
          rfl
        exact blamed_first h hmoded hsub (hh.plain _ _ (by rw [hlook, if_pos rfl]) hplain) hr
          ((hfails _ hr hm).mpr ⟨_, hin, rfl, by rw [hx]; simp⟩) honly hm
  · -- without a reader nothing was sent to anybody
    have hnone : ∀ r ∈ c.replicas, ¬ r.mode ≠ .ERR := by
      intro r hr hm
      cases hmode : r.mode with
      | RW => exact hav (h.available_iff.mpr ⟨r, hr, hmode⟩)
      | WO =>
        rw [(hasWOReplica_iff c).mpr ⟨r, hr, hmode⟩] at hwo
        simp at hwo
      | ERR => exact hm hmode
    rw [Replicator.unmapAt, if_pos (Bool.eq_false_iff.mpr hav)]
    refine ⟨fun _ r hr hm => absurd hm (hnone r hr), fun _ => ⟨c, 0, some .noBackend, ?_, ?_⟩⟩
    · show c.finish order 0 _ = _
      rw [finish, handleErrorNoLock_other order (fun e he => absurd he (by simp))]
      rfl
    · exact fun r hr hm => absurd hm (hnone r hr)

/-- Two replicas in mode RW, `a` and `b`, behind the backends 1 and 2. -/
def pair : Controller Nat :=
  (blank.run [ (.listed, .addReplica "a" false .RW (faultless 1)),
    (.listed, .addReplica "b" false .RW (faultless 2)) ]).getD blank

theorem consistent_pair : pair.Consistent := (consistent_fresh ⟨rfl, rfl⟩).getD_run _

/-- The unmap of the first backend times out, every other one succeeds. -/
def unmapTimesOut (b : Nat) : Nat × Option Err :=
  if b = 1 then (0, some (.other (text "r/w timeout"))) else (4096, none)

theorem unmapTimesOut_err (b : Nat) (e : Err) (h : (unmapTimesOut b).2 = some e) :
    isSnapshotDiskExist e = false ∧ isNoSpace e = false := by
  unfold unmapTimesOut at h
  split at h
  · rw [← Option.some.inj h]; decide
  · simp at h

theorem unmapAt_blames_iff_pair :
    pair.hasWOReplica = false ∧ pair.isExpanding = false ∧ ¬ pair.beyond 4096 0
      ∧ ((∃ c' n err, pair.unmapAt .listed unmapTimesOut 4096 0 = some (c', n, err)
          ∧ Blamed pair c' unmapTimesOut)
        ↔ ∀ r ∈ pair.replicas, r.mode ≠ .ERR → pair.UnmapFails unmapTimesOut r.address →
          r.address = pair.firstUnmapper) :=
  ⟨by decide, by decide, by decide, unmapAt_blames_iff consistent_pair (by decide) (by decide)
    (by decide) unmapTimesOut_err .listed⟩

/--
The unmap of `a` fails and that of `b` succeeds, and it is `b` that is set to ERR
while `a`, which still holds what should have been discarded, stays RW.
-/
theorem unmapAt_blames_bystander :
    pair.UnmapFails unmapTimesOut "a" ∧ ¬ pair.UnmapFails unmapTimesOut "b"
      ∧ (pair.unmapAt .listed unmapTimesOut 4096 0).map (fun x => x.1.replicas)
        = some [⟨"a", .RW⟩, ⟨"b", .ERR⟩] := by
  refine ⟨⟨1, _, by decide, rfl⟩, ?_, by decide⟩
  intro hex
  obtain ⟨b, e, hb, he⟩ := hex
  obtain rfl : 2 = b := Option.some.inj hb
  exact absurd he (by simp [unmapTimesOut])

end Controller

end WeftBlock
