import Mathlib

/-!
# Placement

`PlaceReplicas`: the hosts of new replicas. The candidates are sorted by availability zone and
UUID; a first pass takes one host of each zone, a second one fills up with other hosts.
-/

namespace WeftBlock.Control

/-- `HostCandidate`. -/
structure HostCandidate where
  uuid : String
  dc : String
deriving DecidableEq

/-- The order of the pool. -/
def HostCandidate.le (a b : HostCandidate) : Bool :=
  if a.dc ≠ b.dc then decide (a.dc < b.dc) else decide (a.uuid ≤ b.uuid)

/-- The errors of `PlaceReplicas`. -/
inductive PlaceErr
  /-- `replica count must be >= 1` -/
  | count (got : Int)
  /-- `need %d hosts, have %d` -/
  | need (count : Int) (hosts : Nat)
  /-- `could only place %d/%d replicas` -/
  | only (placed : Nat) (count : Int)
deriving DecidableEq

/-- What the passes keep. -/
structure Placing where
  picked : List HostCandidate
  usedDC : List String
  usedHost : List String

/-- First pass: one per zone. -/
def firstPass (count : Int) : List HostCandidate → Placing → Placing
  | [], st => st
  | h :: pool, st =>
    if st.picked.length = count then st
    else if h.dc ∈ st.usedDC then firstPass count pool st
    else firstPass count pool ⟨st.picked ++ [h], h.dc :: st.usedDC, h.uuid :: st.usedHost⟩

/-- Second pass: fill from the remaining hosts. -/
def secondPass (count : Int) : List HostCandidate → Placing → Placing
  | [], st => st
  | h :: pool, st =>
    if st.picked.length = count then st
    else if h.uuid ∈ st.usedHost then secondPass count pool st
    else secondPass count pool { st with
      picked := st.picked ++ [h], usedHost := h.uuid :: st.usedHost }

/-- `PlaceReplicas`. -/
def placeReplicas (candidates : List HostCandidate) (count : Int) :
    Except PlaceErr (List HostCandidate) :=
  if count ≤ 0 then .error (.count count)
  else if candidates.length < count then .error (.need count candidates.length)
  else
    let pool := candidates.insertionSort (fun a b => a.le b)
    let st := secondPass count pool (firstPass count pool ⟨[], [], []⟩)
    if st.picked.length ≠ count then .error (.only st.picked.length count) else .ok st.picked

/-! ## What is picked -/

/-- The picked hosts are candidates, and the used ones. -/
structure Placing.Ok (count : Int) (pool : List HostCandidate) (st : Placing) : Prop where
  mem : ∀ h ∈ st.picked, h ∈ pool
  used : ∀ u, u ∈ st.usedHost ↔ u ∈ st.picked.map HostCandidate.uuid
  length : st.picked.length ≤ count

variable {pool : List HostCandidate} {count : Int}

theorem Placing.Ok.push {st : Placing}
    (h : st.Ok count pool) {c : HostCandidate} (hc : c ∈ pool) (hlen : st.picked.length ≠ count)
    (dcs : List String) : Placing.Ok count pool ⟨st.picked ++ [c], dcs, c.uuid :: st.usedHost⟩ := by
  have hle := h.length
  refine ⟨fun x hx => ?_, fun u => ?_, ?_⟩
  · rcases List.mem_append.mp hx with hx | hx
    · exact h.mem x hx
    · rwa [List.mem_singleton.mp hx]
  · rw [List.mem_cons, h.used, List.map_append, List.mem_append, or_comm]
    simp
  · rw [List.length_append, List.length_singleton]
    omega

theorem firstPass_ok :
    ∀ {rest : List HostCandidate} {st : Placing}, (∀ h ∈ rest, h ∈ pool) → st.Ok count pool →
      (firstPass count rest st).Ok count pool := by
  intro rest
  induction rest with
  | nil => exact fun _ h => h
  | cons c rest ih =>
    intro st hmem h
    have hrest : ∀ x ∈ rest, x ∈ pool := fun x hx => hmem x (List.mem_cons_of_mem _ hx)
    rw [firstPass]
    split
    · exact h
    · split
      · exact ih hrest h
      · exact ih hrest (h.push (hmem c List.mem_cons_self) (by assumption) _)

theorem secondPass_ok :
    ∀ {rest : List HostCandidate} {st : Placing}, (∀ h ∈ rest, h ∈ pool) → st.Ok count pool →
      (secondPass count rest st).Ok count pool := by
  intro rest
  induction rest with
  | nil => exact fun _ h => h
  | cons c rest ih =>
    intro st hmem h
    have hrest : ∀ x ∈ rest, x ∈ pool := fun x hx => hmem x (List.mem_cons_of_mem _ hx)
    rw [secondPass]
    split
    · exact h
    · split
      · exact ih hrest h
      · exact ih hrest (h.push (hmem c List.mem_cons_self) (by assumption) _)

/-- The passes pick no host twice, if no host is twice among the candidates. -/
theorem firstPass_nodup :
    ∀ {rest : List HostCandidate} {st : Placing},
      ((st.picked ++ rest).map HostCandidate.uuid).Nodup →
      ((firstPass count rest st).picked.map HostCandidate.uuid).Nodup := by
  intro rest
  induction rest with
  | nil =>
    intro st h
    rwa [List.append_nil] at h
  | cons c rest ih =>
    intro st h
    rw [firstPass]
    split
    · rw [List.map_append] at h
      exact h.of_append_left
    · split
      · refine ih (h.sublist (List.Sublist.map _ ?_))
        exact List.Sublist.append_left (List.sublist_cons_self c rest) _
      · refine ih ?_
        rwa [List.append_assoc]

theorem secondPass_nodup :
    ∀ {rest : List HostCandidate} {st : Placing}, (∀ h ∈ rest, h ∈ pool) → st.Ok count pool →
      (st.picked.map HostCandidate.uuid).Nodup →
      ((secondPass count rest st).picked.map HostCandidate.uuid).Nodup := by
  intro rest
  induction rest with
  | nil => exact fun _ _ h => h
  | cons c rest ih =>
    intro st hmem hok h
    have hrest : ∀ x ∈ rest, x ∈ pool := fun x hx => hmem x (List.mem_cons_of_mem _ hx)
    rw [secondPass]
    split
    · exact h
    · split
      · exact ih hrest hok h
      · rename_i hlen hused
        refine ih hrest (hok.push (hmem c List.mem_cons_self) hlen _) ?_
        rw [List.map_append, List.map_singleton]
        refine List.nodup_append.mpr ⟨h, List.nodup_singleton _, fun a ha b hb => ?_⟩
        rw [List.mem_singleton.mp hb]
        rintro rfl
        exact hused ((hok.used _).mpr ha)

/-- The second pass has the number, or has taken every host. -/
theorem secondPass_full :
    ∀ {rest : List HostCandidate} {st : Placing}, (∀ h ∈ rest, h ∈ pool) → st.Ok count pool →
      (secondPass count rest st).picked.length = count
        ∨ (∀ u ∈ st.usedHost, u ∈ (secondPass count rest st).usedHost)
          ∧ ∀ h ∈ rest, h.uuid ∈ (secondPass count rest st).usedHost := by
  intro rest
  induction rest with
  | nil => exact fun _ _ => Or.inr ⟨fun _ hu => hu, fun _ hh => absurd hh (by simp)⟩
  | cons c rest ih =>
    intro st hmem hok
    have hrest : ∀ x ∈ rest, x ∈ pool := fun x hx => hmem x (List.mem_cons_of_mem _ hx)
    rw [secondPass]
    split
    · exact Or.inl (by assumption)
    · rename_i hlen
      split
      · rename_i hused
        rcases ih hrest hok with hfull | ⟨hkeep, hall⟩
        · exact Or.inl hfull
        · refine Or.inr ⟨hkeep, fun h hh => ?_⟩
          rcases List.mem_cons.mp hh with rfl | hh
          · exact hkeep _ hused
          · exact hall h hh
      · rcases ih hrest (hok.push (hmem c List.mem_cons_self) hlen st.usedDC) with
          hfull | ⟨hkeep, hall⟩
        · exact Or.inl hfull
        · refine Or.inr ⟨fun u hu => hkeep u (List.mem_cons_of_mem _ hu), fun h hh => ?_⟩
          rcases List.mem_cons.mp hh with rfl | hh
          · exact hkeep _ List.mem_cons_self
          · exact hall h hh

theorem placing_ok (count : Int) (hcount : 0 ≤ count) (pool : List HostCandidate) :
    Placing.Ok count pool ⟨[], [], []⟩ :=
  ⟨fun _ h => absurd h (by simp), fun _ => by simp, by simpa using hcount⟩

/-- **The picks**: as many candidates as asked for. -/
theorem placeReplicas_ok {candidates picks : List HostCandidate}
    (h : placeReplicas candidates count = .ok picks) :
    (picks.length : Int) = count ∧ ∀ p ∈ picks, p ∈ candidates := by
  rw [placeReplicas] at h
  split at h
  · simp at h
  split at h
  · simp at h
  rename_i hpos _
  dsimp only at h
  split at h
  · simp at h
  rename_i hlen
  rw [not_not] at hlen
  obtain rfl := Except.ok.inj h
  refine ⟨hlen, fun p hp => ?_⟩
  have hok := secondPass_ok (fun _ hh => hh) (firstPass_ok (fun _ hh => hh)
    (placing_ok count (by omega) (candidates.insertionSort (fun a b => a.le b))))
  exact (List.perm_insertionSort _ _).mem_iff.mp (hok.mem p hp)

theorem placeReplicas_need {candidates : List HostCandidate} (hpos : 0 < count)
    (hlen : ¬ count ≤ candidates.length) :
    placeReplicas candidates count = .error (.need count candidates.length) := by
  rw [placeReplicas, if_neg (not_le.mpr hpos), if_pos (not_le.mp hlen)]

/-- **No host twice**, and no failure as long as there are enough of them. -/
theorem placeReplicas_distinct {candidates : List HostCandidate}
    (hdistinct : (candidates.map HostCandidate.uuid).Nodup) (hpos : 0 < count)
    (hlen : count ≤ candidates.length) :
    ∃ picks, placeReplicas candidates count = .ok picks
      ∧ (picks.map HostCandidate.uuid).Nodup := by
  rw [placeReplicas, if_neg (by omega), if_neg (by omega)]
  have hperm := List.perm_insertionSort (fun a b : HostCandidate => a.le b = true) candidates
  generalize candidates.insertionSort (fun a b => a.le b) = pool at hperm ⊢
  have hnodup : (pool.map HostCandidate.uuid).Nodup := (hperm.map _).nodup_iff.mpr hdistinct
  have hok := firstPass_ok (fun _ hh => hh) (placing_ok count hpos.le pool)
  have hfirst := @firstPass_nodup count pool ⟨[], [], []⟩ hnodup
  have hsecond := secondPass_nodup (fun _ hh => hh) hok hfirst
  have hok₂ := secondPass_ok (fun _ hh => hh) hok
  rw [if_neg]
  · exact ⟨_, rfl, hsecond⟩
  · rw [not_not]
    rcases secondPass_full (fun _ hh => hh) hok with hfull | ⟨-, hall⟩
    · exact hfull
    · -- every candidate is picked, and there are enough
      have hsub : pool.map HostCandidate.uuid
          ⊆ (secondPass count pool (firstPass count pool ⟨[], [], []⟩)).picked.map
            HostCandidate.uuid := by
        intro u hu
        obtain ⟨h, hh, rfl⟩ := List.mem_map.mp hu
        exact (hok₂.used _).mp (hall h hh)
      have hle := (hnodup.subperm hsub).length_le
      rw [List.length_map, List.length_map, hperm.length_eq] at hle
      have := hok₂.length
      omega

end WeftBlock.Control
