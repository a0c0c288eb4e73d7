import WeftBlock.Lib.Maps

/-!
# Which jobs are kept

The sync agent has a list of the backups and one of the hash jobs. `refresh` of
`pkg/sync/rpc/list.go` drops the old ones among those that have ended: of each of two states it
keeps so many, the newest. It looks for them from the end of the list, and goes on towards the
front to remove the rest. After a removal it steps back twice, so that the record in front of a
removed one is passed over. If that one is too old as well, it stays.

The lists are given from the end, where the loops begin. Only the states of the records matter.
-/

namespace WeftBlock.Sync

open Maps

/-- `ProgressState`. A backup takes over what the library reports. -/
inductive ProgressState
  | inProgress
  | complete
  | error
  | other (state : String)
deriving DecidableEq

namespace JobList

section

variable {α : Type} (isIn : α → Bool) (limit : Nat)

/-- The second loop for a state, which removes, from some index on down. -/
def removeLoop : List α → List α
  | [] => []
  | [a] => if isIn a then [] else [a]
  | a :: b :: older =>
    -- after a removal the index is decremented here and by the loop: `b` is not looked at
    if isIn a then b :: removeLoop older else a :: removeLoop (b :: older)

/-- The first loop, which counts, and the second one from where it breaks off. -/
def countLoop : Nat → List α → List α
  | _, [] => []
  | count, a :: older =>
    if isIn a then
      if count = limit then removeLoop isIn (a :: older) else a :: countLoop (count + 1) older
    else a :: countLoop count older

/-! ## What is to be kept -/

/-- The list without what comes after the first `n` of a state and is of that state. -/
def newest : Nat → List α → List α
  | _, [] => []
  | n, a :: older =>
    if isIn a then if n = 0 then newest 0 older else a :: newest (n - 1) older
    else a :: newest n older

/-- After the first `n` of a state no two neighbours are of that state. -/
def Apart : Nat → List α → Prop
  | _, [] => True
  | n, a :: older =>
    if isIn a then
      if n = 0 then (∀ b ∈ older.head?, isIn b = false) ∧ Apart 0 older else Apart (n - 1) older
    else Apart n older

/-- What the loops do: the others stay, and all goes that must go exactly if it is apart. -/
structure Purged (n : Nat) (l l' : List α) : Prop where
  sublist : l'.Sublist l
  others : l'.filter (fun a => !isIn a) = l.filter (fun a => !isIn a)
  most : (l'.filter isIn).length ≤ n ↔ Apart isIn n l
  newest : Apart isIn n l → l' = newest isIn n l

end

section

variable {α : Type} {isIn : α → Bool} {limit n : Nat} {l l' : List α} {a : α}

theorem filter_newest (n : Nat) (l : List α) :
    (newest isIn n l).filter isIn = (l.filter isIn).take n := by
  fun_induction newest isIn n l with
  | case1 => simp
  | case2 a older ha ih => rw [List.take_zero, ih, List.take_zero]
  | case3 n a older ha hn ih =>
    rw [List.filter_cons_of_pos ha, List.filter_cons_of_pos ha, ih,
      List.take_cons (Nat.pos_of_ne_zero hn)]
  | case4 n a older ha ih => rw [List.filter_cons_of_neg ha, List.filter_cons_of_neg ha, ih]

theorem Purged.other (h : Purged isIn n l l') (ha : isIn a = false) :
    Purged isIn n (a :: l) (a :: l') := by
  refine ⟨h.sublist.cons_cons a, ?_, ?_, fun hap => ?_⟩
  · rw [List.filter_cons_of_pos (by simp [ha]), h.others, List.filter_cons_of_pos (by simp [ha])]
  · simpa [Apart, ha] using h.most
  · simp only [Apart, JobList.newest, ha, Bool.false_eq_true, if_false] at hap ⊢
    rw [h.newest hap]

theorem Purged.counted (h : Purged isIn n l l') (ha : isIn a = true) :
    Purged isIn (n + 1) (a :: l) (a :: l') := by
  refine ⟨h.sublist.cons_cons a, ?_, ?_, fun hap => ?_⟩
  · rw [List.filter_cons_of_neg (by simp [ha]), h.others, List.filter_cons_of_neg (by simp [ha])]
  · simpa [Apart, ha] using h.most
  · simp only [Apart, JobList.newest, ha, if_true, Nat.succ_ne_zero, if_false,
      Nat.add_sub_cancel] at hap ⊢
    rw [h.newest hap]

variable (isIn) in
theorem removeLoop_purged (l : List α) : Purged isIn 0 l (removeLoop isIn l) := by
  fun_induction removeLoop isIn l with
  | case1 => exact ⟨List.Sublist.refl _, rfl, by simp [Apart], fun _ => rfl⟩
  | case2 a ha => exact ⟨by simp, by simp [ha], by simp [Apart, ha], fun _ => by simp [newest, ha]⟩
  | case3 a ha => exact ⟨by simp, rfl, by simp [Apart, ha], fun _ => by simp [newest, ha]⟩
  | case4 a b older ha ih =>
    refine ⟨(ih.sublist.cons_cons b).cons a, ?_, ?_, fun hap => ?_⟩
    · simp only [List.filter_cons, ha, ih.others, Bool.not_true, Bool.false_eq_true, if_false]
    · have := ih.most
      by_cases hb : isIn b = true <;> simp_all [Apart]
    · simp only [Apart, ha, if_true, List.head?_cons, Option.mem_def, Option.some.injEq,
        forall_eq'] at hap
      simp [newest, ha, hap.1, ih.newest (by simpa [hap.1] using hap.2)]
  | case5 a b older ha ih => exact ih.other (by simpa using ha)

variable (isIn) in
/-- **One state.** -/
theorem countLoop_purged (l : List α) : ∀ count, count ≤ limit →
    Purged isIn (limit - count) l (countLoop isIn limit count l) := by
  induction l with
  | nil => exact fun count _ => ⟨List.Sublist.refl _, rfl, by simp [Apart, countLoop], fun _ => rfl⟩
  | cons a older ih =>
    intro count hle
    rw [countLoop]
    by_cases ha : isIn a = true
    · rw [if_pos ha]
      by_cases hc : count = limit
      · rw [if_pos hc, hc, Nat.sub_self]
        exact removeLoop_purged isIn _
      · rw [if_neg hc, show limit - count = limit - (count + 1) + 1 by omega]
        exact (ih (count + 1) (by omega)).counted ha
    · rw [if_neg ha]
      exact (ih count hle).other (by simpa using ha)

end

/-! ## The lists -/

section

variable {α : Type} (state : α → ProgressState)

/-- One state after the other. -/
def purgeAll : List (ProgressState × Nat) → List α → List α
  | [], infos => infos
  | (s, limit) :: limits, infos => purgeAll limits (countLoop (state · = s) limit 0 infos)

/-- `retainBackupStateCounts` -/
def retainBackupStateCounts : List (ProgressState × Nat) := [(.complete, 5), (.error, 10)]

/-- `refresh` of a `BackupList`. -/
def backupRefresh (order : MapOrder) (infos : List α) : List α :=
  purgeAll state (order.enum retainBackupStateCounts) infos

/-- What `refresh` of a `SnapshotHashList` hands to `purgePartialRetained`. -/
def purgeSnapshotHashInfos : List (ProgressState × Nat) := [(.complete, 10), (.error, 10)]

/-- `refresh` of a `SnapshotHashList`. -/
def snapshotHashRefresh (infos : List α) : List α := purgeAll state purgeSnapshotHashInfos infos

/-- What must go is apart for each state, once what had to go for those before is gone. -/
def AllApart : List (ProgressState × Nat) → List α → Prop
  | [], _ => True
  | (s, limit) :: limits, l =>
    Apart (state · = s) limit l ∧ AllApart limits (newest (state · = s) limit l)

/-- **Exactly the newest are kept**, and all that are in other states. -/
structure Pruned (limits : List (ProgressState × Nat)) (l l' : List α) : Prop where
  newest : ∀ s limit, (s, limit) ∈ limits →
    l'.filter (state · = s) = (l.filter (state · = s)).take limit
  others : ∀ s, s ∉ limits.map Prod.fst → l'.filter (state · = s) = l.filter (state · = s)
  order : l'.Sublist l

variable {state} {l l' : List α}

theorem Purged.kept {s t : ProgressState} {n : Nat} (h : Purged (state · = s) n l l')
    (hne : t ≠ s) : l'.filter (state · = t) = l.filter (state · = t) := by
  have htwice : ∀ l : List α, l.filter (state · = t)
      = (l.filter (fun a => !decide (state a = s))).filter (state · = t) := by
    intro l
    rw [List.filter_filter]
    refine List.filter_congr (fun a _ => ?_)
    by_cases ht : state a = t
    · simp [ht, hne]
    · simp [ht]
  rw [htwice l', h.others, ← htwice]

/-- A map has no order. -/
theorem Pruned.perm {limits limits' : List (ProgressState × Nat)} (h : Pruned state limits l l')
    (hperm : limits.Perm limits') : Pruned state limits' l l' :=
  ⟨fun s n hs => h.newest s n (hperm.mem_iff.mpr hs),
    fun s hs => h.others s (fun hm => hs ((hperm.map _).mem_iff.mp hm)), h.order⟩

/-- **Any states.** -/
theorem purgeAll_spec : ∀ (limits : List (ProgressState × Nat)) (infos : List α),
    (limits.map Prod.fst).Nodup → (purgeAll state limits infos).Sublist infos
      ∧ (∀ s, s ∉ limits.map Prod.fst →
        (purgeAll state limits infos).filter (state · = s) = infos.filter (state · = s))
      ∧ (Pruned state limits infos (purgeAll state limits infos) ↔ AllApart state limits infos)
  | [], infos, _ => ⟨List.Sublist.refl _, fun _ _ => rfl, fun _ => trivial,
      fun _ => ⟨by simp, fun _ _ => rfl, List.Sublist.refl _⟩⟩
  | (s, limit) :: limits, infos, hnd => by
    rw [List.map_cons, List.nodup_cons] at hnd
    have h₁ := countLoop_purged (state · = s) infos 0 (Nat.zero_le limit)
    rw [Nat.sub_zero] at h₁
    rw [purgeAll]
    generalize countLoop (state · = s) limit 0 infos = infos₁ at h₁
    obtain ⟨hsub, hothers, hiff⟩ := purgeAll_spec limits infos₁ hnd.2
    have hne : ∀ t m, (t, m) ∈ limits → t ≠ s := by
      intro t m ht heq
      exact hnd.1 (List.mem_map.mpr ⟨(t, m), ht, heq⟩)
    have hall : ∀ t, t ∉ s :: limits.map Prod.fst → (purgeAll state limits infos₁).filter
        (state · = t) = infos.filter (state · = t) := by
      intro t ht
      rw [List.mem_cons, not_or] at ht
      rw [hothers t ht.2, h₁.kept ht.1]
    refine ⟨hsub.trans h₁.sublist, hall, fun h => ?_, fun h => ?_⟩
    · -- what there is too much of the first state is still there at the end
      have hap : Apart (state · = s) limit infos := by
        rw [← h₁.most, ← hothers s hnd.1, h.newest s limit List.mem_cons_self]
        exact List.length_take_le _ _
      rw [AllApart, ← h₁.newest hap, ← hiff]
      refine ⟨hap, fun t m ht => ?_, hothers, hsub⟩
      rw [h₁.kept (hne t m ht)]
      exact h.newest t m (List.mem_cons_of_mem _ ht)
    · rw [AllApart, ← h₁.newest h.1, ← hiff] at h
      refine ⟨fun t m ht => ?_, hall, hsub.trans h₁.sublist⟩
      rcases List.mem_cons.mp ht with heq | ht
      · obtain ⟨rfl, rfl⟩ := Prod.mk.inj heq
        rw [hothers t hnd.1, h₁.newest h.1, filter_newest]
      · rw [← h₁.kept (hne t m ht)]
        exact h.2.newest t m ht

/-- **Exactly the newest are kept** if what must go is apart. -/
theorem refresh_pruned_iff (order : MapOrder) (infos : List α) :
    (Pruned state retainBackupStateCounts infos (backupRefresh state order infos)
      ↔ AllApart state (order.enum retainBackupStateCounts) infos)
    ∧ (Pruned state purgeSnapshotHashInfos infos (snapshotHashRefresh state infos)
      ↔ AllApart state purgeSnapshotHashInfos infos) := by
  have hperm := order.perm retainBackupStateCounts
  obtain ⟨-, -, hbackup⟩ := purgeAll_spec (order.enum retainBackupStateCounts) infos
    ((hperm.map Prod.fst).nodup_iff.mpr (by decide))
  exact ⟨Iff.trans ⟨fun h => h.perm hperm.symm, fun h => h.perm hperm⟩ hbackup,
    (purgeAll_spec purgeSnapshotHashInfos infos (by decide)).2.2⟩

/-- Of twelve jobs that are complete, eleven are kept. -/
theorem snapshotHashRefresh_twelve :
    ¬ Pruned id purgeSnapshotHashInfos (List.replicate 12 .complete)
      (snapshotHashRefresh id (List.replicate 12 .complete)) := by
  intro h
  have hlen := congrArg List.length (h.newest .complete 10 List.mem_cons_self)
  exact absurd hlen (by decide)

end

end JobList

end WeftBlock.Sync
