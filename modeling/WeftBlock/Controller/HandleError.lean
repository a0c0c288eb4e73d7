import WeftBlock.Controller.Consistent

/-!
# What an I/O error does to the replicas

`handleErrorNoLock` sorts the addresses of a failed call three ways: the ones whose
text mentions an existing snapshot are left alone, the ones that ran out of space
are decided on together, and all others go to ERR at once. `Handled` collects what
callers need to know about the outcome; in particular it says exactly when the
error is dropped: when some RW replica is not among the failed ones.
-/

namespace WeftBlock

open DataConn Maps

variable {written : AList (fun _ : String => Nat)} {a : String} {es : List (String × Err)}
  {marked : List String} {l : List Replica}

namespace Controller

variable {β : Type}

/-- An error that sends its replica to ERR at once. -/
def isPlain (e : Err) : Bool := !isSnapshotDiskExist e && !isNoSpace e

/-- An error that counts as out of space. -/
def isFull (e : Err) : Bool := !isSnapshotDiskExist e && isNoSpace e

/-- What the loop over the errors ends with. -/
structure Sorted (es : List (String × Err)) (existing existing' : Finset String)
    (noSpace noSpace' : AList (fun _ : String => Nat)) : Prop where
  existing : ∀ a, a ∈ existing' ↔ a ∈ existing ∨ ∃ e, (a, e) ∈ es ∧ isSnapshotDiskExist e = true
  noSpace : ∀ a, a ∈ noSpace' ↔ a ∈ noSpace ∨ ∃ e, (a, e) ∈ es ∧ isFull e = true

/-- The addresses that go to ERR at once. -/
def plainOnes (es : List (String × Err)) : List String :=
  (es.filter (fun x => isPlain x.2)).map (fun x => x.1)

theorem mem_plainOnes :
    a ∈ plainOnes es ↔ ∃ e, (a, e) ∈ es ∧ isPlain e = true := by
  simp [plainOnes]

theorem exists_mem_cons {a a' : String} {e : Err} {p : Err → Prop} :
    (∃ x, (a', x) ∈ (a, e) :: es ∧ p x) ↔ a' = a ∧ p e ∨ ∃ x, (a', x) ∈ es ∧ p x := by
  constructor
  · intro hex
    obtain ⟨x, hx, hp⟩ := hex
    rcases List.mem_cons.mp hx with hx | hx
    · obtain ⟨rfl, rfl⟩ := Prod.mk.inj hx
      exact Or.inl ⟨rfl, hp⟩
    · exact Or.inr ⟨x, hx, hp⟩
  · intro hor
    rcases hor with ⟨rfl, hp⟩ | ⟨x, hx, hp⟩
    · exact ⟨e, List.mem_cons_self, hp⟩
    · exact ⟨x, List.mem_cons_of_mem _ hx, hp⟩

variable {c : Controller β} {x : Err}

/-- Each error goes one of three ways. -/
theorem errorLoop_spec (h : Consistent c) (order : MapOrder)
    (writtenBytes : AList (fun _ : String => Nat)) (es : List (String × Err))
    (existing : Finset String) (noSpace : AList (fun _ : String => Nat)) :
    ∃ c' existing' noSpace',
      errorLoop order writtenBytes es c existing noSpace = some (c', existing', noSpace')
        ∧ Moded c c' (markErr (plainOnes es)) ∧ Sorted es existing existing' noSpace noSpace'
        ∧ ∀ a w, noSpace'.lookup a = some w →
          noSpace.lookup a = some w ∨ w = (writtenBytes.lookup a).getD 0 := by
  induction es generalizing c existing noSpace with
  | nil => exact ⟨c, existing, noSpace, rfl, Moded.refl h, ⟨by simp, by simp⟩, fun a w => Or.inl⟩
  | cons x es ih =>
    obtain ⟨a, e⟩ := x
    rw [errorLoop]
    by_cases hs : isSnapshotDiskExist e = true
    · obtain ⟨c', ex', ns', he, hm, hsort, hw⟩ := ih h (insert a existing) noSpace
      have hp : plainOnes ((a, e) :: es) = plainOnes es := by
        rw [plainOnes, List.filter_cons_of_neg (by simp [isPlain, hs])]; rfl
      refine ⟨c', ex', ns', by rw [if_pos hs]; exact he, hp ▸ hm, ⟨fun a' => ?_, fun a' => ?_⟩, hw⟩
      · rw [hsort.existing a', Finset.mem_insert, exists_mem_cons]
        tauto
      · rw [hsort.noSpace a', exists_mem_cons, isFull, hs]
        simp
    · rw [if_neg hs]
      by_cases hf : isNoSpace e = true
      · obtain ⟨c', ex', ns', he, hm, hsort, hw⟩ := ih h existing
          (noSpace.insert a ((writtenBytes.lookup a).getD 0))
        have hp : plainOnes ((a, e) :: es) = plainOnes es := by
          rw [plainOnes, List.filter_cons_of_neg (by simp [isPlain, hf])]; rfl
        refine ⟨c', ex', ns', by rw [if_pos hf]; exact he, hp ▸ hm, ⟨fun a' => ?_, fun a' => ?_⟩,
          fun a' w hl => (hw a' w hl).elim (fun hl => ?_) Or.inr⟩
        · rw [hsort.existing a', exists_mem_cons]
          tauto
        · rw [hsort.noSpace a', AList.mem_insert, exists_mem_cons, isFull, hf]
          simp only [hs]
          tauto
        · rw [lookup_insert_eq] at hl
          split at hl
          · rename_i ha
            exact Or.inr (ha ▸ (Option.some.inj hl).symm)
          · exact Or.inl hl
      · rw [if_neg hf]
        obtain ⟨c1, he1, hm1⟩ := setReplicaModeNoLock_spec h order a .ERR (by simp)
        obtain ⟨c', ex', ns', he, hm, hsort, hw⟩ := ih hm1.consistent existing noSpace
        have hp : plainOnes ((a, e) :: es) = [a] ++ plainOnes es := by
          rw [plainOnes, List.filter_cons_of_pos (by simp [isPlain, hs, hf])]; rfl
        refine ⟨c', ex', ns', by rw [he1]; exact he, ?_, ⟨fun a' => ?_, fun a' => ?_⟩, hw⟩
        · have := hm1.trans hm
          rwa [setTo_err, markErr_comp, ← hp] at this
        · rw [hsort.existing a', exists_mem_cons]
          tauto
        · have hne : isFull e = false := by simp [isFull, hf]
          rw [hsort.noSpace a', exists_mem_cons, hne]
          simp

/-! ## Out of space -/

/-- The replicas that `p` picks and whose address is in the map. -/
def among (written : AList (fun _ : String => Nat)) (mode : Mode) (l : List Replica) :
    List String :=
  ((l.filter (fun r => r.mode = mode)).filter (fun r => r.address ∈ written)).map
    (fun r => r.address)

theorem mem_among {mode : Mode} : a ∈ among written mode l ↔ ⟨a, mode⟩ ∈ l ∧ a ∈ written := by
  unfold among
  constructor
  · intro h
    obtain ⟨⟨x, m⟩, hx, rfl⟩ := List.mem_map.mp h
    simp only [List.mem_filter, decide_eq_true_eq] at hx
    obtain ⟨⟨hx, rfl⟩, hw⟩ := hx
    exact ⟨hx, hw⟩
  · intro hex
    obtain ⟨hx, hw⟩ := hex
    exact List.mem_map.mpr ⟨⟨a, mode⟩, by simp [List.mem_filter, hx, hw], rfl⟩

section

variable (written : AList (fun _ : String => Nat)) (l : List Replica)

theorem categorize_eq :
    categorizeOutOfSpaceReplicas written l = ((l.filter (fun r => r.mode = .RW)).length,
      gather (written.lookup ·) ((l.filter (fun r => r.mode = .RW)).map (fun r => r.address)),
      among written .WO l) := by
  induction l with
  | nil => rfl
  | cons r l ih =>
    have hmem := mem_iff_lookup written r.address
    cases hm : r.mode <;> cases hw : written.lookup r.address <;>
      simp [categorizeOutOfSpaceReplicas, among, gather, hm, hw, hmem, ih]

theorem rw_categorize (hnd : (l.map (fun r => r.address)).Nodup) :
    (categorizeOutOfSpaceReplicas written l).2.1.keys = among written .RW l := by
  rw [categorize_eq, keys_gather _ ((List.filter_sublist.map _).nodup hnd), List.filter_map, among]
  refine congrArg (List.map _) (List.filter_congr (fun r _ => ?_))
  rw [Bool.eq_iff_iff, Function.comp_apply, AList.lookup_isSome, decide_eq_true_iff]

/-- The two numbers the code compares are equal when every RW replica is out of space. -/
theorem length_rw_categorize (hnd : (l.map (fun r => r.address)).Nodup) :
    (categorizeOutOfSpaceReplicas written l).2.1.keys.length
        = (categorizeOutOfSpaceReplicas written l).1
      ↔ ∀ r ∈ l, r.mode = .RW → r.address ∈ written := by
  rw [rw_categorize written l hnd, categorize_eq, among, List.length_map,
    List.length_filter_eq_length_iff]
  simp only [List.mem_filter, decide_eq_true_eq, and_imp]

end

/-- Who goes to ERR when the replicas in the map are out of space, and whether all RW ones are. -/
def noSpaceMarks (order : MapOrder) (l : List Replica) (noSpace : AList (fun _ : String => Nat)) :
    List String × Bool :=
  if noSpace.keys.length = 0 then ([], false)
  else
    let (count, rw, wo) := categorizeOutOfSpaceReplicas noSpace l
    if rw.keys.length = count then
      (wo ++ if count ≠ 1 then listReplicasToErrOnEnospc order rw else [], true)
    else (wo ++ (entries order rw).map (fun e => e.1), false)

section

variable {c : Controller β} (h : Consistent c) (order : MapOrder)
include h

/-- The handling of the replicas that are out of space sets exactly those to ERR. -/
theorem handleDiskNoSpace_marks (noSpace : AList (fun _ : String => Nat)) :
    ∃ c', c.handleDiskNoSpaceErrorForReplicas order noSpace
        = some (c', (noSpaceMarks order c.replicas noSpace).2)
      ∧ Moded c c' (markErr (noSpaceMarks order c.replicas noSpace).1) := by
  unfold handleDiskNoSpaceErrorForReplicas noSpaceMarks
  by_cases h0 : noSpace.keys.length = 0
  · rw [if_pos h0, if_pos h0]
    exact ⟨c, rfl, Moded.refl h⟩
  · rw [if_neg h0, if_neg h0]
    rcases categorizeOutOfSpaceReplicas noSpace c.replicas with ⟨count, rw, wo⟩
    obtain ⟨c1, he1, h1⟩ := setErr_spec h order wo
    have htwo : ∀ l, ∃ c', setErr order l c1 = some c' ∧ Moded c c' (markErr (wo ++ l)) := by
      intro l
      obtain ⟨c2, he2, h2⟩ := setErr_spec h1.consistent order l
      have h12 := h1.trans h2
      rw [markErr_comp] at h12
      exact ⟨c2, he2, h12⟩
    dsimp only
    rw [he1]
    dsimp only
    by_cases heq : rw.keys.length = count
    · rw [if_pos heq, if_pos heq]
      by_cases hone : count ≠ 1
      · rw [if_pos hone, if_pos hone]
        obtain ⟨c2, he2, h2⟩ := htwo (listReplicasToErrOnEnospc order rw)
        exact ⟨c2, by rw [he2]; rfl, h2⟩
      · rw [if_neg hone, if_neg hone, List.append_nil]
        exact ⟨c1, rfl, h1⟩
    · rw [if_neg heq, if_neg heq]
      obtain ⟨c2, he2, h2⟩ := htwo ((entries order rw).map (fun e => e.1))
      exact ⟨c2, by rw [he2]; rfl, h2⟩

/-- The flag: some replica is out of space, and all RW ones are. -/
theorem noSpaceMarks_all_iff (noSpace : AList (fun _ : String => Nat)) :
    (noSpaceMarks order c.replicas noSpace).2 = true
      ↔ (∃ a, a ∈ noSpace) ∧ ∀ r ∈ c.replicas, r.mode = .RW → r.address ∈ noSpace := by
  have hall := length_rw_categorize noSpace c.replicas h.distinct
  unfold noSpaceMarks
  by_cases h0 : noSpace.keys.length = 0
  · rw [if_pos h0]
    refine ⟨fun hh => absurd hh (by simp), fun ⟨⟨a, ha⟩, _⟩ => ?_⟩
    rw [AList.mem_keys, List.length_eq_zero_iff.mp h0] at ha
    exact absurd ha List.not_mem_nil
  · have hsome : ∃ a, a ∈ noSpace := by
      obtain ⟨a, ha⟩ := List.exists_mem_of_length_pos (Nat.pos_of_ne_zero h0)
      exact ⟨a, AList.mem_keys.mp ha⟩
    rw [if_neg h0, ← hall]
    rcases categorizeOutOfSpaceReplicas noSpace c.replicas with ⟨count, rw, wo⟩
    dsimp only
    by_cases heq : rw.keys.length = count
    · rw [if_pos heq]; exact ⟨fun _ => ⟨hsome, heq⟩, fun _ => rfl⟩
    · rw [if_neg heq]; exact ⟨fun hh => absurd hh (by simp), fun hh => absurd hh.2 heq⟩

variable {noSpace : AList (fun _ : String => Nat)}

/-- Who goes to ERR: the WO replicas out of space, and of the RW ones those that are not kept. -/
theorem mem_noSpaceMarks (a : String) :
    a ∈ (noSpaceMarks order c.replicas noSpace).1 ↔ a ∈ among noSpace .WO c.replicas
      ∨ a ∈ among noSpace .RW c.replicas ∧ ((noSpaceMarks order c.replicas noSpace).2 = true →
        (categorizeOutOfSpaceReplicas noSpace c.replicas).1 ≠ 1
        ∧ a ∉ getRetainedReplicasMap order
          (categorizeOutOfSpaceReplicas noSpace c.replicas).2.1) := by
  have hrw := rw_categorize noSpace c.replicas h.distinct
  have hwo : (categorizeOutOfSpaceReplicas noSpace c.replicas).2.2 = among noSpace .WO c.replicas := by
    rw [categorize_eq]
  have hkeys : ∀ m : AList (fun _ : String => Nat), ∀ x,
      x ∈ (entries order m).map (fun e => e.1) ↔ x ∈ m.keys := by
    intro m x
    rw [← AList.mem_keys, mem_iff_lookup]
    simp
  unfold noSpaceMarks
  by_cases h0 : noSpace.keys.length = 0
  · have hnone : ∀ m, a ∉ among noSpace m c.replicas := fun m ha => by
      have hin := (mem_among.mp ha).2
      rw [AList.mem_keys, List.length_eq_zero_iff.mp h0] at hin
      exact absurd hin List.not_mem_nil
    rw [if_pos h0]
    exact ⟨fun hh => absurd hh List.not_mem_nil,
      fun hh => (hh.elim (fun h => absurd h (hnone _)) (fun h => absurd h.1 (hnone _)))⟩
  · rw [if_neg h0]
    rw [← hwo, ← hrw]
    rcases categorizeOutOfSpaceReplicas noSpace c.replicas with ⟨count, rw, wo⟩
    dsimp only
    by_cases heq : rw.keys.length = count
    · rw [if_pos heq, List.mem_append]
      by_cases hone : count ≠ 1
      · rw [if_pos hone, listReplicasToErrOnEnospc, List.mem_filter, hkeys]
        simp [hone]
      · rw [if_neg hone]
        simp [hone]
    · rw [if_neg heq, List.mem_append, hkeys]
      simp

theorem mem_of_noSpaceMarks (ha : a ∈ (noSpaceMarks order c.replicas noSpace).1) : a ∈ noSpace := by
  rcases (mem_noSpaceMarks h order a).mp ha with ha | ⟨ha, -⟩
  · exact (mem_among.mp ha).2
  · exact (mem_among.mp ha).2

end

/-! ## The whole error -/

theorem mem_map_markErr {s : List String} {m : Mode}
    (hm : m ≠ .ERR) : ⟨a, m⟩ ∈ l.map (markErr s) ↔ ⟨a, m⟩ ∈ l ∧ a ∉ s := by
  constructor
  · intro h
    obtain ⟨r, hr, he⟩ := List.mem_map.mp h
    unfold markErr at he
    by_cases hs : r.address ∈ s
    · rw [if_pos hs] at he
      exact absurd (Replica.mk.inj he).2.symm hm
    · rw [if_neg hs] at he
      subst he
      exact ⟨hr, hs⟩
  · intro hex
    obtain ⟨h, hs⟩ := hex
    exact List.mem_map.mpr ⟨_, h, if_neg hs⟩

/-- Who goes to ERR for a backend error. -/
structure Demotes (c : Controller β) (e : BackendError) (marked : List String) : Prop where
  sub : ∀ a ∈ marked, a ∈ e.errors
  plain : ∀ a x, e.errors.lookup a = some x → isPlain x = true → a ∈ marked
  /-- A replica that is out of space goes to ERR if some RW replica did not fail. -/
  full : ∀ a x, e.errors.lookup a = some x → isFull x = true → ⟨a, .RW⟩ ∈ c.replicas →
    (∃ r ∈ c.replicas, r.mode = .RW ∧ r.address ∉ e.errors) → a ∈ marked

/-- Who goes to ERR for a backend error, and what is returned. -/
structure Handled (c : Controller β) (e : BackendError) (marked : List String)
    (err : Option IOErr) : Prop extends Demotes c e marked where
  /-- The error is dropped when some RW replica did not fail. -/
  dropped_iff : err = none ↔ (∀ a x, e.errors.lookup a = some x → isSnapshotDiskExist x = false)
    ∧ ∃ r ∈ c.replicas, r.mode = .RW ∧ r.address ∉ e.errors

theorem isPlain_or_isFull (h : isSnapshotDiskExist x = false) :
    isPlain x = true ∨ isFull x = true := by
  unfold isPlain isFull
  rw [h]
  cases isNoSpace x
  · exact Or.inl rfl
  · exact Or.inr rfl

/-- What the loop over the errors of `e` leaves: three kinds of addresses, one of them in ERR. -/
structure Sifted (c c' : Controller β) (e : BackendError) (existing : Finset String)
    (noSpace : AList (fun _ : String => Nat)) (plain : List String) : Prop where
  moded : Moded c c' (markErr plain)
  plain_iff : ∀ a, a ∈ plain ↔ ∃ x, e.errors.lookup a = some x ∧ isPlain x = true
  existing_iff : ∀ a, a ∈ existing ↔ ∃ x, e.errors.lookup a = some x ∧ isSnapshotDiskExist x = true
  noSpace_iff : ∀ a, a ∈ noSpace ↔ ∃ x, e.errors.lookup a = some x ∧ isFull x = true

theorem errorLoop_sifted (h : Consistent c) (order : MapOrder) (e : BackendError) :
    ∃ c' existing noSpace plain,
      errorLoop order e.writtenBytes (entries order e.errors) c ∅ ∅ = some (c', existing, noSpace)
        ∧ Sifted c c' e existing noSpace plain
        ∧ ∀ a w, noSpace.lookup a = some w → w = (e.writtenBytes.lookup a).getD 0 := by
  obtain ⟨c', existing, noSpace, he, hm, ⟨hex, hns⟩, hw⟩ := errorLoop_spec h order e.writtenBytes
    (entries order e.errors) ∅ ∅
  simp only [mem_entries, Finset.notMem_empty, false_or] at hex
  simp only [mem_entries, AList.notMem_empty, false_or] at hns
  refine ⟨c', existing, noSpace, _, he, ⟨hm, fun a => ?_, hex, hns⟩,
    fun a w hl => (hw a w hl).resolve_left (by simp)⟩
  rw [mem_plainOnes]
  simp only [mem_entries]

namespace Sifted

variable {c c' : Controller β} {e : BackendError} {existing : Finset String}
  {noSpace : AList (fun _ : String => Nat)} {plain : List String}

section

variable (h : Sifted c c' e existing noSpace plain)
include h

theorem mem_of_plain (ha : a ∈ plain) :
    a ∈ e.errors := by
  obtain ⟨x, hx, _⟩ := (h.plain_iff a).mp ha
  exact (mem_iff_lookup _ _).mpr ⟨x, hx⟩

theorem mem_of_noSpace (ha : a ∈ noSpace) : a ∈ e.errors := by
  obtain ⟨x, hx, _⟩ := (h.noSpace_iff a).mp ha
  exact (mem_iff_lookup _ _).mpr ⟨x, hx⟩

theorem rw_iff (a : String) :
    ⟨a, .RW⟩ ∈ c'.replicas ↔ ⟨a, .RW⟩ ∈ c.replicas ∧ a ∉ plain := by
  rw [h.moded.replicas]
  exact mem_map_markErr (by simp)

theorem existing_empty_iff :
    existing = ∅ ↔ ∀ a x, e.errors.lookup a = some x → isSnapshotDiskExist x = false := by
  rw [Finset.eq_empty_iff_forall_notMem]
  constructor
  · intro hh a x hx
    exact Bool.eq_false_iff.mpr (fun ht => hh a ((h.existing_iff a).mpr ⟨x, hx, ht⟩))
  · intro hh a ha
    obtain ⟨x, hx, ht⟩ := (h.existing_iff a).mp ha
    rw [hh a x hx] at ht
    exact absurd ht Bool.false_ne_true

/-- If some RW replica did not fail, not all RW replicas are out of space. -/
theorem not_all (order : MapOrder)
    (hr : ∃ r ∈ c.replicas, r.mode = .RW ∧ r.address ∉ e.errors) :
    (noSpaceMarks order c'.replicas noSpace).2 ≠ true := by
  rw [ne_eq, noSpaceMarks_all_iff h.moded.consistent]
  rintro ⟨-, hall⟩
  obtain ⟨r, hr, hm, hout⟩ := hr
  have hr' := (h.rw_iff _).mpr ⟨hm ▸ hr, fun hh => hout (h.mem_of_plain hh)⟩
  exact hout (h.mem_of_noSpace (hall ⟨r.address, .RW⟩ hr' rfl))

theorem mem_of_marked {order : MapOrder}
    (ha : a ∈ plain ++ (noSpaceMarks order c'.replicas noSpace).1) : a ∈ e.errors := by
  rcases List.mem_append.mp ha with ha | ha
  · exact h.mem_of_plain ha
  · exact h.mem_of_noSpace (mem_of_noSpaceMarks h.moded.consistent order ha)

section

variable {order : MapOrder} (hfalse : (noSpaceMarks order c'.replicas noSpace).2 ≠ true)
include hfalse

/-- Then a replica that is out of space goes to ERR. -/
theorem full_marked (hx : e.errors.lookup a = some x) (hf : isFull x = true)
    (hr : ⟨a, .RW⟩ ∈ c.replicas) :
    a ∈ plain ++ (noSpaceMarks order c'.replicas noSpace).1 := by
  rw [List.mem_append]
  by_cases hp : a ∈ plain
  · exact Or.inl hp
  · exact Or.inr ((mem_noSpaceMarks h.moded.consistent order a).mpr (Or.inr ⟨mem_among.mpr
      ⟨(h.rw_iff a).mpr ⟨hr, hp⟩, (h.noSpace_iff a).mpr ⟨x, hx, hf⟩⟩, fun ht => absurd ht hfalse⟩))

/-- The RW replicas that are left are those that did not fail. -/
theorem rw_left_iff (hno : ∀ a x, e.errors.lookup a = some x → isSnapshotDiskExist x = false)
    (a : String) :
    ⟨a, .RW⟩ ∈ c.replicas.map (markErr (plain ++ (noSpaceMarks order c'.replicas noSpace).1))
      ↔ ⟨a, .RW⟩ ∈ c.replicas ∧ a ∉ e.errors := by
  rw [mem_map_markErr (by simp)]
  refine and_congr_right (fun hr => ⟨fun hout hin => ?_, fun hout hin => hout (h.mem_of_marked hin)⟩)
  obtain ⟨x, hx⟩ := (mem_iff_lookup _ _).mp hin
  rcases isPlain_or_isFull (hno a x hx) with hp | hf
  · exact hout (List.mem_append_left _ ((h.plain_iff a).mpr ⟨x, hx, hp⟩))
  · exact hout (h.full_marked hfalse hx hf hr)

end

end

end Sifted

section

variable {c : Controller β} (h : Consistent c) (order : MapOrder) (e : BackendError)
  (hne : ∃ a, a ∈ e.errors)
include h hne

/-- **What handling a backend error does**: the loop, and then the replicas out of space. -/
theorem handleErrorNoLock_sifted :
    ∃ c₁ c₂ existing noSpace plain, Sifted c c₁ e existing noSpace plain
      ∧ (∀ a w, noSpace.lookup a = some w → w = (e.writtenBytes.lookup a).getD 0)
      ∧ Moded c₁ c₂ (markErr (noSpaceMarks order c₁.replicas noSpace).1)
      ∧ Moded c c₂ (markErr (plain ++ (noSpaceMarks order c₁.replicas noSpace).1))
      ∧ c.handleErrorNoLock order (some (.backend e))
        = some (c₂, if (noSpaceMarks order c₁.replicas noSpace).2 = true
          then some .noSpaceLeftOnDevice
          else if existing = ∅ ∧ ∃ r ∈ c₂.replicas, r.mode = .RW then none
          else some (.backend e)) := by
  have hpos : 0 < e.errors.keys.length := by
    obtain ⟨a, ha⟩ := hne
    exact List.length_pos_of_mem (AList.mem_keys.mp ha)
  obtain ⟨c₁, existing, noSpace, plain, he₁, h₁, hw⟩ := errorLoop_sifted h order e
  obtain ⟨c₂, he₂, h₂⟩ := handleDiskNoSpace_marks h₁.moded.consistent order noSpace
  have h12 := h₁.moded.trans h₂
  rw [markErr_comp] at h12
  refine ⟨c₁, c₂, existing, noSpace, plain, h₁, hw, h₂, h12, ?_⟩
  rw [handleErrorNoLock, if_pos hpos, he₁]
  dsimp only
  rw [he₂]
  cases (noSpaceMarks order c₁.replicas noSpace).2 with
  | true => rfl
  | false =>
    rw [if_neg Bool.false_ne_true]
    dsimp only
    split <;> rfl

/-- **Handling a backend error**: it panics at no consistent controller, and does as `Handled`. -/
theorem handleErrorNoLock_spec :
    ∃ c' err marked, c.handleErrorNoLock order (some (.backend e)) = some (c', err)
      ∧ Moded c c' (markErr marked) ∧ Handled c e marked err := by
  obtain ⟨c₁, c₂, existing, noSpace, plain, h₁, -, -, h12, hres⟩ :=
    handleErrorNoLock_sifted h order e hne
  have hlive := fun hout => h₁.not_all order hout
  refine ⟨c₂, _, _, hres, h12, ⟨fun a ha => h₁.mem_of_marked ha,
    fun a x hx hp => List.mem_append_left _ ((h₁.plain_iff a).mpr ⟨x, hx, hp⟩),
    fun a x hx hf hr hout => h₁.full_marked (hlive hout) hx hf hr⟩, ?_⟩
  by_cases hall : (noSpaceMarks order c₁.replicas noSpace).2 = true
  · rw [if_pos hall]
    exact iff_of_false (by simp) (fun hh => hlive hh.2 hall)
  · rw [if_neg hall, ite_eq_left_iff, ← h₁.existing_empty_iff, h12.replicas]
    simp only [reduceCtorEq, imp_false, not_not]
    refine and_congr_right (fun hempty => ?_)
    have hleft := h₁.rw_left_iff hall (h₁.existing_empty_iff.mp hempty)
    constructor
    · intro hex
      obtain ⟨⟨a, m⟩, hr, rfl⟩ := hex
      obtain ⟨hr, hout⟩ := (hleft a).mp hr
      exact ⟨_, hr, rfl, hout⟩
    · intro hex
      obtain ⟨⟨a, m⟩, hr, rfl, hout⟩ := hex
      exact ⟨_, (hleft a).mpr ⟨hr, hout⟩, rfl⟩

end

/-- An error that is not a backend error, or names no backend, changes nothing. -/
theorem handleErrorNoLock_other (order : MapOrder) {err : Option IOErr}
    (h : ∀ e, err = some (.backend e) → ∀ a, a ∉ e.errors) :
    c.handleErrorNoLock order err = some (c, err) := by
  unfold handleErrorNoLock
  split
  · rename_i e
    rw [if_neg]
    intro hpos
    obtain ⟨a, ha⟩ := List.exists_mem_of_length_pos hpos
    exact h e rfl a (AList.mem_keys.mp ha)
  · rfl

/-! ## Which of the replicas out of space are kept -/

/-- Grouping by written bytes: who is in a group, and which groups there are. -/
theorem writtenBytes_foldl (es : List (String × Nat))
    (groups : AList (fun _ : Nat => Finset String))
    (n : Nat) :
    (∀ a, a ∈ ((es.foldl (fun groups e =>
          groups.insert e.2 (insert e.1 ((groups.lookup e.2).getD ∅))) groups).lookup n).getD ∅
        ↔ (a, n) ∈ es ∨ a ∈ (groups.lookup n).getD ∅)
      ∧ (n ∈ es.foldl (fun groups e =>
          groups.insert e.2 (insert e.1 ((groups.lookup e.2).getD ∅))) groups
        ↔ (∃ a, (a, n) ∈ es) ∨ n ∈ groups) := by
  induction es generalizing groups with
  | nil => simp
  | cons e es ih =>
    obtain ⟨a, w⟩ := e
    obtain ⟨hmem, hkeys⟩ := ih (groups.insert w (insert a ((groups.lookup w).getD ∅)))
    rw [List.foldl_cons]
    refine ⟨fun x => ?_, ?_⟩
    · rw [hmem, lookup_insert_eq, List.mem_cons]
      by_cases hn : n = w
      · subst hn
        rw [if_pos rfl, Option.getD_some, Finset.mem_insert, Prod.mk.injEq]
        simp only [and_true]
        tauto
      · rw [if_neg hn, Prod.mk.injEq]
        simp only [hn, and_false, false_or]
    · rw [hkeys, AList.mem_insert]
      simp only [List.mem_cons, Prod.mk.injEq]
      constructor
      · intro h
        rcases h with ⟨x, hx⟩ | rfl | h
        · exact Or.inl ⟨x, Or.inr hx⟩
        · exact Or.inl ⟨a, Or.inl ⟨rfl, rfl⟩⟩
        · exact Or.inr h
      · intro h
        rcases h with ⟨x, ⟨-, rfl⟩ | hx⟩ | h
        · exact Or.inr (Or.inl rfl)
        · exact Or.inl ⟨x, hx⟩
        · exact Or.inr (Or.inr h)

section

variable (order : MapOrder) (written : AList (fun _ : String => Nat)) (n : Nat)

theorem mem_writtenBytesReplicasMap (a : String) :
    a ∈ ((writtenBytesReplicasMap order written).lookup n).getD ∅ ↔ written.lookup a = some n := by
  rw [writtenBytesReplicasMap, (writtenBytes_foldl _ ∅ n).1]
  simp

theorem group_writtenBytesReplicasMap :
    n ∈ writtenBytesReplicasMap order written ↔ ∃ a, written.lookup a = some n := by
  rw [writtenBytesReplicasMap, (writtenBytes_foldl _ ∅ n).2]
  simp

end

/-- The search for the largest groups finds some, if there are any. -/
theorem maxReplicasNum_foldl {es : List (Nat × Finset String)} (hpos : ∀ e ∈ es, 0 < e.2.card)
    {best : Nat × List Nat} (hbest : best.1 = 0 ∨ best.2 ≠ []) :
    (es ≠ [] ∨ best.2 ≠ [] → (es.foldl maxReplicasNum best).2 ≠ [])
      ∧ ∀ n ∈ (es.foldl maxReplicasNum best).2, n ∈ best.2 ∨ ∃ s, (n, s) ∈ es := by
  induction es generalizing best with
  | nil => simp
  | cons e es ih =>
    -- one group is enough for the search to have found some
    have hstep : (maxReplicasNum best e).2 ≠ []
        ∧ ∀ n ∈ (maxReplicasNum best e).2, n ∈ best.2 ∨ n = e.1 := by
      rw [maxReplicasNum]
      split
      · simp
      · split
        · simp
        · refine ⟨hbest.resolve_left (by omega), fun n hn => Or.inl hn⟩
    obtain ⟨hne, hmem⟩ := ih (fun x hx => hpos x (List.mem_cons_of_mem _ hx)) (Or.inr hstep.1)
    refine ⟨fun _ => hne (Or.inr hstep.1), fun n hn => ?_⟩
    rcases hmem n hn with hn | ⟨s, hs⟩
    · rcases hstep.2 n hn with hn | rfl
      · exact Or.inl hn
      · exact Or.inr ⟨e.2, List.mem_cons_self⟩
    · exact Or.inr ⟨s, List.mem_cons_of_mem _ hs⟩

theorem maxWrittenBytes_mem {l : List Nat} (h : l ≠ []) : ∃ m ∈ l, maxWrittenBytes l = some m := by
  induction l using List.reverseRecOn with
  | nil => exact absurd rfl h
  | append_singleton l wb ih =>
    rw [maxWrittenBytes, List.foldl_append, ← maxWrittenBytes, List.foldl_cons, List.foldl_nil]
    have hlast : wb ∈ l ++ [wb] := List.mem_append_right _ List.mem_cons_self
    by_cases hl : l = []
    · subst hl
      exact ⟨wb, hlast, rfl⟩
    · obtain ⟨m, hm, he⟩ := ih hl
      rw [he]
      dsimp only
      split
      · exact ⟨wb, hlast, rfl⟩
      · exact ⟨m, List.mem_append_left _ hm, rfl⟩

/-- **What is kept**: all that have written one number of bytes, which some have. -/
theorem mem_getRetainedReplicasMap (order : MapOrder) (hne : ∃ a, a ∈ written) :
    ∃ n, (∃ a, written.lookup a = some n)
      ∧ ∀ a, a ∈ getRetainedReplicasMap order written ↔ written.lookup a = some n := by
  obtain ⟨a, ha⟩ := hne
  obtain ⟨w, hw⟩ := (mem_iff_lookup _ _).mp ha
  have hpos : ∀ e ∈ entries order (writtenBytesReplicasMap order written), 0 < e.2.card := by
    intro e he
    have hlookup := mem_entries.mp he
    obtain ⟨x, hx⟩ := (group_writtenBytesReplicasMap order written e.1).mp
      ((mem_iff_lookup _ _).mpr ⟨_, hlookup⟩)
    have hin := (mem_writtenBytesReplicasMap order written e.1 x).mpr hx
    rw [hlookup, Option.getD_some] at hin
    exact Finset.card_pos.mpr ⟨x, hin⟩
  have hsome : entries order (writtenBytesReplicasMap order written) ≠ [] := by
    obtain ⟨s, hs⟩ := (mem_iff_lookup _ _).mp
      ((group_writtenBytesReplicasMap order written w).mpr ⟨a, hw⟩)
    exact List.ne_nil_of_mem (mem_entries.mpr hs)
  obtain ⟨hfound, hgroups⟩ := maxReplicasNum_foldl hpos (Or.inl rfl : (0, ([] : List Nat)).1 = 0 ∨ _)
  obtain ⟨n, hmem, hn⟩ := maxWrittenBytes_mem (hfound (Or.inl hsome))
  obtain ⟨s, hs⟩ := (hgroups n hmem).resolve_left (by simp)
  refine ⟨n, (group_writtenBytesReplicasMap order written n).mp
    ((mem_iff_lookup _ _).mpr ⟨s, mem_entries.mp hs⟩), fun x => ?_⟩
  rw [← mem_writtenBytesReplicasMap order written, getRetainedReplicasMap, hn]

/-! ## Errors that say nothing of written bytes -/

/--
Who goes to ERR for errors that say nothing of written bytes: a replica with a plain
error, and one that is out of space if it is WO or some RW replica has no error that
would count against it.
-/
def Demoted (c : Controller β) (errs : String → Option Err) (a : String) : Prop :=
  ∃ x, errs a = some x ∧ (isPlain x = true ∨ isFull x = true ∧ (⟨a, .WO⟩ ∈ c.replicas
    ∨ ∃ r ∈ c.replicas, r.mode = .RW ∧ ∀ y, errs r.address = some y → isSnapshotDiskExist y = true))

theorem isFull_of_isPlain (h : isPlain x = true) : isFull x = false := by
  unfold isPlain at h
  unfold isFull
  cases hn : isNoSpace x with
  | false => exact Bool.and_false _
  | true => rw [hn] at h; exact absurd h (by simp)

theorem isSnapshotDiskExist_of_not (hp : isPlain x ≠ true) (hf : isFull x ≠ true) :
    isSnapshotDiskExist x = true := by
  by_contra hno
  rcases isPlain_or_isFull (Bool.eq_false_of_not_eq_true hno) with h | h
  · exact hp h
  · exact hf h

theorem lookup_rw_categorize {w : Nat}
    (h : (categorizeOutOfSpaceReplicas written l).2.1.lookup a = some w) :
    written.lookup a = some w := by
  rw [categorize_eq, lookup_gather] at h
  exact (Option.ite_none_right_eq_some.mp h).2

/-- **Errors without written bytes send exactly the `Demoted` replicas to ERR.** -/
theorem handleErrorNoLock_demoted (h : Consistent c) (order : MapOrder)
    {errors : AList (fun _ : String => Err)} (hne : ∃ a, a ∈ errors) :
    ∃ c' err marked, c.handleErrorNoLock order (some (.backend ⟨errors, ∅⟩)) = some (c', err)
      ∧ Moded c c' (markErr marked) ∧ ∀ r ∈ c.replicas, r.mode ≠ .ERR →
        (r.address ∈ marked ↔ Demoted c (errors.lookup ·) r.address) := by
  obtain ⟨c1, c2, existing, noSpace, plain, h1, hzero, -, h12, hres⟩ :=
    handleErrorNoLock_sifted h order ⟨errors, ∅⟩ hne
  refine ⟨c2, _, _, hres, h12, fun r hr hm => ?_⟩
  -- the RW replicas after the loop are those without a plain error
  have hone : ∀ {a m}, m ≠ .ERR → (⟨a, m⟩ ∈ c1.replicas ↔ ⟨a, m⟩ ∈ c.replicas ∧ a ∉ plain) := by
    intro a m hm
    rw [h1.moded.replicas]
    exact mem_map_markErr hm
  have hall : (noSpaceMarks order c1.replicas noSpace).2 = true ↔ (∃ a, a ∈ noSpace)
      ∧ ∀ s ∈ c1.replicas, s.mode = .RW → s.address ∈ noSpace :=
    noSpaceMarks_all_iff h1.moded.consistent order noSpace
  rw [List.mem_append, mem_noSpaceMarks h1.moded.consistent]
  obtain ⟨a, m⟩ := r
  -- when all are out of space, all have written the same, and none is demoted
  have hkept : a ∈ among noSpace .RW c1.replicas →
      a ∈ getRetainedReplicasMap order (categorizeOutOfSpaceReplicas noSpace c1.replicas).2.1 := by
    intro ha
    have hin : a ∈ (categorizeOutOfSpaceReplicas noSpace c1.replicas).2.1 := by
      rw [AList.mem_keys, rw_categorize noSpace c1.replicas h1.moded.consistent.distinct]
      exact ha
    obtain ⟨n, ⟨x, hx⟩, hkept⟩ := mem_getRetainedReplicasMap order ⟨a, hin⟩
    obtain ⟨w, hw⟩ := (mem_iff_lookup _ _).mp hin
    have hwritten : ∀ y v, (categorizeOutOfSpaceReplicas noSpace c1.replicas).2.1.lookup y = some v →
        v = 0 := fun y v hv => hzero y v (lookup_rw_categorize hv)
    rw [hkept, hw, hwritten a w hw, hwritten x n hx]
  constructor
  · intro hor
    rcases hor with hp | hwo | ⟨hrw, hall'⟩
    · obtain ⟨x, hx, hp⟩ := (h1.plain_iff a).mp hp
      exact ⟨x, hx, Or.inl hp⟩
    · obtain ⟨hin, hns⟩ := mem_among.mp hwo
      obtain ⟨x, hx, hf⟩ := (h1.noSpace_iff a).mp hns
      exact ⟨x, hx, Or.inr ⟨hf, Or.inl ((hone (by simp)).mp hin).1⟩⟩
    · obtain ⟨hin, hns⟩ := mem_among.mp hrw
      obtain ⟨x, hx, hf⟩ := (h1.noSpace_iff a).mp hns
      refine ⟨x, hx, Or.inr ⟨hf, Or.inr ?_⟩⟩
      have hnot : ¬ ∀ s ∈ c1.replicas, s.mode = .RW → s.address ∈ noSpace := fun hh =>
        (hall' (hall.mpr ⟨⟨a, hns⟩, hh⟩)).2 (hkept hrw)
      push Not at hnot
      obtain ⟨⟨s, ms⟩, hs, hms, hout⟩ := hnot
      subst hms
      obtain ⟨hsc, hsp⟩ := (hone (by simp)).mp hs
      refine ⟨_, hsc, rfl, fun y hy => isSnapshotDiskExist_of_not (fun hp => ?_) (fun hf => ?_)⟩
      · exact hsp ((h1.plain_iff s).mpr ⟨y, hy, hp⟩)
      · exact hout ((h1.noSpace_iff s).mpr ⟨y, hy, hf⟩)
  · intro hdem
    obtain ⟨x, hx, hp | ⟨hf, hor⟩⟩ := hdem
    · exact Or.inl ((h1.plain_iff a).mpr ⟨x, hx, hp⟩)
    · have hns : a ∈ noSpace := (h1.noSpace_iff a).mpr ⟨x, hx, hf⟩
      have hnp : a ∉ plain := by
        intro hin
        obtain ⟨y, hy, hp⟩ := (h1.plain_iff a).mp hin
        rw [Option.some.inj (hx.symm.trans hy), isFull_of_isPlain hp] at hf
        simp at hf
      refine Or.inr ?_
      cases m with
      | ERR => exact absurd rfl hm
      | WO => exact Or.inl (mem_among.mpr ⟨(hone (by simp)).mpr ⟨hr, hnp⟩, hns⟩)
      | RW =>
        refine Or.inr ⟨mem_among.mpr ⟨(hone (by simp)).mpr ⟨hr, hnp⟩, hns⟩, fun htrue => ?_⟩
        exfalso
        rcases hor with hwo | ⟨⟨s, ms⟩, hs, hms, hex⟩
        · exact absurd (h.eq_of_address hr hwo rfl) (by simp)
        · dsimp only at hms hex
          subst hms
          -- a replica that keeps all from being out of space
          have hsp : s ∉ plain := fun hin => by
            obtain ⟨y, hy, hp⟩ := (h1.plain_iff s).mp hin
            have hy' := hex y hy
            simp [isPlain, hy'] at hp
          have hsn := (hall.mp htrue).2 _ ((hone (by simp)).mpr ⟨hs, hsp⟩) rfl
          obtain ⟨y, hy, hf⟩ := (h1.noSpace_iff s).mp hsn
          have hy' := hex y hy
          simp [isFull, hy'] at hf

end Controller

end WeftBlock
