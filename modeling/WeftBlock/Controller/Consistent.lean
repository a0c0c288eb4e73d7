import WeftBlock.Controller.Start

/-!
# One list, one map

The controller keeps its replicas in a list and the replicator keeps the backends
in a map; modes are stored in both, and the lists of the data path are derived
from the map. `Consistent` says that the two tell the same story. This module
proves what each elementary operation does to a consistent controller: setting a
mode (`Moded`), removing a replica, adding one. None of them panics, and none
takes a replica out of ERR.
-/

namespace WeftBlock

open DataConn Maps

variable {index : AList (fun _ : Nat => String)} {address : String}

namespace Replicator

variable {β : Type}

/-- The backends that are asked. -/
def asked (l : List (String × BackendWrapper β)) : List (String × BackendWrapper β) :=
  l.filter (fun e => e.2.mode ≠ .ERR)

theorem asked_cons (a : String) (b : BackendWrapper β) (l : List (String × BackendWrapper β)) :
    asked ((a, b) :: l) = if b.mode = .ERR then asked l else (a, b) :: asked l := by
  by_cases hm : b.mode = .ERR
  · rw [if_pos hm, asked, List.filter_cons_of_neg (by simp [hm]), asked]
  · rw [if_neg hm, asked, List.filter_cons_of_pos (by simp [hm]), asked]

end Replicator

namespace Controller

variable {β : Type}

/-- The replicas and the backends belong together. -/
structure Consistent (c : Controller β) : Prop where
  distinct : (c.replicas.map (fun r => r.address)).Nodup
  /-- The same addresses, with the same modes. -/
  modes : ∀ a m, ⟨a, m⟩ ∈ c.replicas ↔ ∃ b, c.backend.backends.lookup a = some ⟨b, m⟩
  oneWO : ∀ r ∈ c.replicas, ∀ s ∈ c.replicas, r.mode = .WO → s.mode = .WO → r = s
  nil_err : ∀ a m, c.backend.backends.lookup a = some ⟨none, m⟩ → m = .ERR
  built : ∃ es, c.backend.Built es

/-- The connection to the replica at an address. -/
def handle (c : Controller β) (a : String) : Option β :=
  (c.backend.backends.lookup a).bind (fun b => b.backend)

variable {c : Controller β}

theorem consistent_fresh (h : c.Fresh) : Consistent c where
  distinct := by rw [h.replicas]; exact List.nodup_nil
  modes a m := by rw [h.replicas, h.backend]; simp [Replicator.zero]
  oneWO r hr := by rw [h.replicas] at hr; exact absurd hr List.not_mem_nil
  nil_err a m hm := by rw [h.backend] at hm; exact absurd hm (by simp [Replicator.zero])
  built := by rw [h.backend]; exact ⟨[], Replicator.built_zero⟩

variable {r : Replica} {keep : Mode → Prop} {ts : List (String × β)}

/-- A replica that is not in error has a connection. -/
theorem Consistent.connected (h : Consistent c) (hr : r ∈ c.replicas) (hm : r.mode ≠ .ERR) :
    ∃ b, c.backend.backends.lookup r.address = some ⟨some b, r.mode⟩ := by
  obtain ⟨b, hb⟩ := (h.modes r.address r.mode).mp hr
  cases b with
  | none => exact absurd (h.nil_err _ _ hb) hm
  | some b => exact ⟨b, hb⟩

theorem Consistent.eq_of_address (h : Consistent c) {r s : Replica}
    (hr : r ∈ c.replicas) (hs : s ∈ c.replicas) (ha : r.address = s.address) : r = s :=
  List.inj_on_of_nodup_map h.distinct hr hs ha

theorem hasReplica_iff (c : Controller β) (address : String) :
    c.hasReplica address = true ↔ ∃ m, ⟨address, m⟩ ∈ c.replicas := by
  rw [hasReplica, List.any_eq_true]
  constructor
  · intro hex
    obtain ⟨r, hr, ha⟩ := hex
    exact ⟨r.mode, of_decide_eq_true ha ▸ hr⟩
  · intro hex
    obtain ⟨m, hm⟩ := hex
    exact ⟨_, hm, decide_eq_true rfl⟩

theorem hasWOReplica_iff (c : Controller β) :
    c.hasWOReplica = true ↔ ∃ r ∈ c.replicas, r.mode = .WO := by
  rw [hasWOReplica, List.any_eq_true]
  simp only [decide_eq_true_eq]

/-- The backend map has exactly the addresses of the replicas. -/
theorem Consistent.mem_backends (h : Consistent c) (a : String) :
    a ∈ c.backend.backends ↔ ∃ m, ⟨a, m⟩ ∈ c.replicas := by
  rw [mem_iff_lookup]
  constructor
  · intro hex
    obtain ⟨⟨b, m⟩, hb⟩ := hex
    exact ⟨m, (h.modes a m).mpr ⟨b, hb⟩⟩
  · intro hex
    obtain ⟨m, hm⟩ := hex
    obtain ⟨b, hb⟩ := (h.modes a m).mp hm
    exact ⟨_, hb⟩

/-- One address gets another entry, or loses it, in the list and in the map. -/
theorem Consistent.edit (h : Consistent c) (order : MapOrder) {replicas : List Replica}
    {backends : AList (fun _ : String => BackendWrapper β)} (v : Option (BackendWrapper β))
    (hlookup : ∀ a, backends.lookup a = if a = address then v else c.backend.backends.lookup a)
    (hdistinct : (replicas.map (fun r => r.address)).Nodup)
    (hother : ∀ r : Replica, r.address ≠ address → (r ∈ replicas ↔ r ∈ c.replicas))
    (hat : ∀ m, ⟨address, m⟩ ∈ replicas ↔ ∃ b, v = some ⟨b, m⟩)
    (hwo : ∀ r ∈ replicas, ∀ s ∈ replicas, r.mode = .WO → s.mode = .WO → r = s)
    (hnil : ∀ m, v = some ⟨none, m⟩ → m = .ERR) :
    Consistent { c with
      replicas := replicas
      backend := Replicator.buildReaderWriterUnmappers order
        { c.backend with backends := backends } } := by
  refine ⟨hdistinct, fun a m => ?_, hwo, fun a m hl => ?_, ⟨_, Replicator.built_build order _⟩⟩
  · show ⟨a, m⟩ ∈ replicas ↔ _
    rw [Replicator.backends_build]
    dsimp only
    rw [hlookup]
    by_cases ha : a = address
    · rw [if_pos ha, ha]
      exact hat m
    · rw [if_neg ha, ← h.modes a m]
      exact hother ⟨a, m⟩ ha
  · rw [Replicator.backends_build] at hl
    dsimp only at hl
    rw [hlookup] at hl
    by_cases ha : a = address
    · rw [if_pos ha] at hl
      exact hnil m hl
    · rw [if_neg ha] at hl
      exact h.nil_err a m hl

/-! ## Setting a mode -/

/-- What setting a mode does to a replica: a replica in error stays as it is. -/
def setTo (address : String) (mode : Mode) (r : Replica) : Replica :=
  if r.address = address ∧ r.mode ≠ .ERR then { r with mode := mode } else r

/-- Setting all addresses of a list to ERR. -/
def markErr (l : List String) (r : Replica) : Replica :=
  if r.address ∈ l then { r with mode := .ERR } else r

@[simp] theorem address_setTo (address : String) (mode : Mode) (r : Replica) :
    (setTo address mode r).address = r.address := by
  unfold setTo; split <;> rfl

@[simp] theorem address_markErr (l : List String) (r : Replica) :
    (markErr l r).address = r.address := by
  unfold markErr; split <;> rfl

theorem map_address {f : Replica → Replica} (hf : ∀ r, (f r).address = r.address)
    (l : List Replica) : (l.map f).map (fun r => r.address) = l.map (fun r => r.address) := by
  rw [List.map_map]
  exact List.map_congr_left (fun r _ => hf r)

theorem setTo_err (address : String) : setTo address .ERR = markErr [address] := by
  funext r
  unfold setTo markErr
  by_cases ha : r.address = address
  · by_cases hm : r.mode = .ERR
    · rw [if_neg (fun h => h.2 hm), if_pos (by rw [ha]; exact List.mem_singleton_self _), ← hm]
    · rw [if_pos ⟨ha, hm⟩, if_pos (by rw [ha]; exact List.mem_singleton_self _)]
  · rw [if_neg (fun h => ha h.1), if_neg (fun h => ha (List.mem_singleton.mp h))]

theorem markErr_comp (l l' : List String) : markErr l' ∘ markErr l = markErr (l ++ l') := by
  funext r
  show markErr l' (markErr l r) = _
  unfold markErr
  by_cases h : r.address ∈ l
  · rw [if_pos h, if_pos (List.mem_append_left _ h)]
    split <;> rfl
  · rw [if_neg h]
    by_cases h' : r.address ∈ l'
    · rw [if_pos h', if_pos (List.mem_append_right _ h')]
    · rw [if_neg h', if_neg (fun hh => (List.mem_append.mp hh).elim h h')]

/-- The modes have changed by `f`, and nothing else that matters. -/
structure Moded (c c' : Controller β) (f : Replica → Replica) : Prop where
  consistent : Consistent c'
  replicas : c'.replicas = c.replicas.map f
  handle : ∀ a, c'.handle a = c.handle a
  rest : c' = { c with replicas := c'.replicas, backend := c'.backend }

theorem Moded.refl (h : Consistent c) : Moded c c id :=
  ⟨h, by rw [List.map_id], fun _ => rfl, rfl⟩

theorem Moded.trans {c c' c'' : Controller β} {f g : Replica → Replica} (h : Moded c c' f)
    (h' : Moded c' c'' g) : Moded c c'' (g ∘ f) where
  consistent := h'.consistent
  replicas := by rw [h'.replicas, h.replicas, List.map_map]
  handle a := (h'.handle a).trans (h.handle a)
  rest := by rw [h'.rest, h.rest]

/-- The loop changes nothing where there is nothing to set. -/
theorem setModeLoop_miss (order : MapOrder) (address : String) (mode : Mode) (l : List Replica)
    (backend : Replicator β) (h : ∀ r ∈ l, ¬ (r.address = address ∧ r.mode ≠ .ERR)) :
    setModeLoop order address mode l backend = some (l, backend) := by
  induction l with
  | nil => rfl
  | cons r l ih =>
    rw [setModeLoop, if_neg (h r List.mem_cons_self),
      ih (fun s hs => h s (List.mem_cons_of_mem _ hs))]

theorem map_setTo_miss {mode : Mode} {l : List Replica}
    (h : ∀ r ∈ l, ¬ (r.address = address ∧ r.mode ≠ .ERR)) : l.map (setTo address mode) = l := by
  refine (List.map_congr_left (fun r hr => ?_)).trans (List.map_id l)
  exact if_neg (h r hr)

/-- Where there is one, the mode is set once in the map and once in the list. -/
theorem setModeLoop_hit (order : MapOrder) (address : String) (mode : Mode) (l : List Replica)
    (backend : Replicator β) (hnd : (l.map (fun r => r.address)).Nodup)
    (h : ∃ r ∈ l, r.address = address ∧ r.mode ≠ .ERR) :
    setModeLoop order address mode l backend
      = (backend.setMode order address mode).map (fun b => (l.map (setTo address mode), b)) := by
  induction l with
  | nil =>
    obtain ⟨r, hr, _⟩ := h
    exact absurd hr List.not_mem_nil
  | cons r l ih =>
    obtain ⟨hr, hnd⟩ := List.nodup_cons.mp hnd
    rw [setModeLoop]
    by_cases hit : r.address = address ∧ r.mode ≠ .ERR
    · -- the addresses are distinct, so the rest of the list is left alone
      have hmiss : ∀ s ∈ l, ¬ (s.address = address ∧ s.mode ≠ .ERR) := fun s hs hh =>
        hr (List.mem_map.mpr ⟨s, hs, hh.1.trans hit.1.symm⟩)
      rw [if_pos hit, List.map_cons, map_setTo_miss hmiss, setTo, if_pos hit]
      cases backend.setMode order address mode with
      | none => rfl
      | some b => rw [Option.map_some]; dsimp only; rw [setModeLoop_miss order _ _ _ b hmiss]
    · have htail : ∃ s ∈ l, s.address = address ∧ s.mode ≠ .ERR := by
        obtain ⟨s, hs, hh⟩ := h
        rcases List.mem_cons.mp hs with rfl | hs
        · exact absurd hh hit
        · exact ⟨s, hs, hh⟩
      rw [if_neg hit, ih hnd htail, List.map_cons, setTo, if_neg hit]
      cases backend.setMode order address mode with
      | none => rfl
      | some b => rfl

theorem setMode_of_lookup {order : MapOrder} {r : Replicator β} {mode m : Mode}
    {b : β} (h : r.backends.lookup address = some ⟨some b, m⟩) :
    r.setMode order address mode = some (Replicator.buildReaderWriterUnmappers order
      { r with backends := r.backends.insert address ⟨some b, mode⟩ }) := by
  rw [Replicator.setMode, h]
  dsimp only
  rw [if_neg (fun hh => absurd hh.2 (by simp))]

section

variable (h : Consistent c) (order : MapOrder)
include h

/-- Setting the mode of a replica that is not in error keeps the two in step. -/
theorem Consistent.setMode {mode m : Mode} {b : β}
    (hmode : mode ≠ .WO) (hm : m ≠ .ERR)
    (hl : c.backend.backends.lookup address = some ⟨some b, m⟩) :
    Consistent { c with
      replicas := c.replicas.map (setTo address mode)
      backend := Replicator.buildReaderWriterUnmappers order
        { c.backend with backends := c.backend.backends.insert address ⟨some b, mode⟩ } } := by
  have hmem : ⟨address, m⟩ ∈ c.replicas := (h.modes _ _).mpr ⟨_, hl⟩
  have hat : ∀ r ∈ c.replicas, r.address = address → setTo address mode r = ⟨address, mode⟩ := by
    intro r hr ha
    have hreq : r = ⟨address, m⟩ := h.eq_of_address hr hmem ha
    rw [hreq, setTo, if_pos ⟨rfl, hm⟩]
  have hoff : ∀ r : Replica, r.address ≠ address → setTo address mode r = r :=
    fun r ha => if_neg (fun hh => ha hh.1)
  refine h.edit order (some ⟨some b, mode⟩) (fun a => lookup_insert_eq _ _ _ _) ?_
    (fun r hne => ?_) (fun m' => ?_) ?_ (by simp)
  · rw [map_address (address_setTo address mode)]
    exact h.distinct
  · constructor
    · intro hin
      obtain ⟨r₀, hr₀, rfl⟩ := List.mem_map.mp hin
      rw [address_setTo] at hne
      rwa [hoff r₀ hne]
    · intro hr
      exact List.mem_map.mpr ⟨r, hr, hoff r hne⟩
  · constructor
    · intro hin
      obtain ⟨r, hr, he⟩ := List.mem_map.mp hin
      rw [hat r hr (by rw [← address_setTo address mode r, he])] at he
      exact ⟨some b, by rw [(Replica.mk.inj he).2]⟩
    · intro hex
      obtain ⟨b', hb⟩ := hex
      rw [← (BackendWrapper.mk.inj (Option.some.inj hb)).2]
      exact List.mem_map.mpr ⟨_, hmem, hat _ hmem rfl⟩
  · -- nothing becomes WO
    have hwo : ∀ r : Replica, (setTo address mode r).mode = .WO →
        setTo address mode r = r := by
      intro r hr
      unfold setTo at hr ⊢
      split at hr
      · exact absurd hr hmode
      · rename_i hh; exact if_neg hh
    intro r hr s hs hrw hsw
    obtain ⟨r0, hr0, rfl⟩ := List.mem_map.mp hr
    obtain ⟨s0, hs0, rfl⟩ := List.mem_map.mp hs
    have hr' := hwo r0 hrw
    have hs' := hwo s0 hsw
    rw [hr'] at hrw
    rw [hs'] at hsw
    rw [hr', hs', h.oneWO r0 hr0 s0 hs0 hrw hsw]

/-- **Setting a mode sets it in both places, and a replica in error stays in error.** -/
theorem setReplicaModeNoLock_spec (address : String) (mode : Mode) (hmode : mode ≠ .WO) :
    ∃ c', c.setReplicaModeNoLock order address mode = some c'
      ∧ Moded c c' (setTo address mode) := by
  unfold setReplicaModeNoLock
  by_cases hit : ∃ r ∈ c.replicas, r.address = address ∧ r.mode ≠ .ERR
  · rw [setModeLoop_hit order address mode c.replicas c.backend h.distinct hit]
    obtain ⟨r, hr, rfl, hm⟩ := hit
    obtain ⟨b, hb⟩ := h.connected hr hm
    rw [setMode_of_lookup hb]
    refine ⟨_, rfl, h.setMode order hmode hm hb, rfl, fun a => ?_, rfl⟩
    show (AList.lookup a (Replicator.buildReaderWriterUnmappers order _).backends).bind _ = _
    rw [Replicator.backends_build, handle]
    rw [lookup_insert_eq]
    by_cases ha : a = r.address
    · rw [if_pos ha, ha, hb]; rfl
    · rw [if_neg ha]
  · have hmiss : ∀ r ∈ c.replicas, ¬ (r.address = address ∧ r.mode ≠ .ERR) :=
      fun r hr hh => hit ⟨r, hr, hh⟩
    rw [setModeLoop_miss order address mode c.replicas c.backend hmiss]
    exact ⟨c, rfl, h, (map_setTo_miss hmiss).symm, fun _ => rfl, rfl⟩

theorem setErr_spec (l : List String) :
    ∃ c', setErr order l c = some c' ∧ Moded c c' (markErr l) := by
  induction l generalizing c with
  | nil => exact ⟨c, rfl, Moded.refl h⟩
  | cons a l ih =>
    obtain ⟨c1, he1, h1⟩ := setReplicaModeNoLock_spec h order a .ERR (by simp)
    obtain ⟨c2, he2, h2⟩ := ih h1.consistent
    refine ⟨c2, ?_, ?_⟩
    · rw [setErr, he1]; exact he2
    · have h12 := h1.trans h2
      rw [setTo_err, markErr_comp] at h12
      exact h12

end

/-! ## Removing a replica -/

/-- The loop passes over positions that hold other addresses. -/
theorem removeLoop_skip (order : MapOrder) (address : String) (frontendUp : Bool)
    (is more : List Nat) (arr : List Replica) (len : Nat) (backend : Replicator β)
    (h : ∀ i ∈ is, ∃ r, arr[i]? = some r ∧ r.address ≠ address) :
    removeLoop order address frontendUp (is ++ more) arr len backend
      = removeLoop order address frontendUp more arr len backend := by
  induction is with
  | nil => rfl
  | cons i is ih =>
    obtain ⟨r, hr, ha⟩ := h i List.mem_cons_self
    rw [List.cons_append, removeLoop, hr]
    dsimp only
    rw [if_neg ha]
    exact ih (fun j hj => h j (List.mem_cons_of_mem _ hj))

/--
The splice shifts the array under the loop, but what the loop still reads is only
what stood behind the removed replica, and that has other addresses.
-/
theorem removeLoop_spec (order : MapOrder) (frontendUp : Bool) (backend : Replicator β)
    (l l' : List Replica) (r : Replica)
    (hl : ∀ s ∈ l, s.address ≠ r.address) (hl' : ∀ s ∈ l', s.address ≠ r.address) :
    removeLoop order r.address frontendUp (List.range (l ++ r :: l').length) (l ++ r :: l')
        (l ++ r :: l').length backend
      = if (l ++ r :: l').length = 1 ∧ frontendUp then
          some (l ++ r :: l', backend, some .lastReplica)
        else some (l ++ l', backend.removeBackend order r.address, none) := by
  have hlen : (l ++ r :: l').length = l.length + (l'.length + 1) := by simp
  have hrange : List.range (l ++ r :: l').length
      = List.range l.length ++ l.length :: List.range' (l.length + 1) l'.length := by
    rw [hlen, List.range_eq_range', List.range_eq_range', ← List.range'_succ, ← List.range'_append_1,
      Nat.zero_add]
  have hskip : ∀ i ∈ List.range l.length,
      ∃ s, (l ++ r :: l')[i]? = some s ∧ s.address ≠ r.address := by
    intro i hi
    have hi : i < l.length := List.mem_range.mp hi
    exact ⟨l[i], by rw [List.getElem?_append_left hi, List.getElem?_eq_getElem hi],
      hl _ (List.getElem_mem hi)⟩
  have hat : (l ++ r :: l')[l.length]? = some r := by
    rw [List.getElem?_append_right (Nat.le_refl _), Nat.sub_self]; rfl
  rw [hrange, removeLoop_skip order _ _ _ _ _ _ _ hskip, removeLoop, hat]
  dsimp only
  rw [if_pos rfl, List.take_length]
  by_cases hup : (l ++ r :: l').length = 1 ∧ frontendUp
  · rw [if_pos hup, if_pos hup]
  · rw [if_neg hup, if_neg hup, if_neg (by rw [hlen]; omega)]
    have htake : (l ++ r :: l').take l.length = l := List.take_left
    have hdrop : (l ++ r :: l').drop (l.length + 1) = l' := by
      rw [← List.drop_drop, List.drop_left]; rfl
    have hlast : (l ++ r :: l').drop ((l ++ r :: l').length - 1)
        = (r :: l').drop l'.length := by
      rw [hlen, show l.length + (l'.length + 1) - 1 = l.length + l'.length by omega,
        ← List.drop_drop, List.drop_left]
    have harr : (l ++ l' ++ (r :: l').drop l'.length).length = l.length + l'.length + 1 := by
      simp; omega
    have htail : 0 < l'.length → ∀ s ∈ (r :: l').drop l'.length, s ∈ l' := by
      intro hne s hs
      obtain ⟨k, hk⟩ := Nat.exists_eq_add_of_lt hne
      rw [show l'.length = k + 1 by omega, List.drop_succ_cons] at hs
      exact List.mem_of_mem_drop hs
    rw [htake, hdrop, hlast]
    -- what the rest of the loop reads
    have hrest : ∀ i ∈ List.range' (l.length + 1) l'.length,
        ∃ s, (l ++ l' ++ (r :: l').drop l'.length)[i]? = some s ∧ s.address ≠ r.address := by
      intro i hi
      obtain ⟨h1, h2⟩ := List.mem_range'_1.mp hi
      have hi' : i < (l ++ l' ++ (r :: l').drop l'.length).length := by rw [harr]; omega
      refine ⟨_, List.getElem?_eq_getElem hi', ?_⟩
      have hmem := List.getElem_mem hi'
      rcases List.mem_append.mp hmem with hmem | hmem
      · rcases List.mem_append.mp hmem with hmem | hmem
        · exact hl _ hmem
        · exact hl' _ hmem
      · exact hl' _ (htail (by omega) _ hmem)
    have hfin := removeLoop_skip order r.address frontendUp _ [] _
      ((l ++ r :: l').length - 1) (backend.removeBackend order r.address) hrest
    rw [List.append_nil] at hfin
    rw [hfin, removeLoop, hlen, show l.length + (l'.length + 1) - 1 = (l ++ l').length by
      rw [List.length_append]; omega, List.take_left]

theorem mem_spliced {l l' : List Replica} (hc : c.replicas = l ++ r :: l')
    (hl : ∀ s ∈ l, s.address ≠ r.address) (hl' : ∀ s ∈ l', s.address ≠ r.address) (s : Replica) :
    s ∈ l ++ l' ↔ s ∈ c.replicas ∧ s.address ≠ r.address := by
  rw [hc]
  constructor
  · intro hs
    rcases List.mem_append.mp hs with hs | hs
    · exact ⟨List.mem_append_left _ hs, hl s hs⟩
    · exact ⟨List.mem_append_right _ (List.mem_cons_of_mem _ hs), hl' s hs⟩
  · intro hex
    obtain ⟨hs, hne⟩ := hex
    rcases List.mem_append.mp hs with hs | hs
    · exact List.mem_append_left _ hs
    · rcases List.mem_cons.mp hs with rfl | hs
      · exact absurd rfl hne
      · exact List.mem_append_right _ hs

section

variable (h : Consistent c) (order : MapOrder)
include h

theorem Consistent.remove {l l' : List Replica} (hc : c.replicas = l ++ r :: l')
    (hl : ∀ s ∈ l, s.address ≠ r.address) (hl' : ∀ s ∈ l', s.address ≠ r.address) :
    Consistent { c with
      replicas := l ++ l', backend := c.backend.removeBackend order r.address } := by
  have hmem := mem_spliced hc hl hl'
  have hback : c.backend.removeBackend order r.address
      = Replicator.buildReaderWriterUnmappers order
        { c.backend with backends := c.backend.backends.erase r.address } := by
    refine if_pos ((h.mem_backends _).mpr ⟨r.mode, ?_⟩)
    rw [hc]
    exact List.mem_append_right _ List.mem_cons_self
  rw [hback]
  refine h.edit order none (fun a => lookup_erase_eq _ _ _) ?_ (fun s hne => ?_) (fun m => ?_)
    (fun s hs t ht => h.oneWO s ((hmem s).mp hs).1 t ((hmem t).mp ht).1) (by simp)
  · have hd := h.distinct
    rw [hc] at hd
    exact hd.sublist (((List.sublist_cons_self r l').append_left l).map _)
  · rw [hmem]
    exact and_iff_left hne
  · rw [hmem]
    simp

/-- **Removing a replica removes it from both, and leaves the others alone.** -/
theorem removeReplica_spec (address : String) (frontendUp : Bool) :
    ∃ c' err, c.removeReplica order address frontendUp = some (c', err) ∧ Consistent c'
      ∧ (∀ r ∈ c.replicas, r.address ≠ address → r ∈ c'.replicas) ∧ c'.replicas ⊆ c.replicas := by
  unfold removeReplica
  by_cases hr : c.hasReplica address = true
  · rw [if_pos hr]
    obtain ⟨m, hm⟩ := (hasReplica_iff c address).mp hr
    obtain ⟨l, l', hc⟩ := List.append_of_mem hm
    have hd := h.distinct
    rw [hc, List.map_append, List.map_cons, List.nodup_middle, List.nodup_cons] at hd
    have hl : ∀ s ∈ l, s.address ≠ address := fun s hs he =>
      hd.1 (List.mem_append_left _ (List.mem_map.mpr ⟨s, hs, he⟩))
    have hl' : ∀ s ∈ l', s.address ≠ address := fun s hs he =>
      hd.1 (List.mem_append_right _ (List.mem_map.mpr ⟨s, hs, he⟩))
    have hspec := removeLoop_spec order frontendUp c.backend l l' ⟨address, m⟩ hl hl'
    rw [← hc] at hspec
    rw [hspec]
    by_cases hup : c.replicas.length = 1 ∧ frontendUp
    · rw [if_pos hup]
      exact ⟨c, _, rfl, h, fun r hr _ => hr, fun r hr => hr⟩
    · rw [if_neg hup]
      have hmem := mem_spliced (r := ⟨address, m⟩) hc hl hl'
      exact ⟨_, _, rfl, h.remove order hc hl hl', fun r hr hne => (hmem r).mpr ⟨hr, hne⟩,
        fun r hr => ((hmem r).mp hr).1⟩
  · rw [if_neg hr]
    exact ⟨c, none, rfl, h, fun r hr _ => hr, fun r hr => hr⟩

/-! ## Adding a replica -/

/-- Among the backends a range meets, only those in error are nil. -/
theorem Consistent.entries_live :
    ∀ e ∈ entries order c.backend.backends, e.2.mode ≠ .ERR → e.2.backend ≠ none := by
  rintro ⟨a, b, m⟩ he hm rfl
  exact hm (h.nil_err a m (mem_entries.mp he))

/-- Those of the replicas that are not in error. -/
theorem Consistent.mem_asked {a : String} :
    a ∈ (Replicator.asked (entries order c.backend.backends)).map Prod.fst
      ↔ ∃ m, ⟨a, m⟩ ∈ c.replicas ∧ m ≠ .ERR := by
  simp only [Replicator.asked, List.mem_map, List.mem_filter, decide_eq_true_eq]
  constructor
  · intro hex
    obtain ⟨⟨a, b, m⟩, ⟨hb, hm⟩, rfl⟩ := hex
    exact ⟨m, (h.modes a m).mpr ⟨b, mem_entries.mp hb⟩, hm⟩
  · intro hex
    obtain ⟨m, hr, hm⟩ := hex
    obtain ⟨b, hb⟩ := (h.modes a m).mp hr
    exact ⟨_, ⟨mem_entries.mpr hb, hm⟩, rfl⟩

end

theorem any_asked {a : String} :
    c.replicas.any (fun r => r.address = a && r.mode ≠ .ERR) = true
      ↔ ∃ m, ⟨a, m⟩ ∈ c.replicas ∧ m ≠ .ERR := by
  rw [List.any_eq_true]
  simp only [Bool.and_eq_true, decide_eq_true_eq]
  constructor
  · intro hex
    obtain ⟨r, hr, rfl, hm⟩ := hex
    exact ⟨r.mode, hr, hm⟩
  · intro hex
    obtain ⟨m, hr, hm⟩ := hex
    exact ⟨_, hr, rfl, hm⟩

section

variable {l : List (String × BackendWrapper β)}
  (hlive : ∀ e ∈ l, e.2.mode ≠ .ERR → e.2.backend ≠ none)
include hlive

theorem collect_eq {γ : Type} (ask : String → Except Err γ) :
    collect ask l = some ((Replicator.asked l).filterMap (fun e => (ask e.1).toOption)) := by
  induction l with
  | nil => rfl
  | cons e l ih =>
    rw [collect, ih (fun x hx => hlive x (List.mem_cons_of_mem _ hx)), Replicator.asked_cons]
    by_cases hm : e.2.mode = .ERR
    · rw [if_pos hm, if_pos hm]
    · rw [if_neg hm, if_neg hm, if_neg (hlive e List.mem_cons_self hm)]
      cases hask : ask e.1 with
      | error _ => simp [hask, Except.toOption]
      | ok x => simp [hask, Except.toOption]

theorem snapshotErrors_eq (snapshot : String → Option Err) :
    snapshotErrors snapshot l = some (gather snapshot ((Replicator.asked l).map Prod.fst)) := by
  induction l with
  | nil => rfl
  | cons e l ih =>
    rw [snapshotErrors, ih (fun x hx => hlive x (List.mem_cons_of_mem _ hx)),
      Replicator.asked_cons]
    by_cases hm : e.2.mode = .ERR
    · rw [if_pos hm, if_pos hm]
    · rw [if_neg hm, if_neg hm, if_neg (hlive e List.mem_cons_self hm)]
      cases hask : snapshot e.1 with
      | none => simp [hask, gather]
      | some x => simp [hask, gather]

end

section

variable (h : Consistent c) (order : MapOrder)
include h order

theorem canDoSnapshot_total
    (answers : SnapshotAnswers) : ∃ err, c.canDoSnapshot order answers = some err := by
  unfold canDoSnapshot
  rw [collect_eq (h.entries_live order), collect_eq (h.entries_live order)]
  generalize (Replicator.asked _).filterMap _ = us
  generalize (Replicator.asked _).filterMap _ = hs
  cases us with
  | nil => exact ⟨_, rfl⟩
  | cons u us =>
    cases hs with
    | nil => dsimp only; split_ifs <;> exact ⟨_, rfl⟩
    | cons x hs => dsimp only; split_ifs <;> exact ⟨_, rfl⟩

theorem snapshotForAdd_total (b : β) (address : String) (answers : SnapshotAnswers) :
    ∃ err, c.snapshotForAdd order (some b) address answers = some err := by
  obtain ⟨err, herr⟩ := canDoSnapshot_total h order answers
  have hfirst : ∃ e, (if c.backend.backends.keys.length ≠ 0 then c.canDoSnapshot order answers
      else some none) = some e := by
    rw [herr]; split <;> exact ⟨_, rfl⟩
  obtain ⟨e, hfirst⟩ := hfirst
  unfold snapshotForAdd
  rw [hfirst, snapshotErrors_eq (h.entries_live order)]
  cases e with
  | some e => exact ⟨_, rfl⟩
  | none =>
    dsimp only
    split_ifs with h1 h2
    · exact ⟨_, rfl⟩
    · simp at h2
    · exact ⟨_, rfl⟩

/-- Adding a replica at a new address keeps the two in step, if it is the only one that is WO. -/
theorem Consistent.add {newBackend : Option β} {mode : Mode}
    (hnil : newBackend = none → mode = .ERR) (hnew : c.hasReplica address ≠ true)
    (hwo : c.hasWOReplica ≠ true) :
    Consistent { c with
      replicas := c.replicas ++ [⟨address, mode⟩]
      backend := c.backend.addBackend order address newBackend mode } := by
  have hne : ∀ m, ⟨address, m⟩ ∉ c.replicas := fun m hm =>
    hnew ((hasReplica_iff c address).mpr ⟨m, hm⟩)
  have hnowo : ∀ r ∈ c.replicas, r.mode ≠ .WO := fun r hr hm =>
    hwo ((hasWOReplica_iff c).mpr ⟨r, hr, hm⟩)
  have hback : c.backend.addBackend order address newBackend mode
      = Replicator.buildReaderWriterUnmappers order
        { c.backend with backends := c.backend.backends.insert address ⟨newBackend, mode⟩ } := by
    refine if_neg (fun hh => ?_)
    obtain ⟨m, hm⟩ := (h.mem_backends _).mp hh
    exact hne m hm
  rw [hback]
  refine h.edit order (some ⟨newBackend, mode⟩) (fun a => lookup_insert_eq _ _ _ _) ?_
    (fun r hra => ?_) (fun m => ?_) ?_ (fun m hm => ?_)
  · rw [List.map_append, List.nodup_append]
    refine ⟨h.distinct, List.nodup_singleton _, ?_⟩
    rintro a ha b hb rfl
    obtain ⟨r, hr, rfl⟩ := List.mem_map.mp ha
    have : r.address = address := List.mem_singleton.mp hb
    exact hne r.mode (this ▸ hr)
  · rw [List.mem_append, List.mem_singleton]
    exact or_iff_left (fun he => hra (congrArg Replica.address he))
  · rw [List.mem_append, List.mem_singleton, or_iff_right (hne m)]
    simp [eq_comm]
  · -- whichever is WO is the new one
    have hlast : ∀ r ∈ c.replicas ++ [(⟨address, mode⟩ : Replica)], r.mode = .WO →
        r = ⟨address, mode⟩ := by
      intro r hr hm
      rcases List.mem_append.mp hr with hr | hr
      · exact absurd hm (hnowo r hr)
      · exact List.mem_singleton.mp hr
    intro r hr s hs hrw hsw
    rw [hlast r hr hrw, hlast s hs hsw]
  · obtain ⟨hb, hm⟩ := BackendWrapper.mk.inj (Option.some.inj hm)
    exact hm ▸ hnil hb

/-- **Adding a replica adds it to both or to neither, and leaves the others alone.** -/
theorem addReplicaNoLock_spec
    (newBackend : Option β) (address : String) (snapshot : Bool) (mode : Mode)
    (answers : SnapshotAnswers) (hnil : newBackend = none → mode = .ERR) :
    ∃ c' err, c.addReplicaNoLock order newBackend address snapshot mode answers = some (c', err)
      ∧ Consistent c' ∧ ∀ r ∈ c.replicas, r ∈ c'.replicas := by
  have hsnap : ∃ e, (if snapshot ∧ mode ≠ .ERR then
      c.snapshotForAdd order newBackend address answers else some none) = some e := by
    by_cases hs : (snapshot : Prop) ∧ mode ≠ .ERR
    · rw [if_pos hs]
      cases newBackend with
      | none => exact absurd (hnil rfl) hs.2
      | some b => exact snapshotForAdd_total h order b address answers
    · rw [if_neg hs]; exact ⟨none, rfl⟩
  obtain ⟨e, hsnap⟩ := hsnap
  unfold addReplicaNoLock canAdd
  rw [hsnap]
  by_cases h1 : c.hasReplica address = true
  · rw [if_pos h1]; exact ⟨c, none, rfl, h, fun r hr => hr⟩
  · rw [if_neg h1]
    by_cases h2 : c.hasWOReplica = true
    · rw [if_pos h2]; exact ⟨c, _, rfl, h, fun r hr => hr⟩
    · rw [if_neg h2]
      by_cases h3 : c.isExpanding = true
      · rw [if_pos h3]; exact ⟨c, _, rfl, h, fun r hr => hr⟩
      · rw [if_neg h3]
        cases e with
        | some e => exact ⟨c, some e, rfl, h, fun r hr => hr⟩
        | none =>
          exact ⟨_, none, rfl, h.add order hnil h1 h2, fun r hr => List.mem_append_left _ hr⟩

end

/-! ## The targets of the data path -/

/-- The addresses and connections a list of the data path stands for, in its order. -/
structure Targets (c : Controller β) (keep : Mode → Prop) (index : AList (fun _ : Nat => String))
    (handles : List (Option β)) (ts : List (String × β)) : Prop where
  numbers : Numbers index (ts.map (fun t => t.1))
  handles_eq : handles = ts.map (fun t => some t.2)
  nodup : (ts.map (fun t => t.1)).Nodup
  mem_iff : ∀ a b, (a, b) ∈ ts ↔ c.handle a = some b ∧ ∃ m, ⟨a, m⟩ ∈ c.replicas ∧ keep m

/-- A list of wrappers that are all connected is a list of connections. -/
theorem exists_targets (l : List (String × BackendWrapper β))
    (h : ∀ e ∈ l, e.2.backend ≠ none) :
    ∃ ts : List (String × β), ts.map (fun t => t.1) = l.map (fun e => e.1)
      ∧ ts.map (fun t => some t.2) = l.map (fun e => e.2.backend)
      ∧ ∀ a b, (a, b) ∈ ts ↔ ∃ m, (a, ⟨some b, m⟩) ∈ l := by
  induction l with
  | nil => exact ⟨[], rfl, rfl, by simp⟩
  | cons e l ih =>
    obtain ⟨ts, h1, h2, h3⟩ := ih (fun x hx => h x (List.mem_cons_of_mem _ hx))
    obtain ⟨a0, b0, m0⟩ := e
    obtain ⟨b0, rfl⟩ := Option.ne_none_iff_exists'.mp (h _ List.mem_cons_self)
    refine ⟨(a0, b0) :: ts, by rw [List.map_cons, h1]; rfl, by rw [List.map_cons, h2]; rfl, ?_⟩
    intro a b
    rw [List.mem_cons, h3]
    constructor
    · intro hor
      rcases hor with he | ⟨m, hm⟩
      · obtain ⟨rfl, rfl⟩ := Prod.mk.inj he
        exact ⟨m0, List.mem_cons_self⟩
      · exact ⟨m, List.mem_cons_of_mem _ hm⟩
    · intro hex
      obtain ⟨m, hm⟩ := hex
      rcases List.mem_cons.mp hm with he | hm
      · obtain ⟨rfl, hb⟩ := Prod.mk.inj he
        exact Or.inl (by rw [Option.some.inj (BackendWrapper.mk.inj hb).1])
      · exact Or.inr ⟨m, hm⟩

variable {handles : List (Option β)}

section

variable (h : Consistent c)
include h

theorem Consistent.targets_of_enlists
    {es : List (String × BackendWrapper β)} (hes : c.backend.Built es) {keep : Mode → Bool}
    {p : Mode → Prop} (hp : ∀ m, keep m = true ↔ p m) (herr : ¬ p .ERR)
    (hl : Replicator.Enlists keep es index handles) : ∃ ts, Targets c p index handles ts := by
  have hlive : ∀ e ∈ es.filter (fun e => keep e.2.mode), e.2.backend ≠ none := by
    rintro ⟨a, b, m⟩ he rfl
    obtain ⟨he, hm⟩ := List.mem_filter.mp he
    have hm' : m = .ERR := h.nil_err a m ((hes.mem_iff _ _).mp he)
    exact herr (hm' ▸ (hp m).mp hm)
  obtain ⟨ts, h1, h2, h3⟩ := exists_targets _ hlive
  refine ⟨ts, h1 ▸ hl.numbers, hl.handles_eq.trans h2.symm, ?_, fun a b => ?_⟩
  · rw [h1]
    exact hes.nodup.sublist (List.filter_sublist.map _)
  · rw [h3]
    constructor
    · intro hex
      obtain ⟨m, hm⟩ := hex
      obtain ⟨hm, hk⟩ := List.mem_filter.mp hm
      have hlook := (hes.mem_iff _ _).mp hm
      exact ⟨by rw [handle, hlook]; rfl, m, (h.modes _ _).mpr ⟨_, hlook⟩, (hp m).mp hk⟩
    · intro hex
      obtain ⟨hh, m, hm, hk⟩ := hex
      obtain ⟨b', hlook⟩ := (h.modes _ _).mp hm
      rw [handle, hlook] at hh
      obtain rfl : b' = some b := hh
      exact ⟨m, List.mem_filter.mpr ⟨(hes.mem_iff _ _).mpr hlook, (hp m).mpr hk⟩⟩

theorem Consistent.readers :
    ∃ ts, Targets c (fun m => m = .RW) c.backend.readerIndex c.backend.readers ts := by
  obtain ⟨es, hes⟩ := h.built
  exact h.targets_of_enlists hes (fun m => by simp [Replicator.readable]) (by simp)
    hes.lists.readers

theorem Consistent.writers :
    ∃ ts, Targets c (fun m => m ≠ .ERR) c.backend.writerIndex c.backend.writers ts := by
  obtain ⟨es, hes⟩ := h.built
  exact h.targets_of_enlists hes (fun m => by simp [Replicator.writable]) (by simp)
    hes.lists.writers

theorem Consistent.unmappers :
    ∃ ts, Targets c (fun m => m ≠ .ERR) c.backend.unmapperIndex c.backend.unmappers ts := by
  obtain ⟨es, hes⟩ := h.built
  exact h.targets_of_enlists hes (fun m => by simp [Replicator.writable]) (by simp)
    hes.lists.unmappers

theorem Consistent.target_of_mem (herr : ¬ keep .ERR) (ht : Targets c keep index handles ts)
    (hr : r ∈ c.replicas) (hm : keep r.mode) :
    ∃ b, c.handle r.address = some b ∧ (r.address, b) ∈ ts := by
  obtain ⟨b, hb⟩ := h.connected hr (fun he => herr (he ▸ hm))
  have hh : c.handle r.address = some b := by rw [handle, hb]; rfl
  exact ⟨b, hh, (ht.mem_iff _ _).mpr ⟨hh, r.mode, hr, hm⟩⟩

end

theorem Targets.addressOf (ht : Targets c keep index handles ts) {i : Nat} (hi : i < ts.length) :
    Replicator.addressOf index i = ts[i].1 := by
  rw [Replicator.addressOf, ht.numbers i, List.getElem?_map, List.getElem?_eq_getElem hi]
  rfl

/-- There is something to read from when some replica is RW. -/
theorem Consistent.available_iff (h : Consistent c) :
    c.backend.backendsAvailable = true ↔ ∃ r ∈ c.replicas, r.mode = .RW := by
  obtain ⟨es, hes⟩ := h.built
  obtain ⟨ts, ht⟩ := h.readers
  rw [hes.available, ht.handles_eq, List.length_map]
  constructor
  · intro hpos
    obtain ⟨_, m, hm, hk⟩ := (ht.mem_iff _ _).mp (List.getElem_mem hpos)
    exact ⟨_, hm, hk⟩
  · intro hex
    obtain ⟨r, hr, hm⟩ := hex
    obtain ⟨b, _, hb⟩ := h.target_of_mem (by simp) ht hr hm
    exact List.length_pos_of_mem hb

end Controller

end WeftBlock
