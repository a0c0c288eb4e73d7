import WeftBlock.Controller.StartChecks

/-!
# What a successful start leaves

`Start` opens every address, compares sizes, attaches a replica for each address and
then checks them. What gets through is `matching`, and of those the replicas with
the largest revision counter stay RW.

Two things are not checked. Nothing looks whether any replica is left once the
checks are through, so a volume can come up with every replica in ERR: when no
setting matches, or when all counters are below the zero that the search for the
largest one starts from. And a controller that has replicas is taken to be started,
so a `Start` that follows a failed one returns nil at once.
-/

namespace WeftBlock

open DataConn Maps

variable {err : Option CtlErr}

namespace Controller

variable {β : Type}

/-! ## A call and what it finds -/

/-- A call of `Start`. -/
structure StartCall (β : Type) where
  order : MapOrder
  volumeSize : Int
  volumeCurrentSize : Int
  addresses : List String
  answers : StartAnswers β

namespace StartCall

/-- `Start` with the arguments of the call. -/
def start (q : StartCall β) (c : Controller β) : Option (Controller β × Option CtlErr) :=
  c.start q.order q.volumeSize q.volumeCurrentSize q.addresses q.answers

/-- What the first loop collects. -/
def opened (q : StartCall β) : Opened β :=
  q.addresses.foldl (openBackend q.answers) ⟨∅, ∅, false, none⟩

/-- The size of the volume. -/
def size (q : StartCall β) : Int :=
  determineCorrectVolumeSize q.volumeSize q.volumeCurrentSize q.opened.backendSizes

/-- The backends that could be opened and have that size. -/
def available (q : StartCall β) : AList (fun _ : String => β) :=
  dropOtherSizes q.answers q.size (entries q.order q.opened.availableBackends)
    q.opened.availableBackends

/-- The addresses that are available and whose settings match those of the controller. -/
def matching (q : StartCall β) (c : Controller β) : List String :=
  q.addresses.filter (fun a => a ∈ q.available
    ∧ q.answers.markAgrees c.unmapMarkSnapChainRemoved a = true
    ∧ q.answers.settingAgrees c.revisionCounterDisabled a = true)

/-- The controller with a replica for every address, before the checks. -/
def attached (q : StartCall β) (c : Controller β) : Option (Controller β × Option CtlErr) :=
  addOpened q.order q.available q.addresses
    { c.reset with size := q.size, sectorSize := q.opened.sectorSize.getD c.sectorSize }

/-- The call gets through all its checks; only the frontend can still fail it. -/
def passes (q : StartCall β) (c : Controller β) : Bool :=
  (checkDuplicateAddress q.addresses ∅).isNone && q.available.keys.length != 0
    && match q.attached c with
      | some (c, none) =>
        match c.checkReplicas q.order q.answers with
        | some (_, none) => true
        | _ => false
      | _ => false

end StartCall

variable {available : AList (fun _ : String => β)}

/-- What is left after the sizes have been compared answered with the size asked for. -/
theorem mem_dropOtherSizes {answers : StartAnswers β} {size : Int} {l : List (String × β)}
    {a : String}
    (h : a ∈ dropOtherSizes answers size l available) :
    a ∈ available ∧ ((∃ b, (a, b) ∈ l) → answers.sizeAgain a = .ok size) := by
  induction l generalizing available with
  | nil => exact ⟨h, fun ⟨_, hb⟩ => absurd hb List.not_mem_nil⟩
  | cons x l ih =>
    obtain ⟨y, b⟩ := x
    rw [dropOtherSizes] at h
    have hdropped : a ∈ dropOtherSizes answers size l (available.erase y) →
        a ∈ available ∧ ((∃ b', (a, b') ∈ (y, b) :: l) → answers.sizeAgain a = .ok size) := by
      intro ha
      obtain ⟨h1, h2⟩ := ih ha
      obtain ⟨hne, h1⟩ := (AList.mem_erase).mp h1
      refine ⟨h1, fun ⟨b', hb⟩ => ?_⟩
      rcases List.mem_cons.mp hb with he | hb
      · exact absurd (Prod.mk.inj he).1 hne
      · exact h2 ⟨b', hb⟩
    cases hs : answers.sizeAgain y with
    | error e => rw [hs] at h; exact hdropped h
    | ok n =>
      rw [hs] at h
      dsimp only at h
      by_cases hn : size ≠ n
      · rw [if_pos hn] at h; exact hdropped h
      · rw [if_neg hn] at h
        obtain ⟨h1, h2⟩ := ih h
        refine ⟨h1, fun ⟨b', hb⟩ => ?_⟩
        rcases List.mem_cons.mp hb with he | hb
        · rw [(Prod.mk.inj he).1, hs, not_not.mp hn]
        · exact h2 ⟨b', hb⟩

variable {q : StartCall β}

theorem StartCall.sizeAgain_of_available {a : String} (h : a ∈ q.available) :
    q.answers.sizeAgain a = .ok q.size := by
  obtain ⟨hopen, hsize⟩ := mem_dropOtherSizes h
  obtain ⟨b, hb⟩ := (mem_iff_lookup _ _).mp hopen
  exact hsize ⟨b, mem_entries.mpr hb⟩

variable {c c' : Controller β}

/-- `checkDuplicateAddress` finds what occurs twice. -/
theorem nodup_of_checkDuplicateAddress {l : List String} {seen : Finset String}
    (h : checkDuplicateAddress l seen = none) : l.Nodup ∧ ∀ a ∈ l, a ∉ seen := by
  induction l generalizing seen with
  | nil => exact ⟨List.nodup_nil, by simp⟩
  | cons x l ih =>
    rw [checkDuplicateAddress] at h
    split at h
    · simp at h
    · rename_i hx
      obtain ⟨hnd, hout⟩ := ih h
      refine ⟨List.nodup_cons.mpr ⟨fun hin => ?_, hnd⟩, fun a ha => ?_⟩
      · exact hout x hin (Finset.mem_insert_self x seen)
      · rcases List.mem_cons.mp ha with rfl | ha
        · exact hx
        · exact fun hin => hout a ha (Finset.mem_insert_of_mem hin)

/-- What the third loop leaves. -/
theorem StartCall.attached_cases {c c1 : Controller β} {err : Option CtlErr}
    (hatt : q.attached c = some (c1, err)) : Consistent c1
      ∧ c1 = { c.reset with
          size := q.size, sectorSize := q.opened.sectorSize.getD c.sectorSize,
          replicas := c1.replicas, backend := c1.backend }
      ∧ (err = none → q.addresses.Nodup →
        c1.replicas = q.addresses.map (openedReplica q.available)) := by
  have hfresh : Consistent { c.reset with
      size := q.size, sectorSize := q.opened.sectorSize.getD c.sectorSize } :=
    consistent_fresh ⟨rfl, rfl⟩
  obtain ⟨c', err', he, h', hrest, hreps⟩ := addOpened_spec hfresh q.order q.available q.addresses
  obtain ⟨rfl, rfl⟩ := Prod.mk.inj (Option.some.inj (he.symm.trans hatt))
  exact ⟨h', hrest, fun herr hnd => hreps herr hnd (fun a _ => by simp [hasReplica, reset])
    (by simp [hasWOReplica, reset])⟩

/-- The RW replicas before the checks are the available ones. -/
theorem StartCall.attached_spec {c c1 : Controller β}
    (hnd : q.addresses.Nodup) (hatt : q.attached c = some (c1, none)) :
    Consistent c1 ∧ (∀ r ∈ c1.replicas, r.mode ≠ .WO) ∧ c1.size = q.size
      ∧ c1.isUpgrade = c.isUpgrade ∧ c1.revisionCounterDisabled = c.revisionCounterDisabled
      ∧ c1.replicas.length = q.addresses.length
      ∧ ∀ a, a ∈ q.matching c ↔ ⟨a, .RW⟩ ∈ c1.replicas
        ∧ q.answers.markAgrees c1.unmapMarkSnapChainRemoved a = true
        ∧ q.answers.settingAgrees c1.revisionCounterDisabled a = true := by
  obtain ⟨hcons, hrest, hreps⟩ := StartCall.attached_cases hatt
  have hrep := hreps rfl hnd
  have hmark : c1.unmapMarkSnapChainRemoved = c.unmapMarkSnapChainRemoved := by rw [hrest]; rfl
  have hset : c1.revisionCounterDisabled = c.revisionCounterDisabled := by rw [hrest]; rfl
  refine ⟨hcons, fun r hr => ?_, by rw [hrest], by rw [hrest]; rfl, hset,
    by rw [hrep, List.length_map], fun a => ?_⟩
  · rw [hrep] at hr
    obtain ⟨a, -, rfl⟩ := List.mem_map.mp hr
    unfold openedReplica
    split <;> simp
  · have hrw : ⟨a, .RW⟩ ∈ c1.replicas ↔ a ∈ q.addresses ∧ a ∈ q.available := by
      rw [hrep, List.mem_map]
      constructor
      · intro hex
        obtain ⟨x, hx, he⟩ := hex
        obtain ⟨rfl, hm⟩ := Replica.mk.inj he
        by_cases hav : x ∈ q.available
        · exact ⟨hx, hav⟩
        · rw [if_neg hav] at hm; exact absurd hm (by simp)
      · intro hex
        obtain ⟨hx, hav⟩ := hex
        exact ⟨a, hx, by rw [openedReplica, if_pos hav]⟩
    rw [hrw, hmark, hset, matching, List.mem_filter, decide_eq_true_iff, and_assoc]

/-- **A start from nothing** gets through its checks, or returns an error. -/
theorem StartCall.start_cases
    (hne : q.addresses ≠ []) (hr : c.replicas = []) (hstart : q.start c = some (c', err)) :
    (q.passes c = true ∧ err = q.answers.startFrontend ∧ q.addresses.Nodup
        ∧ ∃ c1, q.attached c = some (c1, none) ∧ c1.checkReplicas q.order q.answers = some (c', none))
      ∨ q.passes c = false ∧ err ≠ none ∧ (c'.replicas = [] →
        c'.isUpgrade = c.isUpgrade ∧ c'.revisionCounterDisabled = c.revisionCounterDisabled) := by
  have hlen : ¬ q.addresses.length = 0 := fun h => hne (List.length_eq_zero_iff.mp h)
  have hpos : ¬ 0 < c.replicas.length := by rw [hr]; simp
  unfold StartCall.start Controller.start at hstart
  rw [if_neg hlen] at hstart
  unfold passes
  cases hdup : checkDuplicateAddress q.addresses ∅ with
  | some e =>
    rw [hdup] at hstart
    obtain ⟨rfl, rfl⟩ := by simpa using hstart
    exact Or.inr ⟨rfl, by simp, fun _ => ⟨rfl, rfl⟩⟩
  | none =>
    rw [hdup] at hstart
    dsimp only at hstart
    rw [if_neg hpos] at hstart
    rw [← opened, ← size, ← available, ← attached] at hstart
    rcases hatt : q.attached c with _ | ⟨c1, _ | e⟩
    · rw [hatt] at hstart; exact absurd hstart (by simp)
    · rw [hatt] at hstart
      dsimp only at hstart ⊢
      by_cases h0 : q.available.keys.length = 0
      · rw [if_pos h0] at hstart
        obtain ⟨rfl, rfl⟩ := by simpa using hstart
        exact Or.inr ⟨by simp [h0], by simp, fun _ => by
          rw [(StartCall.attached_cases hatt).2.1]; exact ⟨rfl, rfl⟩⟩
      · rw [if_neg h0] at hstart
        rcases hcheck : c1.checkReplicas q.order q.answers with _ | ⟨c2, _ | e⟩
        · rw [hcheck] at hstart; exact absurd hstart (by simp)
        · rw [hcheck] at hstart
          obtain ⟨rfl, rfl⟩ := by simpa using hstart
          exact Or.inl ⟨by simp [h0], rfl, (nodup_of_checkDuplicateAddress hdup).1, c1, rfl,
            hcheck⟩
        · rw [hcheck] at hstart
          obtain ⟨rfl, rfl⟩ := by simpa using hstart
          refine Or.inr ⟨by simp, by simp, fun hnil => ?_⟩
          -- the checks leave the replicas of all addresses in place
          obtain ⟨hcons, -, -, -, -, hcount, -⟩ :=
            StartCall.attached_spec (nodup_of_checkDuplicateAddress hdup).1 hatt
          obtain ⟨c3, err, he, hgrade⟩ := checkReplicas_regraded hcons q.order q.answers
          rw [hcheck] at he
          obtain ⟨rfl, -⟩ := Prod.mk.inj (Option.some.inj he)
          have hadd := congrArg List.length hgrade.addresses
          rw [hnil, List.length_map, List.length_map, hcount, List.length_nil] at hadd
          exact absurd hadd.symm hlen
    · rw [hatt] at hstart
      obtain ⟨rfl, rfl⟩ := by simpa using hstart
      exact Or.inr ⟨by simp, by simp, fun _ => by
        rw [(StartCall.attached_cases hatt).2.1]; exact ⟨rfl, rfl⟩⟩

/-! ## A run of starts -/

/-- What is so at the backends, by address. -/
structure Backends where
  size : String → Int
  revisionCounter : String → Int

/-- A backend that answers says what is so. -/
structure StartAnswers.Truthful (answers : StartAnswers β) (bs : Backends) : Prop where
  size : ∀ a n, answers.size a = .ok n → n = bs.size a
  sizeAgain : ∀ a n, answers.sizeAgain a = .ok n → n = bs.size a
  getRevisionCounter : ∀ a n, answers.getRevisionCounter a = .ok n → n = bs.revisionCounter a

/--
**The volume is usable.** Some replica is RW, and all that are have the size of the
controller and the largest revision counter of the replicas that are available and match.
-/
structure Usable (bs : Backends) (matching : List String) (c : Controller β) : Prop where
  writable : ∃ r ∈ c.replicas, r.mode = .RW
  size : ∀ r ∈ c.replicas, r.mode = .RW → bs.size r.address = c.size
  revision : ∃ m, IsGreatest {n | ∃ a ∈ matching, bs.revisionCounter a = n} m
    ∧ ∀ r ∈ c.replicas, r.mode = .RW → bs.revisionCounter r.address = m

/-- **A start that gets through its checks** is usable if some matching counter is not negative. -/
theorem StartCall.usable_iff
    {bs : Backends} (hne : q.addresses ≠ []) (hr : c.replicas = []) (hup : c.isUpgrade = false)
    (hrev : c.revisionCounterDisabled = false) (htruth : q.answers.Truthful bs)
    (hpass : q.passes c = true) (hstart : q.start c = some (c', err)) :
    Usable bs (q.matching c) c' ↔ ∃ a ∈ q.matching c, 0 ≤ bs.revisionCounter a := by
  rcases StartCall.start_cases hne hr hstart with ⟨-, -, hnd, c1, hatt, hcheck⟩ | ⟨hno, -⟩
  · obtain ⟨hcons, hwo, hsize, hup1, hrev1, -, hmatch⟩ := StartCall.attached_spec hnd hatt
    obtain ⟨expected, h⟩ := checkReplicas_checked hcons hwo (hup1.trans hup) (hrev1.trans hrev)
      hcheck
    have hrw : ∀ a, ⟨a, .RW⟩ ∈ c'.replicas
        ↔ a ∈ q.matching c ∧ bs.revisionCounter a = expected := by
      intro a
      rw [h.rw_iff, ← hmatch]
      refine and_congr_right (fun hm => ?_)
      obtain ⟨hin, hmark, hset⟩ := (hmatch a).mp hm
      obtain ⟨n, hn, -⟩ := h.bound a hin hmark hset
      rw [hn, ← htruth.getRevisionCounter a n hn]
      exact ⟨Except.ok.inj, congrArg Except.ok⟩
    have hbound : ∀ a ∈ q.matching c, bs.revisionCounter a ≤ expected := by
      intro a hm
      obtain ⟨hin, hmark, hset⟩ := (hmatch a).mp hm
      obtain ⟨n, hn, hle⟩ := h.bound a hin hmark hset
      rw [← htruth.getRevisionCounter a n hn]
      exact hle
    constructor
    · intro hu
      obtain ⟨⟨a, m⟩, hra, hm⟩ := hu.writable
      subst hm
      obtain ⟨hm, he⟩ := (hrw a).mp hra
      exact ⟨a, hm, by rw [he]; exact h.nonneg⟩
    · intro hex
      obtain ⟨a, hm, hpos⟩ := hex
      -- the expected counter is reached: if it is the zero of the start, this one reaches it
      have hsome : ∃ x, ⟨x, .RW⟩ ∈ c'.replicas := by
        rcases h.reached with h0 | hx
        · exact ⟨a, (hrw a).mpr ⟨hm, Int.le_antisymm (hbound a hm) (by rw [h0]; exact hpos)⟩⟩
        · exact hx
      obtain ⟨x, hx⟩ := hsome
      obtain ⟨hxm, hxe⟩ := (hrw x).mp hx
      refine ⟨⟨_, hx, rfl⟩, fun r hr hrm => ?_, expected, ⟨⟨x, hxm, hxe⟩, ?_⟩, fun r hr hrm => ?_⟩
      · obtain ⟨b, m⟩ := r
        subst hrm
        have hin : b ∈ q.available := by
          have := ((hrw b).mp hr).1
          rw [matching, List.mem_filter, decide_eq_true_iff] at this
          exact this.2.1
        rw [h.rest]
        rw [hsize, ← htruth.sizeAgain b _ (StartCall.sizeAgain_of_available hin)]
      · intro n hn
        obtain ⟨y, hy, rfl⟩ := hn
        exact hbound y hy
      · obtain ⟨b, m⟩ := r
        dsimp only at hrm
        subst hrm
        exact ((hrw b).mp hr).2
  · rw [hpass] at hno; exact absurd hno (by simp)

/-- A controller that has been started some times. -/
structure Started (β : Type) where
  ctl : Controller β
  /-- What the call found matching that attached the replicas. -/
  matching : List String
  /-- That call got through its checks. -/
  passed : Bool
  /-- What the last call returned, if there was one. -/
  returned : Option (Option CtlErr)

namespace Started

/-- A controller that has not been started. -/
def new (c : Controller β) : Started β := ⟨c, [], false, none⟩

/-- One call of `Start`. -/
def step (s : Started β) (q : StartCall β) : Option (Started β) :=
  match q.start s.ctl with
  | none => none
  | some (c, err) =>
    if s.ctl.replicas = [] then some ⟨c, q.matching s.ctl, q.passes s.ctl, some err⟩
    else some ⟨c, s.matching, s.passed, some err⟩

/--
A call that does no harm. If there are no replicas yet and it gets through its
checks, then some replica that is available and matches has a counter that is not
negative; if there are replicas, then the call that attached them got through.
-/
def Sound (bs : Backends) (s : Started β) (q : StartCall β) : Prop :=
  if s.ctl.replicas = [] then
    q.passes s.ctl = true → ∃ a ∈ q.matching s.ctl, 0 ≤ bs.revisionCounter a
  else s.passed = true

/-- What the calls keep. -/
structure Good (bs : Backends) (s : Started β) : Prop where
  consistent : Consistent s.ctl
  settings : s.ctl.replicas = [] →
    s.ctl.isUpgrade = false ∧ s.ctl.revisionCounterDisabled = false
  usable : s.ctl.replicas ≠ [] → s.passed = true → Usable bs s.matching s.ctl
  returned : s.returned = some none → Usable bs s.matching s.ctl

theorem start_again {c : Controller β} (hr : c.replicas ≠ []) :
    ∃ err, q.start c = some (c, err) := by
  unfold StartCall.start Controller.start
  by_cases h0 : q.addresses.length = 0
  · rw [if_pos h0]; exact ⟨_, rfl⟩
  · rw [if_neg h0]
    cases checkDuplicateAddress q.addresses ∅ with
    | some e => exact ⟨_, rfl⟩
    | none => dsimp only; rw [if_pos (List.length_pos_of_ne_nil hr)]; exact ⟨_, rfl⟩

theorem Good.step {bs : Backends} {s : Started β} (h : Good bs s)
    (hne : q.addresses ≠ []) (htruth : q.answers.Truthful bs) (hsound : s.Sound bs q) :
    ∃ s', s.step q = some s' ∧ Good bs s' := by
  unfold Started.step
  unfold Sound at hsound
  by_cases hr : s.ctl.replicas = []
  · obtain ⟨hup, hrev⟩ := h.settings hr
    rw [if_pos hr] at hsound
    obtain ⟨c', err, hstart, hcons, -⟩ := start_spec h.consistent q.order q.volumeSize
      q.volumeCurrentSize q.addresses q.answers
    replace hstart : q.start s.ctl = some (c', err) := hstart
    rw [hstart]
    dsimp only
    rw [if_pos hr]
    refine ⟨_, rfl, hcons, fun hnil => ?_, fun _ hpass => ?_, fun hret => ?_⟩
    · rcases StartCall.start_cases hne hr hstart with ⟨-, -, hnd, c1, hatt, hcheck⟩ | ⟨-, -, hset⟩
      · obtain ⟨hcons1, hwo, -, hup1, hrev1, -, -⟩ := StartCall.attached_spec hnd hatt
        obtain ⟨_, hch⟩ := checkReplicas_checked hcons1 hwo (hup1.trans hup) (hrev1.trans hrev)
          hcheck
        rw [hch.rest]
        exact ⟨hup1.trans hup, hrev1.trans hrev⟩
      · obtain ⟨h1, h2⟩ := hset hnil
        exact ⟨h1.trans hup, h2.trans hrev⟩
    · exact (StartCall.usable_iff hne hr hup hrev htruth hpass hstart).mpr (hsound hpass)
    · rcases StartCall.start_cases hne hr hstart with ⟨hpass, -⟩ | ⟨-, herr, -⟩
      · exact (StartCall.usable_iff hne hr hup hrev htruth hpass hstart).mpr (hsound hpass)
      · exact absurd (Option.some.inj hret) herr
  · rw [if_neg hr] at hsound
    obtain ⟨err, hstart⟩ := start_again (q := q) hr
    rw [hstart]
    dsimp only
    rw [if_neg hr]
    exact ⟨_, rfl, h.consistent, fun hnil => absurd hnil hr, h.usable, fun _ => h.usable hr hsound⟩

/--
**Every run of starts.** A new controller with revision counters, not in an upgrade,
is started again and again, each time soundly: whenever the last call returned nil,
the volume is usable.
-/
theorem run_usable {c : Controller β} (hfresh : c.Fresh) (hup : c.isUpgrade = false)
    (hrev : c.revisionCounterDisabled = false) (bs : Backends) {qs : List (StartCall β)}
    (hqs : ∀ q ∈ qs, q.addresses ≠ [] ∧ q.answers.Truthful bs)
    (hsound : Runs.Steady Started.step (Sound bs) (new c) qs) :
    ∃ s, Runs.run Started.step (new c) qs = some s
      ∧ (s.returned = some none → Usable bs s.matching s.ctl) := by
  have hgood : Good bs (new c) :=
    ⟨consistent_fresh hfresh, fun _ => ⟨hup, hrev⟩, fun hr => absurd hfresh.replicas hr,
      fun hret => absurd hret (by simp [new])⟩
  obtain ⟨s, hs, hgood'⟩ := Runs.run_steady_total (fun s q hq h hok =>
    h.step (hqs q hq).1 (hqs q hq).2 hok) hgood hsound
  exact ⟨s, hs, hgood'.returned⟩

/-! ## Two starts -/

/-- A controller as `NewController` leaves it, with revision counters. -/
def counting : Controller Nat := { blank with revisionCounterDisabled := false }

/-- Two replicas of which the second has seen more writes. -/
def twoBackends : Backends := ⟨fun _ => 8192, fun a => if a = "a" then 3 else 5⟩

/-- Healthy answers, if there is someone to answer. -/
def answering (up : Bool) : StartAnswers Nat where
  create _ := if up then .ok 1 else .error (.other (text "connection refused"))
  size _ := .ok 8192
  sizeAgain _ := .ok 8192
  sectorSize _ := .ok 512
  getState _ := .ok "open"
  getUnmapMarkSnapChainRemoved _ := .ok false
  setUnmapMarkSnapChainRemoved _ := .ok ()
  isRevisionCounterDisabled _ := .ok false
  getLastModifyTime _ := .ok 0
  getHeadFileSize _ := .ok 0
  getRevisionCounter a := .ok (twoBackends.revisionCounter a)
  startFrontend := none

theorem truthful_answering (up : Bool) : (answering up).Truthful twoBackends where
  size _ _ h := (Except.ok.inj h).symm
  sizeAgain _ _ h := (Except.ok.inj h).symm
  getRevisionCounter _ _ h := (Except.ok.inj h).symm

/-- A start of both replicas. -/
def startBoth (up : Bool) : StartCall Nat := ⟨.listed, 8192, 8192, ["a", "b"], answering up⟩

theorem run_usable_both :
    counting.Fresh ∧ ∃ s, Runs.run Started.step (new counting) [startBoth true] = some s
      ∧ s.ctl.replicas = [⟨"a", .ERR⟩, ⟨"b", .RW⟩] ∧ Usable twoBackends s.matching s.ctl := by
  have hfresh : counting.Fresh := ⟨rfl, rfl⟩
  have hqs : ∀ q ∈ [startBoth true], q.addresses ≠ [] ∧ q.answers.Truthful twoBackends := by
    intro q hq
    rw [List.mem_singleton.mp hq]
    exact ⟨by decide, truthful_answering true⟩
  have hsound : Runs.Steady Started.step (Sound twoBackends) (new counting) [startBoth true] := by
    refine ⟨?_, fun _ _ => trivial⟩
    rw [Sound, if_pos (show (new counting).ctl.replicas = [] from rfl)]
    exact fun _ => ⟨"a", by decide, by decide⟩
  have hrun : (Runs.run Started.step (new counting) [startBoth true]).map
      (fun s => (s.returned.map (fun e => e.isNone), s.ctl.replicas))
      = some (some true, [⟨"a", .ERR⟩, ⟨"b", .RW⟩]) := by
    decide
  obtain ⟨s, hs, huse⟩ := run_usable hfresh rfl rfl twoBackends hqs hsound
  obtain ⟨s', hs', hval⟩ := Option.map_eq_some_iff.mp hrun
  obtain rfl : s = s' := Option.some.inj (hs.symm.trans hs')
  obtain ⟨hret, hrep⟩ := Prod.mk.inj hval
  obtain ⟨err, hret, hnone⟩ := Option.map_eq_some_iff.mp hret
  rw [Option.isNone_iff_eq_none.mp hnone] at hret
  exact ⟨hfresh, s, hs, hrep, huse hret⟩

/--
No replica answers the first start, which fails. The second one finds replicas in
place and returns nil, although they are all in ERR and everyone would answer now.
-/
theorem run_comes_up_without_replicas :
    (answering false).Truthful twoBackends ∧ (answering true).Truthful twoBackends
      ∧ ∃ s, Runs.run Started.step (new counting) [startBoth false, startBoth true] = some s
        ∧ s.returned = some none ∧ s.ctl.replicas = [⟨"a", .ERR⟩, ⟨"b", .ERR⟩]
        ∧ ∀ bs matching, ¬ Usable bs matching s.ctl := by
  have hrun : (Runs.run Started.step (new counting) [startBoth false, startBoth true]).map
      (fun s => (s.returned.map (fun e => e.isNone), s.ctl.replicas))
      = some (some true, [⟨"a", .ERR⟩, ⟨"b", .ERR⟩]) := by
    decide
  obtain ⟨s, hs, hval⟩ := Option.map_eq_some_iff.mp hrun
  obtain ⟨hret, hrep⟩ := Prod.mk.inj hval
  obtain ⟨err, hret, hnone⟩ := Option.map_eq_some_iff.mp hret
  rw [Option.isNone_iff_eq_none.mp hnone] at hret
  refine ⟨truthful_answering false, truthful_answering true, s, hs, hret, hrep, fun bs m hu => ?_⟩
  obtain ⟨r, hr, hm⟩ := hu.writable
  rw [hrep] at hr
  simp only [List.mem_cons, List.not_mem_nil, or_false] at hr
  rcases hr with rfl | rfl <;> exact absurd hm (by simp)

end Started

end Controller

end WeftBlock
