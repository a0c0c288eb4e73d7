import WeftBlock.Replica.CounterChannel

/-!
# Setting the counter

`SetRevisionCounter` writes the file and then swaps the cached value. It is called while
no write is pending, and that all writes have returned does not mean that the goroutine
is done: it acknowledges an increment before it adds one to the cached value. If the swap
falls between the two, the cached value is one ahead of the file.

`Quiet` is what is left once every call has returned: the goroutine is idle, or has this
one addition to make, or is of no use any more. `Settled` is the goroutine's own
invariant from then on.
-/

namespace WeftBlock.RevisionCounter

/-- The steps of the goroutine. -/
def CounterEvent.isWorker : CounterEvent → Bool
  | .take | .write _ | .ack | .add | .close | .cancel => true
  | _ => false

/-- The steps of `SetRevisionCounter`. -/
def CounterEvent.isSet : CounterEvent → Bool
  | .setWrite _ | .setSwap => true
  | _ => false

variable {s s' : Counter} {es : List CounterEvent}

namespace Counter

/-! ## No call is pending -/

/-- Nobody waits, nothing was asked for, and the goroutine has no request in hand. -/
structure Quiet (s : Counter) : Prop where
  waiting : s.waiting = 0
  requests : s.worker ≠ .stopped → s.requests = 0
  inHand : ∀ counter, s.worker ≠ .loaded counter

/-- Once every call has returned without an error, the counter is quiet. -/
theorem Accounts.quiet {s : Counter} (h : Accounts s) (hall : s.returned = s.begun) : Quiet s := by
  refine ⟨?_, fun hlive => ?_, fun counter hw => ?_⟩
  · have := h.calls
    omega
  · obtain ⟨-, -, hreq, hack⟩ := h.worker rfl hlive
    omega
  · obtain ⟨-, -, hreq, hack⟩ := h.worker hw (by simp)
    simp only [Counter.inHand, hw] at hreq
    omega

/-- The addition that the goroutine still has to make. -/
def added (s : Counter) : Counter :=
  { s with revisionCache := s.revisionCache + 1, worker := .idle }

/-- All that the goroutine can do is to add, or to come to an end. -/
theorem Quiet.step (h : Quiet s) {e : CounterEvent} (he : e.isWorker) (hs : s.step e = some s') :
    Quiet s' ∧ (s.worker = .adding ∧ s' = s.added ∨ s'.worker = .stopped) := by
  have ⟨hwait, hreq, hhand⟩ := h
  cases e with
  | take =>
    rw [Counter.step, if_neg (fun ht => ht.2 (hreq (by rw [ht.1]; simp)))] at hs
    simp at hs
  | write fault =>
    simp only [Counter.step] at hs
    split at hs
    · rename_i hw
      exact absurd hw (hhand _)
    · rename_i hw
      exact absurd hw (hhand _)
    · simp at hs
  | ack =>
    rw [Counter.step, if_pos hwait] at hs
    simp at hs
  | add =>
    obtain ⟨hw, rfl⟩ := Option.ite_some_none_eq_some.mp hs
    exact ⟨⟨hwait, fun _ => hreq (by rw [hw]; simp), fun _ => by simp⟩, .inl ⟨hw, rfl⟩⟩
  | close | cancel =>
    obtain ⟨-, rfl⟩ := Option.ite_some_none_eq_some.mp hs
    exact ⟨⟨hwait, fun hlive => absurd rfl hlive, fun _ => by simp⟩, .inr rfl⟩
  | begin | data | send | receive | setWrite | setSwap =>
    exact absurd he (by simp [CounterEvent.isWorker])

/-- The goroutine that is idle or has an addition to make. -/
def Alive (s : Counter) : Prop := s.worker = .idle ∨ s.worker = .adding

section

variable (h : Quiet s) (hes : ∀ e ∈ es, e.isWorker) (hrun : Runs.run Counter.step s es = some s')
include h hes hrun

theorem Quiet.run : Quiet s' :=
  Runs.run_invariant_mem (fun _ e he _ hq hs => (Quiet.step hq (hes e he) hs).1) h hrun

/-- **A quiet goroutine that is alive in the end has made its addition, or nothing.** -/
theorem Quiet.run_alive (halive : s'.Alive) :
    s.Alive ∧ (s' = s ∨ s.worker = .adding ∧ s' = s.added) := by
  induction es generalizing s with
  | nil =>
    obtain rfl := Option.some.inj hrun
    exact ⟨halive, .inl rfl⟩
  | cons e es ih =>
    obtain ⟨s₁, hs, hrun₁⟩ := Runs.run_cons_iff.mp hrun
    obtain ⟨hq₁, hcase⟩ := h.step (hes e List.mem_cons_self) hs
    obtain ⟨halive₁, hrest⟩ := ih hq₁ (fun e' he' => hes e' (List.mem_cons_of_mem _ he')) hrun₁
    rcases hcase with ⟨hadding, rfl⟩ | hstop
    · rcases hrest with rfl | ⟨hadd, -⟩
      · exact ⟨.inr hadding, .inr ⟨hadding, rfl⟩⟩
      · exact absurd hadd (by simp [added])
    · rcases halive₁ with hw | hw
      · exact absurd (hstop.symm.trans hw) (by simp)
      · exact absurd (hstop.symm.trans hw) (by simp)

end

/-! ## The goroutine's own invariant -/

/-- The counter stands at `n`, with the cached value one behind until the addition. -/
def StandsAt (s : Counter) (n : Int64) : Prop :=
  match s.worker with
  | .idle => s.revisionCache = n ∧ readRevisionCounter s.file = some n
  | .loaded counter => s.revisionCache = n ∧ counter = n + 1
  | .acking true | .adding => s.revisionCache + 1 = n ∧ readRevisionCounter s.file = some n
  | _ => True

/-- The counter was `c` when `base` increments had been written, and counts from there. -/
def Settled (c : Int64) (base : Nat) (s : Counter) : Prop :=
  ∃ k, s.incremented = base + k ∧ s.StandsAt (c + Int64.ofNat k)

theorem add_ofNat_succ (c : Int64) (k : Nat) :
    c + Int64.ofNat (k + 1) = c + Int64.ofNat k + 1 := by
  rw [Int64.ofNat_add, ← Int64.add_assoc]
  rfl

/-- **Every step of a call or of the goroutine keeps the count.** -/
theorem Settled.step {c : Int64} {base : Nat} (h : Settled c base s)
    {e : CounterEvent} (he : e.isSet = false) (hs : s.step e = some s') : Settled c base s' := by
  obtain ⟨k, hk, hat⟩ := h
  cases e with
  | begin =>
    obtain rfl := Option.some.inj hs
    exact ⟨k, hk, hat⟩
  | data ok =>
    obtain ⟨-, hs⟩ := Option.ite_none_left_eq_some.mp hs
    cases ok with
    | true =>
      obtain rfl := Option.some.inj hs
      exact ⟨k, hk, hat⟩
    | false =>
      obtain rfl := Option.some.inj hs
      exact ⟨k, hk, hat⟩
  | send =>
    obtain ⟨-, hs⟩ := Option.ite_none_left_eq_some.mp hs
    obtain rfl := Option.some.inj hs
    exact ⟨k, hk, hat⟩
  | take =>
    obtain ⟨hidle, rfl⟩ := Option.ite_some_none_eq_some.mp hs
    simp only [StandsAt, hidle.1] at hat
    exact ⟨k, hk, hat.1, congrArg (· + 1) hat.1⟩
  | write fault =>
    simp only [Counter.step] at hs
    split at hs
    · rename_i hw
      obtain rfl := Option.some.inj hs
      simp only [StandsAt, hw] at hat
      obtain ⟨hcache, rfl⟩ := hat
      have hread := readRevisionCounter_flush s.file (c + Int64.ofNat k + 1)
      refine ⟨k + 1, congrArg (· + 1) hk, ?_⟩
      rw [add_ofNat_succ]
      exact ⟨congrArg (· + 1) hcache, hread⟩
    · obtain rfl := Option.some.inj hs
      exact ⟨k, hk, trivial⟩
    · simp at hs
  | ack =>
    obtain ⟨-, hs⟩ := Option.ite_none_left_eq_some.mp hs
    split at hs
    · rename_i hw
      obtain rfl := Option.some.inj hs
      simp only [StandsAt, hw] at hat
      exact ⟨k, hk, hat⟩
    · obtain rfl := Option.some.inj hs
      exact ⟨k, hk, trivial⟩
    · simp at hs
  | receive =>
    obtain ⟨-, rfl⟩ := Option.ite_some_none_eq_some.mp hs
    exact ⟨k, hk, hat⟩
  | add =>
    obtain ⟨hw, rfl⟩ := Option.ite_some_none_eq_some.mp hs
    simp only [StandsAt, hw] at hat
    exact ⟨k, hk, hat⟩
  | close | cancel =>
    obtain ⟨-, rfl⟩ := Option.ite_some_none_eq_some.mp hs
    exact ⟨k, hk, trivial⟩
  | setWrite | setSwap => exact Bool.noConfusion he

/-- An idle goroutine has counted the calls that returned. -/
theorem Settled.run {c : Int64} (ha : Accounts s) (hidle : s.worker = .idle)
    (hcache : s.revisionCache = c) (hfile : readRevisionCounter s.file = some c) (hes : ∀ e ∈ es, e.isSet = false)
    (hrun : Runs.run Counter.step s es = some s') (hidle' : s'.worker = .idle) :
    s'.revisionCache = c + Int64.ofNat (s'.returned - s.returned)
      ∧ readRevisionCounter s'.file = some (c + Int64.ofNat (s'.returned - s.returned)) := by
  have hstart : Settled c s.incremented s := by
    refine ⟨0, rfl, ?_⟩
    simp only [StandsAt, hidle]
    exact ⟨by rw [hcache]; exact (Int64.add_zero c).symm, by rw [hfile]; exact congrArg some (Int64.add_zero c).symm⟩
  obtain ⟨k, hk, hat⟩ := Runs.run_invariant_mem
    (fun _ e he _ hinv hs => Settled.step hinv (hes e he) hs) hstart hrun
  -- every increment was acknowledged, before and after
  obtain ⟨-, -, -, hack⟩ := ha.worker hidle (by simp)
  obtain ⟨-, -, -, hack'⟩ := (ha.run hrun).worker hidle' (by simp)
  rw [unacknowledged, hidle] at hack
  rw [unacknowledged, hidle'] at hack'
  simp only [StandsAt, hidle'] at hat
  obtain rfl : k = s'.returned - s.returned := by
    simp only [reduceCtorEq, if_false] at hack hack'
    omega
  exact hat

/-! ## The call -/

/-- The state after the swap. -/
def swapped (s : Counter) (counter : Int64) : Counter :=
  { s with revisionCache := counter, setting := none }

/-- What the first half of the call leaves, if the goroutine is alive afterwards. -/
theorem Quiet.setWrite {s t : Counter} (h : Quiet s) {c : Int64} {a b : List CounterEvent}
    (ha : ∀ e ∈ a, e.isWorker) (hb : ∀ e ∈ b, e.isWorker)
    (hrun : Runs.run Counter.step s (a ++ .setWrite c :: b) = some t) :
    Quiet t ∧ (t.Alive → t.setting = some c ∧ readRevisionCounter t.file = some c) := by
  obtain ⟨s₁, hs₁, hrest⟩ := Runs.run_append_iff.mp hrun
  obtain ⟨s₂, hs₂, hs₃⟩ := Runs.run_cons_iff.mp hrest
  have hq₁ := h.run ha hs₁
  obtain ⟨-, rfl⟩ := Option.ite_some_none_eq_some.mp hs₂
  have hq₂ : Quiet { s₁ with
      file := RevisionCounter.flush s₁.file (block c), setting := some c } :=
    ⟨hq₁.waiting, hq₁.requests, hq₁.inHand⟩
  have hread := readRevisionCounter_flush s₁.file c
  refine ⟨hq₂.run hb hs₃, fun halive => ?_⟩
  obtain ⟨-, rfl | ⟨-, rfl⟩⟩ := hq₂.run_alive hb hs₃ halive
  · exact ⟨rfl, hread⟩
  · exact ⟨rfl, hread⟩

/-- What the swap leaves once the goroutine is idle. -/
theorem Quiet.setSwap {t u : Counter} (h : Quiet t) {d : List CounterEvent}
    (hd : ∀ e ∈ d, e.isWorker) (hrun : Runs.run Counter.step t (.setSwap :: d) = some u)
    (hidle : u.worker = .idle) :
    ∃ c, t.setting = some c ∧ (t.worker = .idle ∧ u = t.swapped c
      ∨ t.worker = .adding ∧ u = (t.swapped c).added) := by
  obtain ⟨t₁, ht₁, hrest⟩ := Runs.run_cons_iff.mp hrun
  obtain ⟨c, hc, rfl⟩ := Option.map_eq_some_iff.mp ht₁
  have hq : Quiet (t.swapped c) := ⟨h.waiting, h.requests, h.inHand⟩
  refine ⟨c, hc, ?_⟩
  obtain ⟨-, rfl | ⟨hadding, rfl⟩⟩ := hq.run_alive hd hrest (.inl hidle)
  · exact .inl ⟨hidle, rfl⟩
  · exact .inr ⟨hadding, rfl⟩

/--
**Setting the counter sticks** exactly when the goroutine has no addition left to make at
the swap. Every call made so far has returned without an error; the goroutine takes its
steps `a` before the file is written, `b` before the swap and `d` after it.
-/
theorem set_sticks_iff {revisionCache : Int64} {file : List UInt8} {es a b d : List CounterEvent}
    {s t u : Counter} {c : Int64}
    (hbefore : Runs.run step (start revisionCache file) es = some s) (hall : s.returned = s.begun)
    (hwrite : Runs.run step s (a ++ .setWrite c :: b) = some t)
    (hswap : Runs.run step t (.setSwap :: d) = some u) (ha : ∀ e ∈ a, e.isWorker)
    (hb : ∀ e ∈ b, e.isWorker) (hd : ∀ e ∈ d, e.isWorker) (hidle : u.worker = .idle) :
    (u.revisionCache = c ∧ readRevisionCounter u.file = some c
        ∧ ∀ es v, (∀ e ∈ es, e.isSet = false) → Runs.run step u es = some v → v.worker = .idle →
            v.revisionCache = c + Int64.ofNat (v.returned - u.returned)
              ∧ readRevisionCounter v.file = some (c + Int64.ofNat (v.returned - u.returned)))
      ↔ t.worker ≠ .adding := by
  have hs : Accounts s := (accounts_start revisionCache file).run hbefore
  have hu : Accounts u := (hs.run hwrite).run hswap
  obtain ⟨hquiet, hset⟩ := (hs.quiet hall).setWrite ha hb hwrite
  obtain ⟨c', hc', ⟨hw, rfl⟩ | ⟨hw, rfl⟩⟩ := hquiet.setSwap hd hswap hidle
  · obtain ⟨hsetting, hread⟩ := hset (.inl hw)
    obtain rfl : c' = c := Option.some.inj (hc'.symm.trans hsetting)
    refine iff_of_true ⟨rfl, hread, fun es v hes hrun hidle' => ?_⟩ (by rw [hw]; simp)
    exact Settled.run hu hidle rfl hread hes hrun hidle'
  · -- the addition comes after the swap
    obtain ⟨hsetting, -⟩ := hset (.inr hw)
    obtain rfl : c' = c := Option.some.inj (hc'.symm.trans hsetting)
    refine iff_of_false (fun hstuck => ?_) (not_not_intro hw)
    exact absurd (Int64.add_eq_left.mp hstuck.1) (by decide)

/-- A state with one write counted and nothing else going on. -/
def once (revisionCache : Int64) (file : List UInt8) (worker : Worker) (setting : Option Int64) :
    Counter :=
  ⟨revisionCache, file, worker, 0, 0, 0, 0, false, setting, 1, 1, 1⟩

theorem run_once (revisionCache : Int64) (file : List UInt8) :
    Runs.run step (start revisionCache file)
        [.begin, .data true, .send, .take, .write none, .ack]
      = some (once revisionCache (flush file (block (revisionCache + 1))) .adding none) := by
  refine (Runs.run_cons rfl _).trans ((Runs.run_cons rfl _).trans ((Runs.run_cons rfl _).trans ?_))
  exact (Runs.run_cons rfl _).trans ((Runs.run_cons rfl _).trans (Runs.run_cons rfl _))

/-- The goroutine adds before the swap, and the counter is set. -/
theorem set_sticks_added :
    ∃ u, Runs.run step (once 5 (flush [] (block 6)) .adding none) [.add, .setWrite 10, .setSwap]
        = some u ∧ u.revisionCache = 10 ∧ readRevisionCounter u.file = some 10 := by
  have hafter := set_sticks_iff (a := [.add]) (b := []) (d := []) (c := 10)
    (t := once 6 (flush (flush [] (block 6)) (block 10)) .idle (some 10))
    (u := once 10 (flush (flush [] (block 6)) (block 10)) .idle none)
    (run_once 5 []) rfl ((Runs.run_cons rfl _).trans (Runs.run_cons rfl _)) (Runs.run_cons rfl _)
    (by simp [CounterEvent.isWorker]) (by simp) (by simp) rfl
  obtain ⟨hcache, hfile, -⟩ := hafter.mpr (by simp [once])
  refine ⟨_, ?_, hcache, hfile⟩
  exact (Runs.run_cons rfl _).trans ((Runs.run_cons rfl _).trans (Runs.run_cons rfl _))

/-- The goroutine adds after the swap: the cached value is 11 and the file holds 10. -/
theorem set_then_added :
    ∃ u, Runs.run step (start 5 []) [.begin, .data true, .send, .take, .write none, .ack,
        .setWrite 10, .setSwap, .add] = some u
      ∧ u.returned = u.begun ∧ u.worker = .idle ∧ u.revisionCache = 11
      ∧ readRevisionCounter u.file = some 10 := by
  refine ⟨once 11 (flush (flush [] (block 6)) (block 10)) .idle none, ?_, rfl, rfl, rfl,
    readRevisionCounter_flush _ 10⟩
  refine (Runs.run_append (run_once 5 []) [.setWrite 10, .setSwap, .add]).trans ?_
  exact (Runs.run_cons rfl _).trans ((Runs.run_cons rfl _).trans (Runs.run_cons rfl _))

end Counter

end WeftBlock.RevisionCounter
