import WeftBlock.Replica.RevisionCounter

/-!
# Counting the writes

`WriteAt` and `UnmapAt` send a request to a goroutine that increments the revision
counter, do their own work, and then wait for an acknowledgement. Requests and
acknowledgements go over two channels and are not paired: a call takes whichever
acknowledgement comes next. The goroutine writes the file, acknowledges, and only then
updates the cached value. After a write of the file failed it acknowledges the error,
closes the channel and ends.

Calls are interchangeable, so the state counts them. An acknowledgement is handed over
between the goroutine and one call at the same time, since the channel has no buffer;
receiving from a channel that is closed gives a nil error at once.
-/

namespace WeftBlock.RevisionCounter

/-- Where the goroutine of `initRevisionCounter` stands. -/
inductive Worker
  | idle
  /-- It has a request and the value to be written. -/
  | loaded (counter : Int64)
  /-- It waits for a call that takes the acknowledgement. -/
  | acking (ok : Bool)
  /-- It is about to add one to the cached value. -/
  | adding
  /-- It is about to close the channel. -/
  | closing
  | stopped
  deriving DecidableEq

/-- The counter of an open replica, with its goroutine and its calls. -/
structure Counter where
  revisionCache : Int64
  file : List UInt8
  worker : Worker
  /-- Calls whose request is not in the channel yet. -/
  senders : Nat
  /-- Requests in `revisionCounterReqChan`. -/
  requests : Nat
  /-- Calls that are writing or unmapping data. -/
  running : Nat
  /-- Calls that wait for an acknowledgement. -/
  waiting : Nat
  /-- `revisionCounterAckChan` is closed. -/
  closed : Bool
  /-- The value of the `SetRevisionCounter` that has written the file and not the cache. -/
  setting : Option Int64
  /-- Calls that were made. -/
  begun : Nat
  /-- Calls that returned without an error. -/
  returned : Nat
  /-- Increments that were written to the file. -/
  incremented : Nat

/-- What can happen. A write of the file that fails leaves something in it. -/
inductive CounterEvent
  | begin
  | data (ok : Bool)
  | send
  | take
  | write (fault : Option (List UInt8))
  | ack
  | receive
  | add
  | close
  | cancel
  | setWrite (counter : Int64)
  | setSwap
  deriving DecidableEq

namespace Counter

/-- The capacity of `revisionCounterReqChan`. -/
def requestCapacity : Nat := 1024

/-- A replica that was just opened. -/
def start (revisionCache : Int64) (file : List UInt8) : Counter :=
  ⟨revisionCache, file, .idle, 0, 0, 0, 0, false, none, 0, 0, 0⟩

/-- One step of a call, of the goroutine or of `SetRevisionCounter`. -/
def step (s : Counter) : CounterEvent → Option Counter
  | .begin => some { s with
      senders := s.senders + 1, running := s.running + 1, begun := s.begun + 1 }
  | .data ok =>
    if s.running = 0 then none
    else if ok then some { s with running := s.running - 1, waiting := s.waiting + 1 }
    else some { s with running := s.running - 1 }
  | .send =>
    if s.senders = 0 ∨ requestCapacity ≤ s.requests then none
    else some { s with senders := s.senders - 1, requests := s.requests + 1 }
  | .take =>
    if s.worker = .idle ∧ s.requests ≠ 0 then
      some { s with requests := s.requests - 1, worker := .loaded (s.revisionCache + 1) }
    else none
  | .write fault =>
    match s.worker, fault with
    | .loaded counter, none => some { s with
        file := flush s.file (block counter), incremented := s.incremented + 1
        worker := .acking true }
    | .loaded _, some file => some { s with file := file, worker := .acking false }
    | _, _ => none
  | .ack =>
    if s.waiting = 0 then none
    else
      match s.worker with
      | .acking true => some { s with
          waiting := s.waiting - 1, returned := s.returned + 1, worker := .adding }
      | .acking false => some { s with waiting := s.waiting - 1, worker := .closing }
      | _ => none
  | .receive =>
    if s.closed ∧ s.waiting ≠ 0 then
      some { s with waiting := s.waiting - 1, returned := s.returned + 1 }
    else none
  | .add =>
    if s.worker = .adding then some { s with revisionCache := s.revisionCache + 1, worker := .idle }
    else none
  | .close => if s.worker = .closing then some { s with closed := true, worker := .stopped } else none
  | .cancel => if s.worker = .idle then some { s with worker := .stopped } else none
  | .setWrite counter =>
    if s.setting = none then
      some { s with file := flush s.file (block counter), setting := some counter }
    else none
  | .setSwap => s.setting.map (fun counter => { s with revisionCache := counter, setting := none })

/-! ## The accounts -/

/-- A request the goroutine has in hand. -/
def inHand (s : Counter) : Nat :=
  match s.worker with
  | .loaded _ => 1
  | _ => 0

/-- An increment that was written and not acknowledged. -/
def unacknowledged (s : Counter) : Nat := if s.worker = .acking true then 1 else 0

/-- The books of the calls and of their requests. -/
structure Accounts (s : Counter) : Prop where
  calls : s.running + s.waiting + s.returned ≤ s.begun
  requests : s.senders + s.requests + s.inHand + s.incremented ≤ s.begun
  closed : s.closed = true → s.worker = .stopped
  /-- While the channel is open each increment is acknowledged once. -/
  acknowledged : s.closed = false → s.incremented = s.returned + s.unacknowledged
  answered : s.closed = true → s.incremented ≤ s.returned

theorem accounts_start (revisionCache : Int64) (file : List UInt8) :
    Accounts (start revisionCache file) :=
  ⟨Nat.le_refl 0, Nat.le_refl 0, fun h => absurd h (by simp [start]), fun _ => rfl,
    fun _ => Nat.le_refl 0⟩

/-- The goroutine runs only while the channel is open. -/
theorem Accounts.open_of_worker {s : Counter} (h : Accounts s) (hw : s.worker ≠ .stopped) :
    s.closed = false := by
  by_contra hc
  exact hw (h.closed (by simpa using hc))

theorem Accounts.of_open {s : Counter} (hc : s.closed = false)
    (calls : s.running + s.waiting + s.returned ≤ s.begun)
    (requests : s.senders + s.requests + s.inHand + s.incremented ≤ s.begun)
    (acknowledged : s.incremented = s.returned + s.unacknowledged) : Accounts s :=
  ⟨calls, requests, fun h => absurd (hc.symm.trans h) (by simp), fun _ => acknowledged,
    fun h => absurd (hc.symm.trans h) (by simp)⟩

/-- The books in a step of the goroutine, which the channel is open in. -/
theorem Accounts.worker {s : Counter} (h : Accounts s) {w : Worker} (hw : s.worker = w)
    (hlive : w ≠ .stopped) : s.closed = false ∧ s.running + s.waiting + s.returned ≤ s.begun
      ∧ s.senders + s.requests + s.inHand + s.incremented ≤ s.begun
      ∧ s.incremented = s.returned + s.unacknowledged := by
  have hc := h.open_of_worker (by rw [hw]; exact hlive)
  exact ⟨hc, h.calls, h.requests, h.acknowledged hc⟩

/-- **Every step keeps the books.** -/
theorem Accounts.step {s s' : Counter} (h : Accounts s) {e : CounterEvent}
    (hs : s.step e = some s') : Accounts s' := by
  have ⟨hcalls, hreq, hclosed, hack, hans⟩ := h
  cases e with
  | begin =>
    obtain rfl := Option.some.inj hs
    refine ⟨?_, ?_, hclosed, hack, hans⟩
    · dsimp only
      omega
    · show s.senders + 1 + s.requests + s.inHand + s.incremented ≤ s.begun + 1
      omega
  | data ok =>
    obtain ⟨hrun, hs⟩ := Option.ite_none_left_eq_some.mp hs
    cases ok with
    | true =>
      obtain rfl := Option.some.inj hs
      exact ⟨by dsimp only; omega, hreq, hclosed, hack, hans⟩
    | false =>
      obtain rfl := Option.some.inj hs
      exact ⟨by dsimp only; omega, hreq, hclosed, hack, hans⟩
  | send =>
    obtain ⟨hsend, hs⟩ := Option.ite_none_left_eq_some.mp hs
    obtain rfl := Option.some.inj hs
    refine ⟨hcalls, ?_, hclosed, hack, hans⟩
    show s.senders - 1 + (s.requests + 1) + s.inHand + s.incremented ≤ s.begun
    omega
  | take =>
    obtain ⟨⟨hw, hsome⟩, rfl⟩ := Option.ite_some_none_eq_some.mp hs
    obtain ⟨hc, -, hreq, hack⟩ := h.worker hw (by simp)
    rw [inHand, hw] at hreq
    rw [unacknowledged, hw] at hack
    refine .of_open hc hcalls ?_ hack
    show s.senders + (s.requests - 1) + 1 + s.incremented ≤ s.begun
    omega
  | write fault =>
    simp only [Counter.step] at hs
    split at hs
    · -- the increment is in the file and not acknowledged
      rename_i hw
      obtain rfl := Option.some.inj hs
      obtain ⟨hc, -, hreq, hack⟩ := h.worker hw (by simp)
      simp only [inHand, hw] at hreq
      rw [unacknowledged, hw] at hack
      refine .of_open hc hcalls ?_ (congrArg (· + 1) hack)
      show s.senders + s.requests + 0 + (s.incremented + 1) ≤ s.begun
      omega
    · rename_i hw
      obtain rfl := Option.some.inj hs
      obtain ⟨hc, -, hreq, hack⟩ := h.worker hw (by simp)
      rw [unacknowledged, hw] at hack
      refine .of_open hc hcalls ?_ hack
      show s.senders + s.requests + 0 + s.incremented ≤ s.begun
      omega
    · simp at hs
  | ack =>
    obtain ⟨hwait, hs⟩ := Option.ite_none_left_eq_some.mp hs
    split at hs
    · rename_i hw
      obtain rfl := Option.some.inj hs
      obtain ⟨hc, -, hreq, hack⟩ := h.worker hw (by simp)
      rw [inHand, hw] at hreq
      rw [unacknowledged, if_pos hw] at hack
      exact .of_open hc (by dsimp only; omega) hreq hack
    · rename_i hw
      obtain rfl := Option.some.inj hs
      obtain ⟨hc, -, hreq, hack⟩ := h.worker hw (by simp)
      rw [inHand, hw] at hreq
      rw [unacknowledged, hw] at hack
      exact .of_open hc (by dsimp only; omega) hreq hack
    · simp at hs
  | receive =>
    obtain ⟨⟨hc, hwait⟩, rfl⟩ := Option.ite_some_none_eq_some.mp hs
    refine ⟨by dsimp only; omega, hreq, hclosed, fun hopen => ?_, fun _ => ?_⟩
    · exact absurd (hc.symm.trans hopen) (by simp)
    · exact Nat.le_succ_of_le (hans hc)
  | add | cancel =>
    obtain ⟨hw, rfl⟩ := Option.ite_some_none_eq_some.mp hs
    obtain ⟨hc, -, hreq, hack⟩ := h.worker hw (by simp)
    rw [inHand, hw] at hreq
    rw [unacknowledged, hw] at hack
    exact .of_open hc hcalls hreq hack
  | close =>
    obtain ⟨hw, rfl⟩ := Option.ite_some_none_eq_some.mp hs
    obtain ⟨hc, -, hreq, hack⟩ := h.worker hw (by simp)
    rw [inHand, hw] at hreq
    rw [unacknowledged, hw] at hack
    exact ⟨hcalls, hreq, fun _ => rfl, fun hopen => absurd hopen (by simp),
      fun _ => Nat.le_of_eq hack⟩
  | setWrite counter =>
    obtain ⟨-, rfl⟩ := Option.ite_some_none_eq_some.mp hs
    exact ⟨hcalls, hreq, hclosed, hack, hans⟩
  | setSwap =>
    obtain ⟨counter, -, rfl⟩ := Option.map_eq_some_iff.mp hs
    exact ⟨hcalls, hreq, hclosed, hack, hans⟩

theorem Accounts.run {s s' : Counter} (h : Accounts s) {es : List CounterEvent}
    (hrun : Runs.run Counter.step s es = some s') : Accounts s' :=
  Runs.run_invariant (fun _ _ _ ha hs => Accounts.step ha hs) h hrun

/-! ## Returned calls and written increments -/

/-- The event is not a call that takes its answer from the closed channel. -/
def Answered (s : Counter) : CounterEvent → Prop
  | .receive => ¬ (s.closed ∧ s.waiting ≠ 0)
  | _ => True

/-- Only a call that takes its answer from the closed channel returns uncounted. -/
theorem Accounts.step_counted {s s' : Counter} (h : Accounts s) {e : CounterEvent}
    (he : e ≠ .receive) (hg : s.returned ≤ s.incremented) (hs : s.step e = some s') :
    s'.returned ≤ s'.incremented := by
  cases e with
  | receive => exact absurd rfl he
  | ack =>
    -- the goroutine has just written the increment it acknowledges
    obtain ⟨-, hs⟩ := Option.ite_none_left_eq_some.mp hs
    split at hs
    · rename_i hw
      obtain ⟨-, -, -, hack⟩ := h.worker hw (by simp)
      rw [unacknowledged, if_pos hw] at hack
      obtain rfl := Option.some.inj hs
      exact Nat.le_of_eq hack.symm
    · obtain rfl := Option.some.inj hs
      exact hg
    · simp at hs
  | write fault =>
    simp only [Counter.step] at hs
    split at hs
    · obtain rfl := Option.some.inj hs
      exact Nat.le_succ_of_le hg
    · obtain rfl := Option.some.inj hs
      exact hg
    · simp at hs
  | setSwap =>
    obtain ⟨counter, -, rfl⟩ := Option.map_eq_some_iff.mp hs
    exact hg
  | begin | data | send | take | add | close | cancel | setWrite =>
    simp only [Counter.step, Option.ite_none_left_eq_some, Option.ite_none_right_eq_some] at hs
    grind

/--
**Returned calls are counted**, in every state of the run, exactly when no call takes its
answer from the channel after the goroutine closed it.
-/
theorem run_counted_iff (revisionCache : Int64) (file : List UInt8) (es : List CounterEvent) :
    (∀ k s, Runs.run step (start revisionCache file) (es.take k) = some s →
        s.returned ≤ s.incremented)
      ↔ Runs.Steady step Answered (start revisionCache file) es := by
  refine (Runs.steady_iff Accounts ?_ (accounts_start revisionCache file) (Nat.le_refl 0)).symm
  intro s e h hg
  by_cases he : e = .receive
  · subst he
    by_cases hc : s.closed ∧ s.waiting ≠ 0
    · refine .inr ⟨_, if_pos hc, h.step (e := .receive) (if_pos hc), iff_of_false (not_not_intro hc) ?_⟩
      have := h.answered hc.1
      dsimp only
      omega
    · exact .inl ⟨if_neg hc, hc⟩
  · have hok : Answered s e := by
      cases e with
      | receive => exact absurd rfl he
      | _ => trivial
    cases hs : s.step e with
    | none => exact .inl ⟨rfl, hok⟩
    | some s' =>
      exact .inr ⟨s', rfl, h.step hs, iff_of_true hok (h.step_counted he hg hs)⟩

/--
Two writes, and the file can not be written: the first call gets the error, the second
one finds the channel closed and returns without an error.
-/
theorem run_returns_uncounted :
    ∃ s, Runs.run step (start 0 []) [.begin, .begin, .data true, .data true, .send, .send, .take,
        .write (some []), .ack, .close, .receive] = some s
      ∧ s.incremented < s.returned :=
  ⟨_, rfl, Nat.zero_lt_one⟩

end Counter

end WeftBlock.RevisionCounter
