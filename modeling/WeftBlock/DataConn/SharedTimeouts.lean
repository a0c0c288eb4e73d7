import WeftBlock.DataConn.Client

/-!
# Clients that share their timeouts

The clients of one controller share a `util.SharedTimeouts`: how many of them there are, and
two durations. A client that gets no response is given up after the short one while there are
others, and after the long one otherwise. Each loop counts itself in when it begins; it counts
itself out when it times out, or else when it ends.

A transport error does neither. The client is of no use from then on, but it stays in the count
until its loop ends, and the last client that works is given up after the short timeout.
-/

namespace WeftBlock.DataConn

open Maps

/-- `SharedTimeouts`. -/
structure SharedTimeouts where
  longTimeout : Int
  shortTimeout : Int
  numConsumers : Int

/-- `NewSharedTimeouts`. -/
def newSharedTimeouts (shortTimeout longTimeout : Int) : SharedTimeouts where
  longTimeout := longTimeout
  shortTimeout := shortTimeout
  numConsumers := 0

namespace SharedTimeouts

/-- `Increment`. -/
def increment (t : SharedTimeouts) : SharedTimeouts :=
  { t with numConsumers := t.numConsumers + 1 }

/-- `Decrement`. -/
def decrement (t : SharedTimeouts) : SharedTimeouts :=
  { t with numConsumers := t.numConsumers - 1 }

/-- `CheckAndDecrement`. -/
def checkAndDecrement (t : SharedTimeouts) (duration : Int) : SharedTimeouts × Int :=
  if duration > t.longTimeout then (t.decrement, t.longTimeout)
  else if duration > t.shortTimeout ∧ t.numConsumers > 1 then (t.decrement, t.shortTimeout)
  else (t, 0)

end SharedTimeouts

/-- A client, and what its loop keeps besides: the other variables of `Client.loop`. -/
structure Consumer where
  client : Client
  /-- The loop has begun. -/
  started : Bool
  decremented : Bool
  /-- `timeOfLastActivity`; of no meaning while the client is not active. -/
  timeOfLastActivity : Int

/-- What `NewClient` leaves, before its loop begins. -/
def newConsumer : Consumer where
  client := newClient
  started := false
  decremented := false
  timeOfLastActivity := 0

/-- The loop takes a request or a response that sets `timeOfLastActivity`. -/
def Client.touches (c : Client) : Client.Event → Bool
  | .request =>
    match c.requests with
    | [] => false
    | req :: _ => c.clientError.isNone && req.isIO && c.ioInflight == 0
  | .response _ =>
    match c.responses with
    | .message resp :: _ =>
      match c.messages.find? (fun r => r.msg.seq = resp.seq) with
      | none => false
      | some req => req.isIO
    | _ => false
  | _ => false

namespace Consumer

/-- The loop is running. -/
def running (p : Consumer) : Bool := p.started && !p.client.ended

/-- Running, and had no error. -/
def healthy (p : Consumer) : Bool := p.running && p.client.clientError.isNone

/-- What can happen to a client. -/
inductive Move
  /-- The loop begins. -/
  | start
  /-- A caller hands a request over. -/
  | call (op : Op) (buf : List UInt8) (length : UInt32) (offset : Int64)
  /-- A reader, or `SetError`, puts something on `responses`. -/
  | receive (resp : Response)
  /-- A writer takes a message from `send`. -/
  | write (err : Option (List UInt8))
  /-- `Close`. -/
  | close
  /-- The loop takes a request. -/
  | request
  /-- The loop takes a response. -/
  | response (order : MapOrder)
  /-- The loop takes a tick. -/
  | tick (order : MapOrder)
  /-- The loop takes the end. -/
  | stop

/-- A step of the client alone. -/
def act (now : Int) (p : Consumer) (e : Client.Event) : Option Consumer :=
  (p.client.step e).map (fun c =>
    { p with
      client := c
      timeOfLastActivity := if p.client.touches e then now else p.timeOfLastActivity })

/-- The loop takes a tick. -/
def onTick (now : Int) (t : SharedTimeouts) (p : Consumer) (order : MapOrder) :
    SharedTimeouts × Consumer :=
  if p.client.active = false ∨ p.client.ioInflight = 0 then (t, p)
  else
    let checked := t.checkAndDecrement (now - p.timeOfLastActivity)
    let exceeded := decide (checked.2 > 0)
    (checked.1,
      { p with
        client := p.client.onTick order exceeded
        decremented := p.decremented || exceeded })

/-- One step. There is no bound on the number of requests. -/
def step (now : Int) (t : SharedTimeouts) (p : Consumer) : Move → Option (SharedTimeouts × Consumer)
  | .start => if p.started then none else some (t.increment, { p with started := true })
  | .call op buf length offset =>
    let req : Req := ⟨p.client.handed, DataConn.request op buf length offset 0⟩
    some (t, { p with client := { p.client with
      requests := p.client.requests ++ [req], handed := p.client.handed + 1 } })
  | .receive resp => (p.act now (.receive resp)).map (t, ·)
  | .write err => (p.act now (.write err)).map (t, ·)
  | .close => (p.act now .close).map (t, ·)
  | .request => if p.running then (p.act now .request).map (t, ·) else none
  | .response order => if p.running then (p.act now (.response order)).map (t, ·) else none
  | .tick order => if p.running then some (p.onTick now t order) else none
  | .stop =>
    if p.running then
      -- the deferred function
      (p.act now .stop).map ((if p.decremented then t else t.decrement), ·)
    else none

end Consumer

/-- The clients that share one `SharedTimeouts`, and the time. -/
structure Shared where
  now : Int
  timeouts : SharedTimeouts
  consumers : List Consumer

/-- No client yet. -/
def newShared (now shortTimeout longTimeout : Int) : Shared where
  now := now
  timeouts := newSharedTimeouts shortTimeout longTimeout
  consumers := []

namespace Shared

/-- What can happen. -/
inductive Event
  /-- `NewClient`. -/
  | connect
  /-- Time passes. -/
  | pass (d : Nat)
  /-- Something happens to a client. -/
  | move (i : Nat) (m : Consumer.Move)

/-- One step. -/
def step (s : Shared) : Event → Option Shared
  | .connect => some { s with consumers := s.consumers ++ [newConsumer] }
  | .pass d => some { s with now := s.now + d }
  | .move i m =>
    match s.consumers[i]? with
    | none => none
    | some p => (p.step s.now s.timeouts m).map (fun r =>
      { s with timeouts := r.1, consumers := s.consumers.set i r.2 })

/-- The clients that are running and had no error. -/
def healthy (s : Shared) : Nat := s.consumers.countP Consumer.healthy

/-- The client is timed out now, and the long timeout has not run out. -/
def TimesOutEarly (s : Shared) (i : Nat) : Event → Prop
  | .move j (.tick _) => j = i ∧ ∃ p, s.consumers[i]? = some p ∧ p.running = true
      ∧ p.client.active = true ∧ p.client.ioInflight ≠ 0
      ∧ s.now - p.timeOfLastActivity ≤ s.timeouts.longTimeout
      ∧ (s.timeouts.checkAndDecrement (s.now - p.timeOfLastActivity)).2 > 0
  | _ => False

end Shared

/-! ## A client that had an error is waiting for nothing -/

/-- After an error nothing is pending and nothing in flight. -/
def Client.Quiet (c : Client) : Prop :=
  c.clientError.isSome = true → c.messages = [] ∧ c.ioInflight = 0

/-- The next response is an error of the transport. -/
def Client.broken (c : Client) : Bool :=
  match c.responses with
  | .transportErr _ :: _ => true
  | _ => false

variable {order : MapOrder} {c c' : Client}

namespace Client

theorem quiet_handleClientError (order : MapOrder) (c : Client) (err : List UInt8) :
    (c.handleClientError order err).Quiet := by
  intro _
  rw [handleClientError_eq]
  exact ⟨rfl, rfl⟩

theorem onRequest_spec {c : Client} (h : c.Quiet) (req : Req) :
    (c.onRequest req).Quiet ∧ (c.onRequest req).clientError = c.clientError
      ∧ (c.onRequest req).ended = c.ended := by
  cases hc : c.clientError with
  | some err =>
    obtain ⟨hm, hio⟩ := h (by rw [hc]; rfl)
    have heq : c.onRequest req = c.replyError req err true := by
      rw [onRequest, hc]
    rw [heq]
    exact ⟨fun _ => ⟨by simp [replyError, delete, hm], hio⟩, hc, rfl⟩
  | none =>
    have hnone : (c.onRequest req).clientError = none := by
      rw [onRequest, hc]
      cases req.isIO with
      | false => exact hc
      | true => rfl
    have hended : (c.onRequest req).ended = c.ended := by
      rw [onRequest, hc]
      cases req.isIO <;> rfl
    refine ⟨fun hsome => ?_, hnone, hended⟩
    rw [hnone] at hsome
    simp at hsome

/-- A response changes nothing about the error, unless it is one. -/
theorem onResponse_message {c : Client} (h : c.Quiet) (order : MapOrder) (resp : Message) :
    (c.onResponse order (.message resp)).Quiet
      ∧ (c.onResponse order (.message resp)).clientError = c.clientError
      ∧ (c.onResponse order (.message resp)).ended = c.ended := by
  rw [onResponse]
  cases hfind : c.messages.find? (fun r => r.msg.seq = resp.seq) with
  | none => exact ⟨h, rfl, rfl⟩
  | some req =>
    -- somebody waits for it, so there was no error
    have hnone : c.clientError = none := by
      cases hc : c.clientError with
      | none => rfl
      | some err =>
        rw [(h (by rw [hc]; rfl)).1] at hfind
        simp at hfind
    have hquiet : ∀ c' : Client, c'.clientError = none → c'.Quiet := by
      intro c' hc' hsome
      rw [hc'] at hsome
      simp at hsome
    cases hio : req.isIO with
    | false =>
      simp only [hio, hnone, Bool.false_eq_true, if_false]
      exact ⟨hquiet _ hnone, hnone, rfl⟩
    | true =>
      simp only [hio, hnone, if_true]
      exact ⟨hquiet _ rfl, rfl, rfl⟩

/-- What others do to the queues of a client. -/
theorem step_queues (h : c.Quiet) {e : Event} (hstep : c.step e = some c')
    (he : (∃ resp, e = .receive resp) ∨ (∃ err, e = .write err) ∨ e = .close) :
    c'.Quiet ∧ c'.clientError = c.clientError ∧ c'.ended = c.ended := by
  rcases he with ⟨resp, rfl⟩ | ⟨err, rfl⟩ | rfl
  · obtain rfl := Option.some.inj hstep
    exact ⟨h, rfl, rfl⟩
  · rw [step] at hstep
    split at hstep
    · simp at hstep
    · cases err with
      | none =>
        obtain rfl := Option.some.inj hstep
        exact ⟨h, rfl, rfl⟩
      | some err =>
        obtain rfl := Option.some.inj hstep
        exact ⟨h, rfl, rfl⟩
  · obtain rfl := Option.some.inj hstep
    exact ⟨h, rfl, rfl⟩

theorem step_request (h : c.Quiet) (hstep : c.step .request = some c') :
    c'.Quiet ∧ c'.clientError = c.clientError ∧ c'.ended = c.ended := by
  rw [step] at hstep
  split at hstep
  · rename_i req requests _ _
    obtain rfl := Option.some.inj hstep
    have hq : Quiet { c with requests := requests } := h
    exact onRequest_spec hq req
  · simp at hstep

/-- A response is an error of the transport, or changes nothing about the error. -/
theorem step_response (h : c.Quiet) (hstep : c.step (.response order) = some c') :
    c'.Quiet ∧ c'.ended = c.ended
      ∧ (c.broken = true ∧ c'.clientError.isSome = true
        ∨ c.broken = false ∧ c'.clientError = c.clientError) := by
  rw [step] at hstep
  split at hstep
  · rename_i resp responses _ hresp
    obtain rfl := Option.some.inj hstep
    cases resp with
    | transportErr err =>
      refine ⟨quiet_handleClientError _ _ _, ?_, Or.inl ⟨?_, ?_⟩⟩
      · rw [onResponse, handleClientError_eq]
      · rw [broken, hresp]
      · rw [onResponse, handleClientError_eq]
        rfl
    | message resp =>
      have hq : Quiet { c with responses := responses } := h
      obtain ⟨hq', herr, hend⟩ := onResponse_message hq order resp
      exact ⟨hq', hend, Or.inr ⟨by rw [broken, hresp], herr⟩⟩
  · simp at hstep

end Client

/-! ## The count -/

variable {p : Consumer} {now : Int}

namespace Consumer

/-- What the count rests on. -/
structure Sound (p : Consumer) : Prop where
  quiet : p.client.Quiet
  /-- A running loop has counted itself out if it had an error. -/
  flagged : p.running = true → p.decremented = p.client.clientError.isSome
  /-- Before the loop begins. -/
  idle : p.started = false →
    p.client.clientError = none ∧ p.decremented = false ∧ p.client.ended = false

/-- What the client has in the count. -/
def share (p : Consumer) : Int := if p.healthy then 1 else 0

/--
The moves that keep the count: no transport error of a client that had none, and no timeout
that is not positive runs out, for it would not be noticed.
-/
def Accounted (now : Int) (t : SharedTimeouts) (p : Consumer) : Move → Prop
  | .response _ => p.healthy = true → p.client.broken = false
  | .tick _ => p.healthy = true → p.client.active = true → p.client.ioInflight ≠ 0 →
      (now - p.timeOfLastActivity > t.longTimeout → t.longTimeout > 0)
      ∧ (now - p.timeOfLastActivity ≤ t.longTimeout →
        now - p.timeOfLastActivity > t.shortTimeout → t.numConsumers > 1 → t.shortTimeout > 0)
  | _ => True

theorem sound_newConsumer : newConsumer.Sound where
  quiet := fun h => absurd h (by simp [newConsumer, newClient])
  flagged := fun h => absurd h (by simp [running, newConsumer])
  idle := fun _ => ⟨rfl, rfl, rfl⟩

theorem share_congr {p p' : Consumer} (h : p'.healthy = p.healthy) : p'.share = p.share := by
  rw [share, share, h]

theorem healthy_iff :
    p.healthy = true ↔ p.running = true ∧ p.client.clientError = none := by
  rw [healthy, Bool.and_eq_true, Option.isNone_iff_eq_none]

/-- Nothing changes that the count depends on. -/
theorem sound_act {p p' : Consumer} {e : Client.Event} (hact : p.act now e = some p') (h : p.Sound)
    (hspec : ∀ c', p.client.step e = some c' →
      c'.Quiet ∧ c'.clientError = p.client.clientError ∧ c'.ended = p.client.ended) :
    p'.Sound ∧ p'.share = p.share := by
  obtain ⟨c', hc', rfl⟩ := Option.map_eq_some_iff.mp hact
  obtain ⟨hq, herr, hend⟩ := hspec c' hc'
  refine ⟨⟨hq, fun hrun => ?_, fun hst => ?_⟩, ?_⟩
  · rw [running, hend] at hrun
    rw [herr]
    exact h.flagged hrun
  · rw [herr, hend]
    exact h.idle hst
  · exact share_congr (by simp only [healthy, running, herr, hend])

/-- What a move does to the count: as much as to the client's share, if it is accounted for. -/
def Counted (t t' : SharedTimeouts) (p p' : Consumer) : Prop :=
  t'.numConsumers - t.numConsumers = p'.share - p.share

theorem start_counted (h : p.Sound) (hst : p.started = false) (t : SharedTimeouts) :
    Sound { p with started := true } ∧ Counted t t.increment p { p with started := true } := by
  obtain ⟨herr, hdec, hend⟩ := h.idle hst
  refine ⟨⟨h.quiet, fun _ => ?_, fun hst' => absurd hst' (by simp)⟩, ?_⟩
  · rw [hdec, herr]
    rfl
  · simp [Counted, SharedTimeouts.increment, share, healthy, running, hst, herr, hend]

theorem response_counted {p p' : Consumer} (h : p.Sound)
    (hrun : p.running = true) (hact : p.act now (.response order) = some p') (t : SharedTimeouts) :
    (Accounted now t p (.response order) → p'.Sound ∧ Counted t t p p')
      ∧ (¬ Accounted now t p (.response order) → ¬ Counted t t p p') := by
  obtain ⟨c', hc', rfl⟩ := Option.map_eq_some_iff.mp hact
  obtain ⟨hq, hend, ⟨hbroken, herr'⟩ | ⟨hbroken, herr'⟩⟩ := Client.step_response h.quiet hc'
  · -- an error of the transport: the client is healthy no more, and still counted
    have hshare : ∀ time, share { p with client := c', timeOfLastActivity := time } = 0 := by
      intro time
      rw [share, if_neg]
      rw [healthy_iff]
      rintro ⟨-, hnone⟩
      rw [hnone] at herr'
      simp at herr'
    by_cases hp : p.healthy = true
    · refine ⟨fun hok => absurd (hok hp) (by simp [hbroken]), fun _ hcount => ?_⟩
      rw [Counted, hshare, share, if_pos hp] at hcount
      omega
    · refine ⟨fun _ => ⟨⟨hq, fun _ => ?_, fun hst => ?_⟩, ?_⟩, fun hok => ?_⟩
      · change p.decremented = c'.clientError.isSome
        rw [h.flagged hrun, herr']
        cases herr : p.client.clientError with
        | none => exact absurd (healthy_iff.mpr ⟨hrun, herr⟩) hp
        | some err => rfl
      · simp [running, show p.started = false from hst] at hrun
      · rw [Counted, hshare, share, if_neg hp]
        omega
      · exact absurd (fun hh => absurd hh hp) hok
  · -- a message
    refine ⟨fun _ => ?_, fun hok => absurd (fun _ => hbroken) hok⟩
    obtain ⟨hs, hshare⟩ := sound_act hact h (fun c hc => by
      obtain rfl := Option.some.inj (hc'.symm.trans hc)
      exact ⟨hq, herr', hend⟩)
    exact ⟨hs, by rw [Counted, hshare]; omega⟩

theorem stop_counted {p p' : Consumer} (h : p.Sound) (hrun : p.running = true)
    (hact : p.act now .stop = some p') (t : SharedTimeouts) :
    p'.Sound ∧ Counted t (if p.decremented then t else t.decrement) p p' := by
  obtain ⟨c', hc', rfl⟩ := Option.map_eq_some_iff.mp hact
  obtain ⟨-, hc'⟩ := Option.ite_none_right_eq_some.mp hc'
  obtain rfl := Option.some.inj hc'
  have hst : p.started = true := by
    rw [running, Bool.and_eq_true] at hrun
    exact hrun.1
  refine ⟨⟨h.quiet, fun hrun' => absurd hrun' (by simp [running]), fun hst' => ?_⟩, ?_⟩
  · rw [show p.started = false from hst'] at hst
    simp at hst
  · rw [Counted, h.flagged hrun]
    cases herr : p.client.clientError with
    | none => simp [share, healthy, running, herr, SharedTimeouts.decrement] at hrun ⊢; omega
    | some err => simp [share, healthy, running, herr]

theorem healthy_of_waits (h : p.Sound) (hrun : p.running = true)
    (hio : p.client.ioInflight ≠ 0) : p.healthy = true := by
  refine healthy_iff.mpr ⟨hrun, ?_⟩
  cases herr : p.client.clientError with
  | none => rfl
  | some err => exact absurd (h.quiet (by rw [herr]; rfl)).2 hio

theorem onTick_waits {t : SharedTimeouts}
    (hact : p.client.active = true) (hio : p.client.ioInflight ≠ 0) :
    p.onTick now t order
      = ((t.checkAndDecrement (now - p.timeOfLastActivity)).1,
        if (t.checkAndDecrement (now - p.timeOfLastActivity)).2 > 0
        then { p with client := p.client.handleClientError order errRWTimeout, decremented := true }
        else p) := by
  have hw : ¬ (p.client.active = false ∨ p.client.ioInflight = 0) := by
    simp [hact, hio]
  rw [onTick, if_neg hw]
  by_cases hex : (t.checkAndDecrement (now - p.timeOfLastActivity)).2 > 0
  · simp [hex, Client.onTick, hact, hio]
  · simp [hex, Client.onTick]

theorem timedOut_counted (hp : p.healthy = true) (order : MapOrder) (t : SharedTimeouts) :
    let p' := { p with client := p.client.handleClientError order errRWTimeout, decremented := true }
    p'.Sound ∧ Counted t t.decrement p p' := by
  obtain ⟨hrun, herr⟩ := healthy_iff.mp hp
  rw [running, Bool.and_eq_true] at hrun
  have herr' : (p.client.handleClientError order errRWTimeout).clientError = some errRWTimeout := by
    rw [Client.handleClientError_eq]
  refine ⟨⟨Client.quiet_handleClientError _ _ _, fun _ => ?_, fun hst => ?_⟩, ?_⟩
  · rw [herr']
    rfl
  · rw [show p.started = false from hst] at hrun
    exact absurd hrun.1 (by simp)
  · rw [Counted, share, share, if_pos hp, if_neg (by simp [healthy, herr'])]
    simp [SharedTimeouts.decrement]

theorem tick_counted (h : p.Sound) (hrun : p.running = true)
    (t : SharedTimeouts) (order : MapOrder) :
    (Accounted now t p (.tick order) →
        (p.onTick now t order).2.Sound
        ∧ Counted t (p.onTick now t order).1 p (p.onTick now t order).2)
      ∧ (¬ Accounted now t p (.tick order) →
        ¬ Counted t (p.onTick now t order).1 p (p.onTick now t order).2) := by
  by_cases hw : p.client.active = false ∨ p.client.ioInflight = 0
  · -- nothing to wait for
    rw [onTick, if_pos hw]
    refine ⟨fun _ => ⟨h, by simp [Counted]⟩, fun hok => absurd ?_ hok⟩
    intro _ hact hio
    rcases hw with hw | hw
    · rw [hw] at hact
      simp at hact
    · exact absurd hw hio
  obtain ⟨hact, hio⟩ := not_or.mp hw
  rw [Bool.not_eq_false] at hact
  have hp := healthy_of_waits h hrun hio
  have hok : Accounted now t p (.tick order) ↔
      (now - p.timeOfLastActivity > t.longTimeout → t.longTimeout > 0)
      ∧ (now - p.timeOfLastActivity ≤ t.longTimeout →
        now - p.timeOfLastActivity > t.shortTimeout → t.numConsumers > 1 → t.shortTimeout > 0) :=
    ⟨fun hok => hok hp hact hio, fun hok _ _ _ => hok⟩
  rw [onTick_waits hact hio, hok]
  -- a timeout that runs out is noticed if it is positive
  have hout : ∀ (timeout : Int) (q : Consumer), q = (if timeout > 0
          then { p with client := p.client.handleClientError order errRWTimeout, decremented := true }
          else p) →
      (timeout > 0 → q.Sound ∧ Counted t t.decrement p q)
        ∧ (¬ timeout > 0 → ¬ Counted t t.decrement p q) := by
    rintro timeout q rfl
    refine ⟨fun hpos => ?_, fun hpos => ?_⟩
    · rw [if_pos hpos]
      exact timedOut_counted hp order t
    · rw [if_neg hpos]
      simp [Counted, SharedTimeouts.decrement]
  by_cases hlong : now - p.timeOfLastActivity > t.longTimeout
  · have hcheck : t.checkAndDecrement (now - p.timeOfLastActivity)
        = (t.decrement, t.longTimeout) := if_pos hlong
    rw [hcheck]
    refine ⟨fun hok => (hout _ _ rfl).1 (hok.1 hlong),
      fun hok => (hout _ _ rfl).2 (fun hpos => hok ?_)⟩
    exact ⟨fun _ => hpos, fun hle => absurd hlong (by omega)⟩
  by_cases hshort : now - p.timeOfLastActivity > t.shortTimeout ∧ t.numConsumers > 1
  · have hcheck : t.checkAndDecrement (now - p.timeOfLastActivity)
        = (t.decrement, t.shortTimeout) := by
      rw [SharedTimeouts.checkAndDecrement, if_neg hlong, if_pos hshort]
    rw [hcheck]
    refine ⟨fun hok => (hout _ _ rfl).1 (hok.2 (by omega) hshort.1 hshort.2),
      fun hok => (hout _ _ rfl).2 (fun hpos => hok ?_)⟩
    exact ⟨fun hgt => absurd hgt hlong, fun _ _ _ => hpos⟩
  · have hcheck : t.checkAndDecrement (now - p.timeOfLastActivity) = (t, 0) := by
      rw [SharedTimeouts.checkAndDecrement, if_neg hlong, if_neg hshort]
    rw [hcheck]
    refine ⟨fun _ => ⟨h, by simp [Counted]⟩, fun hok => absurd ?_ hok⟩
    exact ⟨fun hgt => absurd hgt hlong, fun _ h1 h2 => absurd ⟨h1, h2⟩ hshort⟩

/-- **One move**: the count follows the clients exactly when it is accounted for. -/
theorem step_counted {t t' : SharedTimeouts} {p p' : Consumer} {m : Move}
    (h : p.Sound) (hstep : p.step now t m = some (t', p')) :
    (Accounted now t p m → p'.Sound ∧ Counted t t' p p')
      ∧ (¬ Accounted now t p m → ¬ Counted t t' p p') := by
  -- moves that leave the count and the client's share alone
  have hown : ∀ e, (∀ c', p.client.step e = some c' →
        c'.Quiet ∧ c'.clientError = p.client.clientError ∧ c'.ended = p.client.ended) →
      (p.act now e).map (t, ·) = some (t', p') → p'.Sound ∧ Counted t t' p p' := by
    intro e hspec hmap
    obtain ⟨q, hact, heq⟩ := Option.map_eq_some_iff.mp hmap
    obtain ⟨rfl, rfl⟩ := Prod.mk.inj heq
    obtain ⟨hs, hshare⟩ := sound_act hact h hspec
    exact ⟨hs, by rw [Counted, hshare]; omega⟩
  cases m with
  | start =>
    obtain ⟨hst, heq⟩ := Option.ite_none_left_eq_some.mp hstep
    obtain ⟨rfl, rfl⟩ := Prod.mk.inj (Option.some.inj heq)
    exact ⟨fun _ => start_counted h (Bool.not_eq_true _ ▸ hst) t, fun hok => absurd trivial hok⟩
  | call op buf length offset =>
    obtain ⟨rfl, rfl⟩ := Prod.mk.inj (Option.some.inj hstep)
    refine ⟨fun _ => ⟨⟨h.quiet, h.flagged, h.idle⟩, ?_⟩, fun hok => absurd trivial hok⟩
    simp [Counted, share, healthy, running]
  | receive resp =>
    refine ⟨fun _ => hown (.receive resp) (fun c' hc' => ?_) hstep,
      fun hok => absurd trivial hok⟩
    exact Client.step_queues h.quiet hc' (Or.inl ⟨resp, rfl⟩)
  | write err =>
    refine ⟨fun _ => hown (.write err) (fun c' hc' => ?_) hstep,
      fun hok => absurd trivial hok⟩
    exact Client.step_queues h.quiet hc' (Or.inr (Or.inl ⟨err, rfl⟩))
  | close =>
    refine ⟨fun _ => hown .close (fun c' hc' => ?_) hstep, fun hok => absurd trivial hok⟩
    exact Client.step_queues h.quiet hc' (Or.inr (Or.inr rfl))
  | request =>
    obtain ⟨-, hstep⟩ := Option.ite_none_right_eq_some.mp hstep
    refine ⟨fun _ => hown _ (fun c' hc' => ?_) hstep, fun hok => absurd trivial hok⟩
    exact Client.step_request h.quiet hc'
  | response order =>
    obtain ⟨hrun, hstep⟩ := Option.ite_none_right_eq_some.mp hstep
    obtain ⟨q, hact, heq⟩ := Option.map_eq_some_iff.mp hstep
    obtain ⟨rfl, rfl⟩ := Prod.mk.inj heq
    exact response_counted h hrun hact t
  | tick order =>
    obtain ⟨hrun, hstep⟩ := Option.ite_none_right_eq_some.mp hstep
    have heq := Option.some.inj hstep
    have hcount := @tick_counted p now h hrun t order
    rwa [heq] at hcount
  | stop =>
    obtain ⟨hrun, hstep⟩ := Option.ite_none_right_eq_some.mp hstep
    obtain ⟨q, hact, heq⟩ := Option.map_eq_some_iff.mp hstep
    obtain ⟨rfl, rfl⟩ := Prod.mk.inj heq
    exact ⟨fun _ => stop_counted h hrun hact t, fun hok => absurd trivial hok⟩

end Consumer

namespace Shared

/-- Every move is accounted for. -/
def Accounted (s : Shared) : Event → Prop
  | .move i m => ∀ p, s.consumers[i]? = some p →
      (p.step s.now s.timeouts m).isSome = true → p.Accounted s.now s.timeouts m
  | _ => True

/-- The clients are sound, and counted. -/
structure Inv (s : Shared) : Prop where
  sound : ∀ p ∈ s.consumers, p.Sound
  counted : s.timeouts.numConsumers = s.healthy

/-- The number of healthy clients after one of them has moved. -/
theorem healthy_set {l : List Consumer} {i : Nat} (hp : l[i]? = some p) (p' : Consumer) :
    ((l.set i p').countP Consumer.healthy : Int)
      = l.countP Consumer.healthy - p.share + p'.share := by
  induction l generalizing i with
  | nil => simp at hp
  | cons a l ih =>
    cases i with
    | zero =>
      obtain rfl := Option.some.inj hp
      simp only [List.set_cons_zero, List.countP_cons, Consumer.share]
      push_cast
      omega
    | succ i =>
      have := ih hp
      simp only [List.set_cons_succ, List.countP_cons]
      push_cast
      omega

/-- A step that is accounted for keeps the count, and one that is not does not. -/
theorem step_inv {s : Shared} (h : s.Inv) (e : Event) :
    (s.step e = none ∧ s.Accounted e) ∨ ∃ s', s.step e = some s' ∧ (s.Accounted e → s'.Inv)
      ∧ (¬ s.Accounted e → s'.timeouts.numConsumers ≠ s'.healthy) := by
  cases e with
  | connect =>
    refine Or.inr ⟨_, rfl, fun _ => ⟨?_, ?_⟩, fun hok => absurd trivial hok⟩
    · intro p hp
      rcases List.mem_append.mp hp with hp | hp
      · exact h.sound p hp
      · obtain rfl := List.mem_singleton.mp hp
        exact Consumer.sound_newConsumer
    · have hnew : newConsumer.healthy = false := rfl
      simp only [healthy, List.countP_append, List.countP_singleton, hnew]
      exact h.counted
  | pass d => exact Or.inr ⟨_, rfl, fun _ => ⟨h.sound, h.counted⟩, fun hok => absurd trivial hok⟩
  | move i m =>
    cases hp : s.consumers[i]? with
    | none =>
      refine Or.inl ⟨by rw [step, hp], fun p hp' => ?_⟩
      rw [hp] at hp'
      simp at hp'
    | some p =>
      cases hstep : p.step s.now s.timeouts m with
      | none =>
        refine Or.inl ⟨by rw [step, hp]; simp [hstep], fun q hq hsome => ?_⟩
        obtain rfl := Option.some.inj (hp.symm.trans hq)
        rw [hstep] at hsome
        simp at hsome
      | some r =>
        obtain ⟨t', p'⟩ := r
        have hiff : s.Accounted (.move i m) ↔ p.Accounted s.now s.timeouts m := by
          refine ⟨fun hok => hok p hp (by rw [hstep]; rfl), fun hok q hq _ => ?_⟩
          obtain rfl := Option.some.inj (hp.symm.trans hq)
          exact hok
        obtain ⟨hgood, hbad⟩ :=
          Consumer.step_counted (h.sound p (List.mem_of_getElem? hp)) hstep
        have hset := healthy_set hp p'
        have hcounted := h.counted
        rw [healthy] at hcounted
        refine Or.inr ⟨⟨s.now, t', s.consumers.set i p'⟩, by rw [step, hp]; simp [hstep],
          fun hok => ⟨?_, ?_⟩, fun hok hcount => hbad (fun hok' => hok (hiff.mpr hok')) ?_⟩
        · intro q hq
          rcases List.mem_or_eq_of_mem_set hq with hq | rfl
          · exact h.sound q hq
          · exact (hgood (hiff.mp hok)).1
        · have hc := (hgood (hiff.mp hok)).2
          rw [Consumer.Counted] at hc
          change t'.numConsumers = ((s.consumers.set i p').countP Consumer.healthy : Int)
          omega
        · change t'.numConsumers = ((s.consumers.set i p').countP Consumer.healthy : Int)
            at hcount
          rw [Consumer.Counted]
          omega

/-- Where two are counted, there is another. -/
theorem exists_other {l : List Consumer} {i : Nat} (h : 1 < l.countP Consumer.healthy) :
    ∃ j q, j ≠ i ∧ l[j]? = some q ∧ q.healthy = true := by
  by_contra hnone
  have hother : ∀ j q, j ≠ i → l[j]? = some q → q.healthy = false := by
    intro j q hj hq
    cases hh : q.healthy with
    | false => rfl
    | true => exact absurd ⟨j, q, hj, hq, hh⟩ hnone
  clear hnone
  induction l generalizing i with
  | nil => simp at h
  | cons a l ih =>
    cases i with
    | zero =>
      have hl : l.countP Consumer.healthy = 0 := by
        refine List.countP_eq_zero.mpr (fun q hq => ?_)
        obtain ⟨j, hj⟩ := List.getElem?_of_mem hq
        rw [hother (j + 1) q (by simp) hj]
        simp
      rw [List.countP_cons, hl] at h
      split at h <;> omega
    | succ i =>
      have ha : a.healthy = false := hother 0 a (by simp) rfl
      rw [List.countP_cons_of_neg (by simp [ha])] at h
      exact ih h (fun j q hj hq => hother (j + 1) q (by simpa using hj) hq)

/--
**The last healthy client gets the long timeout**, and the count is right, exactly in the runs
without a transport error of a client that had no error, and without a timeout that is not
positive running out.
-/
theorem run_healthy_counted_iff (now shortTimeout longTimeout : Int) (events : List Event) :
    Runs.Steady step Accounted (newShared now shortTimeout longTimeout) events ↔
      (∀ k s, Runs.run step (newShared now shortTimeout longTimeout) (events.take k) = some s →
        s.timeouts.numConsumers = s.healthy)
      ∧ ∀ k s e i, Runs.run step (newShared now shortTimeout longTimeout) (events.take k) = some s →
        events[k]? = some e → s.TimesOutEarly i e →
        ∃ j q, j ≠ i ∧ s.consumers[j]? = some q ∧ q.healthy = true := by
  have hinit : (newShared now shortTimeout longTimeout).Inv :=
    ⟨fun p hp => absurd hp (by simp [newShared]), rfl⟩
  rw [Runs.steady_iff_of_inv (fun s (h : Inv s) => h.counted) (fun s e h => step_inv h e) hinit]
  refine ⟨fun hall => ⟨hall, fun k s e i hrun _ hearly => ?_⟩, fun hall => hall.1⟩
  cases e with
  | connect => exact hearly.elim
  | pass d => exact hearly.elim
  | move j m =>
    cases m with
    | tick order =>
      obtain ⟨-, p, hp, -, -, -, hle, hpos⟩ := hearly
      -- the short timeout runs out only where there is more than one in the count
      have hmany : s.timeouts.numConsumers > 1 := by
        by_contra hone
        rw [SharedTimeouts.checkAndDecrement, if_neg (by omega),
          if_neg (fun h => hone h.2)] at hpos
        simp at hpos
      have hcount := hall k s hrun
      rw [healthy] at hcount
      exact exists_other (by omega)
    | _ => exact hearly.elim

/-- Two clients; the second has a transport error, the first waits for a response. -/
def lastOne : List Event :=
  [.connect, .connect, .move 0 .start, .move 1 .start, .move 0 (.call .read [] 1 0),
    .move 0 .request, .move 1 (.receive (.transportErr (text "EOF"))),
    .move 1 (.response MapOrder.listed), .pass 9]

/-- The last healthy client, given up after the short timeout. -/
theorem lastOne_timesOutEarly : ∃ s, Runs.run step (newShared 0 8 16) lastOne = some s
    ∧ s.TimesOutEarly 0 (.move 0 (.tick MapOrder.listed))
    ∧ (∀ j q, j ≠ 0 → s.consumers[j]? = some q → q.healthy = false)
    ∧ s.timeouts.numConsumers = 2 ∧ s.healthy = 1 := by
  refine ⟨_, rfl, ⟨rfl, _, rfl, rfl, rfl, ?_, ?_, ?_⟩, fun j q hj hq => ?_, rfl, rfl⟩
  · decide
  · decide
  · decide
  · match j, hj with
    | 1, _ =>
      obtain rfl := Option.some.inj hq
      rfl
    | j + 2, _ => exact absurd hq (by simp [newShared])

end Shared

end WeftBlock.DataConn
