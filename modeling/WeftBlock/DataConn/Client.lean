import WeftBlock.DataConn.Wire
import WeftBlock.Lib.Maps
import WeftBlock.Lib.Runs

/-!
# The loop of a client

`Client.loop` of `pkg/dataconn` takes one thing at a time from its channels: a request of a
caller, a response or an error from one of the wires, a tick, the end. The channels are queues
here, callers and readers that wait for room are in the queue behind the others. A step is one
round of the loop, or what one of the others does to a queue.

A request is a message that its caller waits for. It is identified by the order in which the
requests are handed over, which the program never looks at; the number it gets on the wire is
a field of the message. What becomes of requests is recorded: each completion, and the first
error that the client ran into.
-/

namespace WeftBlock.DataConn

open Maps

/-- A request: the message and who waits for it. -/
structure Req where
  id : Nat
  msg : Message
deriving DecidableEq

/-- A read, write or unmap: what `ioInflight` counts. -/
def Req.isIO (r : Req) : Bool :=
  r.msg.type == .read || r.msg.type == .write || r.msg.type == .unmap

/-- What comes in on `responses`. -/
inductive Response
  | transportErr (err : List UInt8)
  | message (resp : Message)

/-- What a request is completed with. -/
inductive Cause
  | response (resp : Message)
  | error (err : List UInt8)
deriving DecidableEq

/-- A completed request: as it was, what completed it, and as its caller gets it. -/
structure Completion where
  req : Req
  cause : Cause
  msg : Message
  /-- The loop took the request after the first error of the client. -/
  late : Bool
deriving DecidableEq

/-- `ErrRWTimeout`. -/
def errRWTimeout : List UInt8 := text "r/w timeout"

/-- `Client`, with the variables of its loop. -/
structure Client where
  requests : List Req
  responses : List Response
  /-- How many times `Close` has sent on `end`. -/
  ends : Nat
  send : List Req
  seq : UInt32
  /-- The map of the pending requests, by the numbers of their messages. -/
  messages : List Req
  clientError : Option (List UInt8)
  ioInflight : Int
  /-- `timeOfLastActivity` is not zero. -/
  active : Bool
  ended : Bool
  /-- History: how many requests have been handed over. -/
  handed : Nat
  /-- History: the completed requests. -/
  completions : List Completion
  /-- History: the first error of the client. -/
  firstError : Option (List UInt8)

/-- `NewClient`. -/
def newClient : Client where
  requests := []
  responses := []
  ends := 0
  send := []
  seq := 0
  messages := []
  clientError := none
  ioInflight := 0
  active := false
  ended := false
  handed := 0
  completions := []
  firstError := none

variable {c : Client} {req : Req} {rest : List Req}

namespace Client

/-- `delete(c.messages, seq)` -/
def delete (c : Client) (seq : UInt32) : List Req := c.messages.filter (fun r => r.msg.seq ≠ seq)

/-- `c.replyError(req, err)`, where `late` says whether the request was taken after an error. -/
def replyError (c : Client) (req : Req) (err : List UInt8) (late : Bool) : Client :=
  { c with
    messages := c.delete req.msg.seq
    completions := c.completions ++ [⟨req, .error err, DataConn.replyError req.msg err, late⟩] }

/-- `handleClientError`. -/
def handleClientError (order : MapOrder) (c : Client) (err : List UInt8) : Client :=
  let replied := (order.enum c.messages).foldl (fun c req => c.replyError req err false) c
  { replied with
    clientError := some err
    ioInflight := 0
    active := false
    firstError := c.firstError.or (some err) }

/-- `c.handleRequest(req)` -/
def handleRequest (c : Client) (req : Req) : Client :=
  let seq := c.seq + 1
  let req := { req with msg := { req.msg with seq := seq } }
  { c with seq := seq, messages := req :: c.delete seq, send := c.send ++ [req] }

/-- The loop takes a request. -/
def onRequest (c : Client) (req : Req) : Client :=
  match c.clientError with
  | some err => c.replyError req err true
  | none =>
    let c := if req.isIO
      then { c with active := c.active || decide (c.ioInflight = 0)
                    ioInflight := c.ioInflight + 1 }
      else c
    c.handleRequest req

/-- `c.handleResponse(resp)` for the pending request. -/
def handleResponse (c : Client) (req : Req) (resp : Message) : Client :=
  { c with
    messages := c.delete resp.seq
    completions := c.completions ++ [⟨req, .response resp,
      { req.msg with type := resp.type, size := resp.size, data := resp.data }, false⟩] }

/-- The loop takes a response. -/
def onResponse (order : MapOrder) (c : Client) : Response → Client
  | .transportErr err => c.handleClientError order err
  | .message resp =>
    match c.messages.find? (fun r => r.msg.seq = resp.seq) with
    | none => c
    | some req =>
      let c := if req.isIO then { c with ioInflight := c.ioInflight - 1, active := true } else c
      match c.clientError with
      | some err => c.replyError req err false
      | none => c.handleResponse req resp

/-- The loop takes a tick; `exceeded` is the answer of `CheckAndDecrement`. -/
def onTick (order : MapOrder) (c : Client) (exceeded : Bool) : Client :=
  if c.active = false ∨ c.ioInflight = 0 then c
  else if exceeded then c.handleClientError order errRWTimeout else c

/-- What can happen. -/
inductive Event
  /-- A caller of `operation` hands a request over. -/
  | call (op : Op) (buf : List UInt8) (length : UInt32) (offset : Int64)
  /-- A reader, or `SetError`, puts something on `responses`. -/
  | receive (resp : Response)
  /-- A writer takes a message from `send`; an error of the wire goes to `responses`. -/
  | write (err : Option (List UInt8))
  /-- `Close`. -/
  | close
  /-- The loop takes a request. -/
  | request
  /-- The loop takes a response. -/
  | response (order : MapOrder)
  /-- The loop takes a tick. -/
  | tick (order : MapOrder) (exceeded : Bool)
  /-- The loop takes the end. -/
  | stop

/-- One step. Fewer than 2^32 requests are handed over. -/
def step (c : Client) : Event → Option Client
  | .call op buf length offset =>
    if c.handed + 1 < 2 ^ 32 then
      some { c with
        requests := c.requests ++ [⟨c.handed, DataConn.request op buf length offset 0⟩]
        handed := c.handed + 1 }
    else none
  | .receive resp => some { c with responses := c.responses ++ [resp] }
  | .write err =>
    match c.send with
    | [] => none
    | _ :: send =>
      match err with
      | none => some { c with send := send }
      | some err =>
        some { c with send := send, responses := c.responses ++ [.transportErr err] }
  | .close => some { c with ends := c.ends + 1 }
  | .request =>
    match c.ended, c.requests with
    | false, req :: requests => some (onRequest { c with requests := requests } req)
    | _, _ => none
  | .response order =>
    match c.ended, c.responses with
    | false, resp :: responses => some (onResponse order { c with responses := responses } resp)
    | _, _ => none
  | .tick order exceeded => if c.ended then none else some (c.onTick order exceeded)
  | .stop =>
    if c.ended = false ∧ 0 < c.ends then some { c with ends := c.ends - 1, ended := true }
    else none

/-- The state after some steps of a new client. -/
def run (events : List Event) : Option Client := Runs.run step newClient events

/-! ## Every request gets one answer -/

/-- The request is completed by a response of its own number, or by an error. -/
def Settled (d : Completion) : Prop :=
  match d.cause with
  | .response resp => resp.seq = d.req.msg.seq
      ∧ d.msg = { d.req.msg with type := resp.type, size := resp.size, data := resp.data }
  | .error err => d.msg = DataConn.replyError d.req.msg err

/-- **Every request gets one answer.** -/
structure Answered (c : Client) : Prop where
  /-- No request is completed twice. -/
  once : (c.completions.map (fun d => d.req.id)).Nodup
  /-- Each with the response of its own number, or with an error. -/
  settled : ∀ d ∈ c.completions, Settled d
  /-- The count of what is in flight is right. -/
  inflight : c.ioInflight = c.messages.countP Req.isIO
  /-- After the first error nothing is pending. -/
  quiet : c.firstError.isSome → c.messages = []
  /-- What has been taken since is answered with that error, and so will be what comes next. -/
  later : ∀ err, c.firstError = some err →
    (∀ d ∈ c.completions, d.late = true → d.cause = .error err)
    ∧ ∀ req, ∃ d, (c.onRequest req).completions = c.completions ++ [d] ∧ d.req = req
      ∧ d.cause = .error err
  /-- At the end of the loop all is done. -/
  ended : c.ended = true → ∀ id < c.handed, ∃ d ∈ c.completions, d.req.id = id

/-- The steps that leave nobody waiting, and keep to the first error. -/
def Orderly (c : Client) : Event → Prop
  | .call _ _ _ _ => c.handed + 1 < 2 ^ 32 → c.ended = false
  | .response _ => ∀ err rest, c.ended = false → c.responses = .transportErr err :: rest →
      c.firstError = none ∨ c.firstError = some err
  | .stop => c.ended = false → 0 < c.ends → c.requests = [] ∧ c.messages = []
  | _ => True

/-! ## What every step keeps -/

/-- In how many places a request is: in the queue, pending, completed. -/
def places (c : Client) (id : Nat) : Nat :=
  c.requests.countP (fun r => r.id = id) + c.messages.countP (fun r => r.id = id)
    + c.completions.countP (fun d => d.req.id = id)

/-- **What holds in every run**, orderly or not. -/
structure Base (c : Client) : Prop where
  bound : c.handed < 2 ^ 32
  /-- A request that was handed over is in one place. -/
  places : ∀ id, c.places id = if id < c.handed then 1 else 0
  /-- Numbers are given to requests that have left the queue. -/
  numbered : c.seq.toNat + c.requests.length ≤ c.handed
  keys : ∀ r ∈ c.messages, r.msg.seq.toNat ≤ c.seq.toNat
  nodup : (c.messages.map (fun r => r.msg.seq)).Nodup
  inflight : c.ioInflight = c.messages.countP Req.isIO
  settled : ∀ d ∈ c.completions, Settled d
  errors : c.clientError.isSome = c.firstError.isSome
  quiet : c.clientError.isSome = true → c.messages = []
  late : ∀ d ∈ c.completions, d.late = true → c.firstError.isSome = true

theorem perm_delete {l : List Req} (hl : (l.map (fun r => r.msg.seq)).Nodup)
    (h : req ∈ l) : l.Perm (req :: l.filter (fun r => r.msg.seq ≠ req.msg.seq)) := by
  induction l with
  | nil => simp at h
  | cons a l ih =>
    rw [List.map_cons, List.nodup_cons] at hl
    rcases List.mem_cons.mp h with rfl | h
    · -- nothing else has its number
      have hrest : l.filter (fun r => r.msg.seq ≠ req.msg.seq) = l := by
        refine List.filter_eq_self.mpr (fun r hr => decide_eq_true (fun he => ?_))
        exact hl.1 (List.mem_map.mpr ⟨r, hr, he⟩)
      rw [List.filter_cons_of_neg (by simp), hrest]
    · have hne : a.msg.seq ≠ req.msg.seq := fun he =>
        hl.1 (List.mem_map.mpr ⟨req, h, he.symm⟩)
      rw [List.filter_cons_of_pos (by simpa using hne)]
      exact ((ih hl.2 h).cons a).trans (List.Perm.swap _ _ _)

theorem foldl_replyError (err : List UInt8) (l : List Req) : ∀ c : Client,
    l.foldl (fun c req => c.replyError req err false) c
      = { c with
          messages := c.messages.filter (fun r => r.msg.seq ∉ l.map (fun r => r.msg.seq))
          completions := c.completions
            ++ l.map (fun r => ⟨r, .error err, DataConn.replyError r.msg err, false⟩) } := by
  induction l with
  | nil =>
    intro c
    simp
  | cons a l ih =>
    intro c
    have hfilter : (c.messages.filter (fun r => r.msg.seq ≠ a.msg.seq)).filter
          (fun r => r.msg.seq ∉ l.map (fun r => r.msg.seq))
        = c.messages.filter (fun r => r.msg.seq ∉ (a :: l).map (fun r => r.msg.seq)) := by
      rw [List.filter_filter]
      refine List.filter_congr (fun r _ => ?_)
      rw [List.map_cons, ← Bool.decide_and]
      exact decide_eq_decide.mpr (by rw [List.mem_cons, not_or, and_comm])
    rw [List.foldl_cons, ih]
    simp only [replyError, delete, hfilter, List.append_assoc, List.map_cons,
      List.singleton_append]

/-- **`handleClientError` replies to everybody.** -/
theorem handleClientError_eq (order : MapOrder) (c : Client) (err : List UInt8) :
    c.handleClientError order err
      = { c with
          messages := []
          completions := c.completions ++ (order.enum c.messages).map
            (fun r => ⟨r, .error err, DataConn.replyError r.msg err, false⟩)
          clientError := some err
          ioInflight := 0
          active := false
          firstError := c.firstError.or (some err) } := by
  have hnone : c.messages.filter (fun r => r.msg.seq ∉ (order.enum c.messages).map
      (fun r => r.msg.seq)) = [] := by
    refine List.filter_eq_nil_iff.mpr (fun r hr => ?_)
    have hmem : r ∈ order.enum c.messages := (order.perm c.messages).mem_iff.mpr hr
    simpa using ⟨r, hmem, rfl⟩
  rw [handleClientError, foldl_replyError, hnone]

theorem base_handleClientError (h : Base c) (order : MapOrder) (err : List UInt8) :
    Base (c.handleClientError order err) := by
  rw [handleClientError_eq]
  refine ⟨h.bound, fun id => ?_, h.numbered, fun r hr => absurd hr (by simp), List.nodup_nil, rfl,
    fun d hd => ?_, ?_, fun _ => rfl, fun d hd hlate => ?_⟩
  · -- the pending ones are now among the completed ones
    have hplaces := h.places id
    have hmoved : ((order.enum c.messages).map (fun r => (⟨r, .error err,
        DataConn.replyError r.msg err, false⟩ : Completion))).countP (fun d => d.req.id = id)
        = c.messages.countP (fun r => r.id = id) := by
      rw [List.countP_map]
      exact (order.perm c.messages).countP_eq _
    rw [places] at hplaces
    rw [places, List.countP_append, hmoved]
    simp only [List.countP_nil]
    omega
  · rcases List.mem_append.mp hd with hd | hd
    · exact h.settled d hd
    · obtain ⟨r, -, rfl⟩ := List.mem_map.mp hd
      rfl
  · cases hf : c.firstError with
    | none => rfl
    | some e => rfl
  · rcases List.mem_append.mp hd with hd | hd
    · have hsome := h.late d hd hlate
      cases hf : c.firstError with
      | none => rfl
      | some e => rfl
    · obtain ⟨r, -, rfl⟩ := List.mem_map.mp hd
      simp at hlate

theorem base_onTick (h : Base c) (order : MapOrder) (exceeded : Bool) :
    Base (c.onTick order exceeded) := by
  unfold onTick
  split
  · exact h
  · split
    · exact base_handleClientError h order _
    · exact h

/-- A completed request that was pending. -/
theorem base_complete (h : Base c) (hmem : req ∈ c.messages)
    (inflight : Int) (active : Bool) (hin : inflight = c.ioInflight - (if req.isIO then 1 else 0))
    {d : Completion} (hd : d.req = req) (hs : Settled d) (hlate : d.late = false) :
    Base { c with
      messages := c.messages.filter (fun r => r.msg.seq ≠ req.msg.seq)
      completions := c.completions ++ [d]
      ioInflight := inflight
      active := active } := by
  have hperm := perm_delete h.nodup hmem
  have hsub : (c.messages.filter (fun r => r.msg.seq ≠ req.msg.seq)).Sublist c.messages :=
    List.filter_sublist
  refine ⟨h.bound, fun id => ?_, h.numbered, fun r hr => h.keys r (hsub.subset hr),
    (hsub.map _).nodup h.nodup, ?_, fun d' hd' => ?_, h.errors, fun hsome => ?_,
    fun d' hd' hlate' => ?_⟩
  · have hplaces := h.places id
    have hcount := hperm.countP_eq (fun r => decide (r.id = id))
    rw [List.countP_cons] at hcount
    rw [places] at hplaces
    rw [places, List.countP_append, List.countP_singleton, hd]
    simp only at hcount ⊢
    omega
  · have hcount := hperm.countP_eq Req.isIO
    rw [List.countP_cons] at hcount
    rw [hin, h.inflight, hcount]
    push_cast
    omega
  · rcases List.mem_append.mp hd' with hd' | hd'
    · exact h.settled d' hd'
    · rw [List.mem_singleton.mp hd']
      exact hs
  · rw [h.quiet hsome] at hmem
    simp at hmem
  · rcases List.mem_append.mp hd' with hd' | hd'
    · exact h.late d' hd' hlate'
    · rw [List.mem_singleton.mp hd', hlate] at hlate'
      simp at hlate'

/-- While something is pending the client has no error. -/
theorem Base.clientError_eq_none (h : Base c) (hmem : req ∈ c.messages) :
    c.clientError = none := by
  cases he : c.clientError with
  | none => rfl
  | some err =>
    rw [h.quiet (by rw [he]; rfl)] at hmem
    simp at hmem

theorem onResponse_found (order : MapOrder) {resp : Message}
    (hfind : c.messages.find? (fun r => r.msg.seq = resp.seq) = some req)
    (hnone : c.clientError = none) :
    c.onResponse order (.message resp) = { c with
      messages := c.messages.filter (fun r => r.msg.seq ≠ req.msg.seq)
      completions := c.completions ++ [⟨req, .response resp,
        { req.msg with type := resp.type, size := resp.size, data := resp.data }, false⟩]
      ioInflight := c.ioInflight - (if req.isIO then 1 else 0)
      active := c.active || req.isIO } := by
  have hseq : req.msg.seq = resp.seq := by simpa using List.find?_some hfind
  cases hio : req.isIO with
  | true => simp [onResponse, hfind, hio, hnone, handleResponse, delete, hseq]
  | false => simp [onResponse, hfind, hio, hnone, handleResponse, delete, hseq]

theorem base_onResponse (h : Base c) (order : MapOrder) (resp : Response) :
    Base (c.onResponse order resp) := by
  cases resp with
  | transportErr err => exact base_handleClientError h order err
  | message resp =>
    cases hfind : c.messages.find? (fun r => r.msg.seq = resp.seq) with
    | none =>
      rw [onResponse, hfind]
      exact h
    | some req =>
      have hmem : req ∈ c.messages := List.mem_of_find?_eq_some hfind
      have hseq : req.msg.seq = resp.seq := by simpa using List.find?_some hfind
      rw [onResponse_found order hfind (h.clientError_eq_none hmem)]
      refine base_complete h hmem _ _ rfl ?_ ?_ ?_
      · rfl
      · exact ⟨hseq.symm, rfl⟩
      · rfl

section

variable (h : Base c) (hreq : c.requests = req :: rest)
include h hreq

/-- A request that is answered with the error of the client at once. -/
theorem base_refused {err : List UInt8} (he : c.clientError = some err) :
    Base (replyError { c with requests := rest } req err true) := by
  have hsome : c.clientError.isSome = true := by rw [he]; rfl
  have hquiet := h.quiet hsome
  have hnil : delete { c with requests := rest } req.msg.seq = [] := by
    rw [delete]
    exact List.filter_eq_nil_iff.mpr (fun r hr => absurd (hquiet ▸ hr) (by simp))
  have hcount := h.numbered
  rw [hreq, List.length_cons] at hcount
  rw [replyError, hnil]
  refine ⟨h.bound, fun id => ?_, ?_, fun r hr => absurd hr (by simp), List.nodup_nil, ?_,
    fun d hd => ?_, h.errors, fun _ => rfl, fun d hd hlate => ?_⟩
  · have hplaces := h.places id
    rw [places, hreq, hquiet, List.countP_cons] at hplaces
    rw [places, List.countP_append, List.countP_singleton]
    simp only at hplaces ⊢
    omega
  · show c.seq.toNat + rest.length ≤ c.handed
    omega
  · show c.ioInflight = _
    rw [h.inflight, hquiet]
  · rcases List.mem_append.mp hd with hd | hd
    · exact h.settled d hd
    · rw [List.mem_singleton.mp hd]
      rfl
  · rcases List.mem_append.mp hd with hd | hd
    · exact h.late d hd hlate
    · rw [← h.errors]
      exact hsome

/-- A request that gets a number, and is pending from then on. -/
theorem base_numbered (hnone : c.clientError = none) (inflight : Int)
    (active : Bool) (hin : inflight = c.ioInflight + (if req.isIO then 1 else 0)) :
    Base (handleRequest { c with requests := rest, ioInflight := inflight, active := active }
      req) := by
  have hcount := h.numbered
  have hbound := h.bound
  rw [hreq, List.length_cons] at hcount
  have hseq : (c.seq + 1).toNat = c.seq.toNat + 1 := by
    rw [UInt32.toNat_add]
    exact Nat.mod_eq_of_lt (by simp; omega)
  have hnew : ∀ r ∈ c.messages, r.msg.seq ≠ c.seq + 1 := by
    intro r hr he
    have := h.keys r hr
    rw [he, hseq] at this
    omega
  have hdelete : delete { c with requests := rest, ioInflight := inflight, active := active }
      (c.seq + 1) = c.messages :=
    List.filter_eq_self.mpr (fun r hr => decide_eq_true (hnew r hr))
  rw [handleRequest]
  simp only [hdelete]
  refine ⟨h.bound, fun id => ?_, ?_, fun r hr => ?_, ?_, ?_, h.settled, h.errors, fun hsome => ?_,
    h.late⟩
  · have hplaces := h.places id
    rw [places, hreq, List.countP_cons] at hplaces
    rw [places, List.countP_cons]
    simp only at hplaces ⊢
    omega
  · show (c.seq + 1).toNat + rest.length ≤ c.handed
    omega
  · show r.msg.seq.toNat ≤ (c.seq + 1).toNat
    rcases List.mem_cons.mp hr with rfl | hr
    · exact Nat.le_refl _
    · have := h.keys r hr
      omega
  · rw [List.map_cons, List.nodup_cons]
    refine ⟨fun hmem => ?_, h.nodup⟩
    obtain ⟨r, hr, he⟩ := List.mem_map.mp hmem
    exact hnew r hr he
  · show inflight = _
    rw [hin, h.inflight, List.countP_cons]
    push_cast
    rfl
  · rw [show c.clientError = none from hnone] at hsome
    simp at hsome

theorem base_onRequest : Base (onRequest { c with requests := rest } req) := by
  cases he : c.clientError with
  | some err =>
    rw [onRequest]
    have hb := base_refused h hreq he
    rwa [he] at hb
  | none =>
    rw [onRequest]
    by_cases hio : req.isIO = true
    · rw [if_pos hio]
      have hb := base_numbered h hreq he (c.ioInflight + 1) (c.active || decide (c.ioInflight = 0))
        (by rw [if_pos hio])
      rwa [he] at hb
    · rw [if_neg hio]
      have hb := base_numbered h hreq he c.ioInflight c.active (by rw [if_neg hio, Int.add_zero])
      rwa [he] at hb

end

/-- **Every step keeps the account.** -/
theorem base_step {c c' : Client} (h : Base c) {e : Event} (hstep : c.step e = some c') :
    Base c' := by
  cases e with
  | call op buf length offset =>
    rw [step, Option.ite_none_right_eq_some] at hstep
    obtain ⟨hbound, hstep⟩ := hstep
    rw [← Option.some.inj hstep]
    refine ⟨hbound, fun id => ?_, ?_, h.keys, h.nodup, h.inflight, h.settled, h.errors, h.quiet,
      h.late⟩
    · have hplaces := h.places id
      rw [places] at hplaces
      rw [places, List.countP_append, List.countP_singleton]
      simp only [decide_eq_true_eq] at hplaces ⊢
      split at hplaces <;> split <;> split <;> omega
    · show c.seq.toNat + (c.requests ++ [_]).length ≤ c.handed + 1
      have := h.numbered
      rw [List.length_append, List.length_singleton]
      omega
  | receive resp =>
    rw [← Option.some.inj hstep]
    exact { h with }
  | write err =>
    rw [step] at hstep
    split at hstep
    · simp at hstep
    · split at hstep
      · rw [← Option.some.inj hstep]
        exact { h with }
      · rw [← Option.some.inj hstep]
        exact { h with }
  | close =>
    rw [← Option.some.inj hstep]
    exact { h with }
  | request =>
    rw [step] at hstep
    split at hstep
    · rename_i req rest _ hreq
      rw [← Option.some.inj hstep]
      exact base_onRequest h hreq
    · simp at hstep
  | response order =>
    rw [step] at hstep
    split at hstep
    · rename_i responses _ _
      have hb : Base { c with responses := responses } := { h with }
      rw [← Option.some.inj hstep]
      exact base_onResponse hb order _
    · simp at hstep
  | tick order exceeded =>
    rw [step] at hstep
    split at hstep
    · simp at hstep
    · rw [← Option.some.inj hstep]
      exact base_onTick h order exceeded
  | stop =>
    rw [step, Option.ite_none_right_eq_some] at hstep
    rw [← Option.some.inj hstep.2]
    exact { h with }

/-! ## What an orderly step keeps -/

/-- What is left of `Answered` once the account is right. -/
structure Core (c : Client) : Prop where
  /-- The error of the client is its first one. -/
  first : c.firstError = c.clientError
  late : ∀ d ∈ c.completions, d.late = true → c.firstError.map Cause.error = some d.cause
  ended : c.ended = true → c.requests = [] ∧ c.messages = []

theorem Base.exclusive (h : Base c) {id : Nat} {d : Completion}
    (hd : d ∈ c.completions) (hid : d.req.id = id) :
    (∀ r ∈ c.requests, r.id ≠ id) ∧ ∀ r ∈ c.messages, r.id ≠ id := by
  have hdone : 0 < c.completions.countP (fun d => d.req.id = id) :=
    List.countP_pos_iff.mpr ⟨d, hd, decide_eq_true hid⟩
  have hplaces := h.places id
  have hone : c.places id ≤ 1 := by
    rw [hplaces]
    split <;> omega
  rw [Client.places] at hone
  constructor
  · intro r hr he
    have : 0 < c.requests.countP (fun r => r.id = id) :=
      List.countP_pos_iff.mpr ⟨r, hr, decide_eq_true he⟩
    omega
  · intro r hr he
    have : 0 < c.messages.countP (fun r => r.id = id) :=
      List.countP_pos_iff.mpr ⟨r, hr, decide_eq_true he⟩
    omega

theorem Base.lt_handed (h : Base c) {r : Req}
    (hr : r ∈ c.requests ∨ r ∈ c.messages) : r.id < c.handed := by
  have hplaces := h.places r.id
  rw [Client.places] at hplaces
  by_contra hlt
  rw [if_neg hlt] at hplaces
  rcases hr with hr | hr
  · have : 0 < c.requests.countP (fun r' => r'.id = r.id) :=
      List.countP_pos_iff.mpr ⟨r, hr, decide_eq_true rfl⟩
    omega
  · have : 0 < c.messages.countP (fun r' => r'.id = r.id) :=
      List.countP_pos_iff.mpr ⟨r, hr, decide_eq_true rfl⟩
    omega

theorem onRequest_completions {err : List UInt8} (he : c.clientError = some err)
    (req : Req) : (c.onRequest req).completions
      = c.completions ++ [⟨req, .error err, DataConn.replyError req.msg err, true⟩] := by
  rw [onRequest, he]
  rfl

theorem answered_iff (h : Base c) : Answered c ↔ Core c := by
  constructor
  · intro ha
    refine ⟨?_, fun d hd hlate => ?_, fun hended => ?_⟩
    · cases hf : c.firstError with
      | none =>
        have herr := h.errors
        rw [hf] at herr
        exact (Option.isNone_iff_eq_none.mp (by simpa using herr)).symm
      | some err =>
        have herr := h.errors
        rw [hf] at herr
        obtain ⟨err', he⟩ := Option.isSome_iff_exists.mp herr
        obtain ⟨d, hd, -, hcause⟩ := (ha.later err hf).2 ⟨0, request .ping [] 0 0 0⟩
        rw [onRequest_completions he] at hd
        have hlast := List.append_cancel_left hd
        rw [← (List.cons.inj hlast).1] at hcause
        rw [he, Cause.error.inj hcause]
    · obtain ⟨err, hf⟩ := Option.isSome_iff_exists.mp (h.late d hd hlate)
      rw [hf, (ha.later err hf).1 d hd hlate]
      rfl
    · constructor
      · refine List.eq_nil_iff_forall_not_mem.mpr (fun r hr => ?_)
        obtain ⟨d, hd, hid⟩ := ha.ended hended r.id (h.lt_handed (Or.inl hr))
        exact (h.exclusive hd hid).1 r hr rfl
      · refine List.eq_nil_iff_forall_not_mem.mpr (fun r hr => ?_)
        obtain ⟨d, hd, hid⟩ := ha.ended hended r.id (h.lt_handed (Or.inr hr))
        exact (h.exclusive hd hid).2 r hr rfl
  · intro hc
    refine ⟨?_, h.settled, h.inflight, fun hsome => h.quiet (by rw [h.errors]; exact hsome),
      fun err hf => ⟨fun d hd hlate => ?_, fun req => ?_⟩, fun hended id hid => ?_⟩
    · refine List.nodup_iff_count_le_one.mpr (fun id => ?_)
      have hplaces := h.places id
      have hone : c.places id ≤ 1 := by
        rw [hplaces]
        split <;> omega
      rw [places] at hone
      have hcount : (c.completions.map (fun d => d.req.id)).count id
          = c.completions.countP (fun d => d.req.id = id) := by
        rw [List.count, List.countP_map]
        rfl
      omega
    · have hlast := hc.late d hd hlate
      rw [hf] at hlast
      exact (Option.some.inj hlast).symm
    · rw [hc.first] at hf
      exact ⟨_, onRequest_completions hf req, rfl, rfl⟩
    · have hplaces := h.places id
      rw [places, (hc.ended hended).1, (hc.ended hended).2, if_pos hid] at hplaces
      simp only [List.countP_nil, Nat.zero_add] at hplaces
      obtain ⟨d, hd, hh⟩ := List.countP_pos_iff.mp
        (show 0 < c.completions.countP (fun d => d.req.id = id) by omega)
      exact ⟨d, hd, of_decide_eq_true hh⟩

/-- An error is kept to if it is the first one, or the same. -/
theorem core_handleClientError_iff (h : Base c) (hc : Core c)
    (hend : c.ended = false) (order : MapOrder) (err : List UInt8) :
    Core (c.handleClientError order err) ↔ c.firstError = none ∨ c.firstError = some err := by
  rw [handleClientError_eq]
  constructor
  · intro hc'
    have hfirst : c.firstError.or (some err) = some err := hc'.first
    cases hf : c.firstError with
    | none => exact Or.inl rfl
    | some e =>
      rw [hf] at hfirst
      exact Or.inr hfirst
  · intro hor
    have hfirst : c.firstError.or (some err) = some err := by
      rcases hor with hf | hf
      · rw [hf]
        rfl
      · rw [hf]
        rfl
    refine ⟨hfirst, fun d hd hlate => ?_, fun hended => ?_⟩
    · show (c.firstError.or (some err)).map Cause.error = some d.cause
      rcases List.mem_append.mp hd with hd | hd
      · rcases hor with hf | hf
        · have hsome := h.late d hd hlate
          rw [hf] at hsome
          simp at hsome
        · rw [hfirst, ← hf]
          exact hc.late d hd hlate
      · obtain ⟨r, -, rfl⟩ := List.mem_map.mp hd
        simp at hlate
    · exact absurd (hend.symm.trans hended) (by simp)

theorem core_onTick (h : Base c) (hc : Core c) (hend : c.ended = false)
    (order : MapOrder) (exceeded : Bool) : Core (c.onTick order exceeded) := by
  unfold onTick
  split
  · exact hc
  · rename_i hbusy
    split
    · -- something is in flight, so there has been no error yet
      have hne : c.messages ≠ [] := by
        intro hnil
        refine hbusy (Or.inr ?_)
        rw [h.inflight, hnil]
        rfl
      obtain ⟨req, hreq⟩ := List.exists_mem_of_ne_nil _ hne
      refine (core_handleClientError_iff h hc hend order _).mpr (Or.inl ?_)
      rw [hc.first]
      exact h.clientError_eq_none hreq
    · exact hc

theorem core_onRequest (hc : Core c) (hend : c.ended = false) (req : Req) :
    Core (c.onRequest req) := by
  rw [onRequest]
  cases he : c.clientError with
  | some err =>
    refine ⟨hc.first, fun d hd hlate => ?_, fun hended => ?_⟩
    · rcases List.mem_append.mp hd with hd | hd
      · exact hc.late d hd hlate
      · rw [List.mem_singleton.mp hd]
        show c.firstError.map Cause.error = _
        rw [hc.first, he]
        rfl
    · exact absurd (hend.symm.trans hended) (by simp)
  | none =>
    dsimp only
    split
    · exact ⟨hc.first.trans he, hc.late, fun hended => absurd (hend.symm.trans hended) (by simp)⟩
    · exact ⟨hc.first, hc.late, fun hended => absurd (hend.symm.trans hended) (by simp)⟩

theorem core_onMessage (h : Base c) (hc : Core c) (hend : c.ended = false)
    (order : MapOrder) (resp : Message) : Core (c.onResponse order (.message resp)) := by
  cases hfind : c.messages.find? (fun r => r.msg.seq = resp.seq) with
  | none =>
    rw [onResponse, hfind]
    exact hc
  | some req =>
    have hmem : req ∈ c.messages := List.mem_of_find?_eq_some hfind
    rw [onResponse_found order hfind (h.clientError_eq_none hmem)]
    refine ⟨hc.first, fun d hd hlate => ?_, fun hended => ?_⟩
    · rcases List.mem_append.mp hd with hd | hd
      · exact hc.late d hd hlate
      · rw [List.mem_singleton.mp hd] at hlate
        simp at hlate
    · exact absurd (hend.symm.trans hended) (by simp)

/-- **A step keeps the answers right exactly when it is orderly.** -/
theorem step_core_iff (h : Base c) (hc : Core c) (e : Event) :
    (c.step e = none ∧ Orderly c e)
      ∨ ∃ c', c.step e = some c' ∧ Base c' ∧ (Orderly c e ↔ Core c') := by
  cases he : c.step e with
  | none =>
    refine Or.inl ⟨rfl, ?_⟩
    cases e with
    | call op buf length offset =>
      rw [step, ite_eq_right_iff] at he
      intro hbound
      exact absurd (he hbound) (by simp)
    | response order =>
      intro err rest hend hresp
      rw [step, hend, hresp] at he
      simp at he
    | stop =>
      intro hend hpos
      rw [step, if_pos ⟨hend, hpos⟩] at he
      simp at he
    | _ => trivial
  | some c' =>
    refine Or.inr ⟨c', rfl, base_step h he, ?_⟩
    cases e with
    | call op buf length offset =>
      rw [step, Option.ite_none_right_eq_some] at he
      obtain ⟨hbound, he⟩ := he
      rw [← Option.some.inj he]
      constructor
      · intro hopen
        refine ⟨hc.first, hc.late, fun hended => ?_⟩
        exact absurd ((hopen hbound).symm.trans hended) (by simp)
      · intro hc' _
        by_contra hended
        have hnil := (hc'.ended (by simpa using hended)).1
        simp at hnil
    | receive resp =>
      rw [← Option.some.inj he]
      exact ⟨fun _ => { hc with }, fun _ => trivial⟩
    | write err =>
      refine ⟨fun _ => ?_, fun _ => trivial⟩
      rw [step] at he
      split at he
      · simp at he
      · split at he
        · rw [← Option.some.inj he]
          exact { hc with }
        · rw [← Option.some.inj he]
          exact { hc with }
    | close =>
      rw [← Option.some.inj he]
      exact ⟨fun _ => { hc with }, fun _ => trivial⟩
    | request =>
      refine ⟨fun _ => ?_, fun _ => trivial⟩
      rw [step] at he
      split at he
      · rename_i req rest hend hreq
        have hc' : Core { c with requests := rest } :=
          ⟨hc.first, hc.late, fun hended => absurd (hend.symm.trans hended) (by simp)⟩
        rw [← Option.some.inj he]
        exact core_onRequest hc' hend req
      · simp at he
    | response order =>
      rw [step] at he
      split at he
      · rename_i resp rest hend hresp
        have hb : Base { c with responses := rest } := { h with }
        have hc' : Core { c with responses := rest } := { hc with }
        rw [← Option.some.inj he]
        cases resp with
        | transportErr err =>
          rw [onResponse, core_handleClientError_iff hb hc' hend order err]
          constructor
          · intro hok
            exact hok err rest hend hresp
          · intro hor err' rest' _ hresp'
            rw [hresp] at hresp'
            rw [← Response.transportErr.inj (List.cons.inj hresp').1]
            exact hor
        | message m =>
          refine ⟨fun _ => core_onMessage hb hc' hend order m, fun _ err' rest' _ hresp' => ?_⟩
          rw [hresp] at hresp'
          exact absurd (List.cons.inj hresp').1 (by simp)
      · simp at he
    | tick order exceeded =>
      refine ⟨fun _ => ?_, fun _ => trivial⟩
      rw [step] at he
      split at he
      · simp at he
      · rename_i hend
        rw [← Option.some.inj he]
        exact core_onTick h hc (by simpa using hend) order exceeded
    | stop =>
      rw [step, Option.ite_none_right_eq_some] at he
      obtain ⟨⟨hend, hpos⟩, he⟩ := he
      rw [← Option.some.inj he]
      constructor
      · intro hok
        exact ⟨hc.first, hc.late, fun _ => hok hend hpos⟩
      · intro hc' _ _
        exact hc'.ended rfl

theorem base_newClient : Base newClient := by
  refine ⟨by decide, fun id => ?_, Nat.le_refl 0, fun r hr => absurd hr (by simp [newClient]),
    List.nodup_nil, rfl, fun d hd => absurd hd (by simp [newClient]), rfl, fun _ => rfl,
    fun d hd => absurd hd (by simp [newClient])⟩
  simp [places, newClient]

theorem core_newClient : Core newClient :=
  ⟨rfl, fun d hd => absurd hd (by simp [newClient]), fun _ => ⟨rfl, rfl⟩⟩

/--
**Every request gets one answer** in every state of a run exactly when the steps of the run are
orderly: no error comes after the first one that is not the same, the loop ends only when
nothing is queued or pending, and no request is handed over after that.
-/
theorem run_answered_iff (events : List Event) :
    (∀ k c, run (events.take k) = some c → Answered c)
      ↔ Runs.Steady step Orderly newClient events := by
  have hsteady : Runs.Steady step Orderly newClient events
      ↔ ∀ k c, Runs.run step newClient (events.take k) = some c → Core c :=
    Runs.steady_iff Base (fun c e hb hc => step_core_iff hb hc e) base_newClient core_newClient
  rw [hsteady]
  have hbase : ∀ k c, run (events.take k) = some c → Base c := fun k c hrun =>
    Runs.run_invariant (fun c e c' hb he => base_step hb he) base_newClient hrun
  constructor
  · intro h k c hrun
    exact (answered_iff (hbase k c hrun)).mp (h k c hrun)
  · intro h k c hrun
    exact (answered_iff (hbase k c hrun)).mpr (h k c hrun)

/-- A ping is pending when the client is closed and its loop ends. -/
def closedWhilePending : List Event := [.call .ping [] 0 0, .request, .close, .stop]

/-- Two wires fail with different errors, and then there is a ping. -/
def twoErrors : List Event :=
  [.receive (.transportErr (text "a")), .receive (.transportErr (text "b")), .response .listed,
    .response .listed, .call .ping [] 0 0, .request]

/--
Nobody answers the ping that is pending when the loop ends, and the ping after two errors is
answered with the second one.
-/
theorem runs_not_answered :
    (run closedWhilePending).map (fun c => (c.ended, c.handed, c.completions)) = some (true, 1, [])
    ∧ (run twoErrors).map (fun c => (c.firstError, c.completions.map (fun d => (d.cause, d.late))))
      = some (some (text "a"), [(.error (text "b"), true)])
    ∧ (¬ ∀ k c, run (closedWhilePending.take k) = some c → Answered c)
    ∧ ¬ ∀ k c, run (twoErrors.take k) = some c → Answered c := by
  have hclosed : (run closedWhilePending).map (fun c => (c.ended, c.handed, c.completions))
      = some (true, 1, []) := by decide
  have htwo : (run twoErrors).map
        (fun c => (c.firstError, c.completions.map (fun d => (d.cause, d.late))))
      = some (some (text "a"), [(.error (text "b"), true)]) := by decide
  refine ⟨hclosed, htwo, fun h => ?_, fun h => ?_⟩
  · obtain ⟨c, hrun, hc⟩ := Option.map_eq_some_iff.mp hclosed
    obtain ⟨hended, hrest⟩ := Prod.mk.inj hc
    obtain ⟨hhanded, hcompletions⟩ := Prod.mk.inj hrest
    obtain ⟨d, hd, -⟩ := (h 4 c hrun).ended hended 0 (by rw [hhanded]; decide)
    rw [hcompletions] at hd
    simp at hd
  · obtain ⟨c, hrun, hc⟩ := Option.map_eq_some_iff.mp htwo
    obtain ⟨hfirst, hcauses⟩ := Prod.mk.inj hc
    have hmem : (Cause.error (text "b"), true) ∈ c.completions.map (fun d => (d.cause, d.late)) := by
      rw [hcauses]
      exact List.mem_singleton.mpr rfl
    obtain ⟨d, hd, hpair⟩ := List.mem_map.mp hmem
    obtain ⟨hcause, hlate⟩ := Prod.mk.inj hpair
    have hanswer := ((h 6 c hrun).later _ hfirst).1 d hd hlate
    rw [hcause] at hanswer
    exact absurd hanswer (by decide)

end Client

end WeftBlock.DataConn
