import WeftBlock.Lib.Runs
import WeftBlock.Lib.Slice

/-!
# One request over the data connection

A client turns a read, write, unmap or ping into a message, the server runs its
`DataProcessor` on it and writes the result back into *the same message*, and the
client takes the result out again. The result is squeezed into a type, a size and
some data by `pushResponse` on one side and read off by `operation` on the other;
this module puts the two together and asks when nothing is lost.

Both sides are as in `pkg/dataconn`. A response the server cannot build, because
the slicing of its data is out of range, is a panic of the handler: `none`.
-/

namespace WeftBlock.DataConn

open Slice

/-- The type of a message. -/
inductive MsgType
  | read | write | response | error | eof | close | ping | unmap | enospc
deriving DecidableEq, Repr

/-- `Message`, without the parts that never leave the client. -/
structure Message where
  seq : UInt32
  type : MsgType
  offset : Int64
  size : UInt32
  data : List UInt8
deriving DecidableEq

/-- The text of a string constant. -/
def text (s : String) : List UInt8 := s.toList.map (fun c => UInt8.ofNat c.toNat)

/-- An error: the two values the server compares against, or any other with its text. -/
inductive Err
  /-- `io.EOF`. -/
  | eof
  /-- `types.ErrNoSpaceLeftOnDevice`. -/
  | noSpaceLeftOnDevice
  | other (text : List UInt8)
deriving DecidableEq

/-- `err.Error()`. -/
def Err.text : Err → List UInt8
  | .eof => DataConn.text "EOF"
  | .noSpaceLeftOnDevice => DataConn.text "no space left on device"
  | .other t => t

/-- What the client can ask for. -/
inductive Op
  | read | write | unmap | ping
deriving DecidableEq, Repr

/-- The type of the request message. -/
def Op.type : Op → MsgType
  | .read => .read
  | .write => .write
  | .unmap => .unmap
  | .ping => .ping

/-- The request message `operation` makes and `handleRequest` numbers. -/
def request (op : Op) (buf : List UInt8) (length : UInt32) (offset : Int64) (seq : UInt32) :
    Message where
  seq := seq
  type := op.type
  offset := offset
  size := length
  data := if op = .write then buf else []

/-- What the processor did with a request: the bytes it left in a read's buffer, count, error. -/
structure Result where
  data : List UInt8
  n : Nat
  err : Option Err

/-- `pushResponse`. -/
def pushResponse (count : Nat) (msg : Message) (err : Option Err) : Option Message :=
  let stripped := msg.type = .write ∨ msg.type = .unmap
  let data := if stripped then [] else msg.data
  let size := if stripped then UInt32.ofNat count else UInt32.ofNat msg.data.length
  match err with
  | none => some { msg with type := .response, data := data, size := size }
  | some .eof =>
    -- `msg.Data[:count]`
    if count ≤ data.length then
      some { msg with
        type := .eof, data := data.take count, size := UInt32.ofNat (data.take count).length }
    else none
  | some .noSpaceLeftOnDevice =>
    some { msg with
      type := .enospc
      data := Err.noSpaceLeftOnDevice.text
      size := UInt32.ofNat Err.noSpaceLeftOnDevice.text.length }
  | some (.other t) =>
    some { msg with type := .error, data := t, size := UInt32.ofNat t.length }

/-- The server's handler of a request, given what the processor does with it. -/
def handle (msg : Message) (res : Result) : Option Message :=
  match msg.type with
  | .read => pushResponse res.n { msg with data := res.data } res.err
  | .write => pushResponse res.n msg res.err
  | .unmap => pushResponse res.n msg res.err
  | .ping => pushResponse 0 msg res.err
  | _ => none

/-- `handleResponse`: the pending request takes over the response that carries its number. -/
def handleResponse (req resp : Message) : Option Message :=
  if resp.seq = req.seq then
    some { req with type := resp.type, size := resp.size, data := resp.data }
  else none

/-- The end of `operation`: what the caller gets out of the completed message. -/
def complete (op : Op) (buf : List UInt8) (msg : Message) : List UInt8 × Nat × Option Err :=
  let buf' := if op = .read ∧ (msg.type = .response ∨ msg.type = .eof)
    then copyAt buf 0 msg.data else buf
  if msg.type = .error then (buf', 0, some (.other msg.data))
  else if msg.type = .eof then (buf', msg.size.toNat, some .eof)
  else (buf', msg.size.toNat, none)

/-- `operation` against a server whose processor answers `res`: `none` when the handler panics. -/
def operation (op : Op) (buf : List UInt8) (length : UInt32) (offset : Int64) (seq : UInt32)
    (res : Result) : Option (List UInt8 × Nat × Option Err) :=
  let req := request op buf length offset seq
  match handle req res with
  | none => none
  | some resp =>
    match handleResponse req resp with
    | none => none
    | some msg => some (complete op buf msg)

/-! ## When it is transparent -/

/-- What the processor of an operation can answer: no more than was asked for. -/
structure Answers (op : Op) (buf : List UInt8) (length : UInt32) (res : Result) : Prop where
  /-- A read or write says how long its buffer is, an unmap and a ping have none. -/
  buf_length : op = .read ∨ op = .write → buf.length = length.toNat
  ping_length : op = .ping → length = 0
  data_length : op = .read → res.data.length = length.toNat
  n_le : res.n ≤ length.toNat

/--
The caller sees what the processor answered: the same verdict, the same count
when it counts, and for a read the same bytes.
-/
def Transparent (op : Op) (buf : List UInt8) (length : UInt32) (offset : Int64) (seq : UInt32)
    (res : Result) : Prop :=
  ∃ buf' n err, operation op buf length offset seq res = some (buf', n, err)
    ∧ (err = none ↔ res.err = none)
    ∧ (res.err = none ∨ res.err = some .eof → n = res.n)
    ∧ (op = .read → res.err = none → buf' = res.data)
    ∧ (op = .read → res.err = some .eof → buf'.take n = res.data.take n)

/-- The answers that get through. -/
def GetsThrough (op : Op) (length : UInt32) (res : Result) : Prop :=
  res.err ≠ some .noSpaceLeftOnDevice
    ∧ (op = .read → res.err = none → res.n = length.toNat)
    ∧ (op = .write ∨ op = .unmap → res.err = some .eof → res.n = 0)

/-- The server keeps the number of the message it answers. -/
theorem seq_pushResponse {count : Nat} {msg resp : Message} {err : Option Err}
    (h : pushResponse count msg err = some resp) : resp.seq = msg.seq := by
  unfold pushResponse at h
  cases err with
  | none => rw [← Option.some.inj h]
  | some e =>
    cases e with
    | eof =>
      rw [Option.ite_none_right_eq_some] at h
      rw [← Option.some.inj h.2]
    | noSpaceLeftOnDevice => rw [← Option.some.inj h]
    | other t => rw [← Option.some.inj h]

theorem seq_handle {msg resp : Message} {res : Result} (h : handle msg res = some resp) :
    resp.seq = msg.seq := by
  unfold handle at h
  split at h
  · have hs := seq_pushResponse h
    exact hs
  · exact seq_pushResponse h
  · exact seq_pushResponse h
  · exact seq_pushResponse h
  · simp at h

/-- The response is always taken over by the request it answers. -/
theorem operation_eq (op : Op) (buf : List UInt8) (length : UInt32) (offset : Int64)
    (seq : UInt32) (res : Result) :
    operation op buf length offset seq res
      = (handle (request op buf length offset seq) res).map (fun resp =>
          complete op buf { request op buf length offset seq with
            type := resp.type, size := resp.size, data := resp.data }) := by
  unfold operation
  dsimp only
  cases h : handle (request op buf length offset seq) res with
  | none => rfl
  | some resp =>
    have hs : resp.seq = (request op buf length offset seq).seq := seq_handle h
    dsimp only
    rw [handleResponse, if_pos hs]
    rfl

theorem toNat_ofNat_of_le {n : Nat} {length : UInt32} (h : n ≤ length.toNat) :
    (UInt32.ofNat n).toNat = n := by
  rw [UInt32.toNat_ofNat']
  exact Nat.mod_eq_of_lt (Nat.lt_of_le_of_lt h length.toNat_lt)

theorem copyAt_zero_of_length {buf data : List UInt8} (h : data.length = buf.length) :
    copyAt buf 0 data = data := by
  rw [copyAt, List.take_zero, List.nil_append, Nat.sub_zero, Nat.zero_add, h, List.drop_length,
    List.append_nil, ← h, List.take_length]

/-- A short copy replaces the front of the buffer. -/
theorem take_copyAt_zero (buf data : List UInt8) (h : data.length ≤ buf.length) :
    (copyAt buf 0 data).take data.length = data := by
  rw [copyAt, List.take_zero, List.nil_append, Nat.sub_zero, Nat.zero_add,
    List.take_of_length_le h, List.take_left]

/-- **The connection is transparent exactly for the answers that get through.** -/
theorem transparent_iff {op : Op} {buf : List UInt8} {length : UInt32} {res : Result}
    (h : Answers op buf length res) (offset : Int64) (seq : UInt32) :
    Transparent op buf length offset seq res ↔ GetsThrough op length res := by
  obtain ⟨data, n, err⟩ := res
  have hn : (UInt32.ofNat n).toNat = n := toNat_ofNat_of_le h.n_le
  unfold Transparent GetsThrough
  rw [operation_eq]
  -- one case for each error; the operations differ in what `pushResponse` keeps
  cases err with
  | none =>
    cases op with
    | read =>
      have hd := h.data_length rfl
      have hb := h.buf_length (Or.inl rfl)
      have hcopy : copyAt buf 0 data = data := copyAt_zero_of_length (hd.trans hb.symm)
      simp [handle, request, Op.type, pushResponse, complete, hcopy, hd, eq_comm]
    | write => simp [handle, request, Op.type, pushResponse, complete, hn]
    | unmap => simp [handle, request, Op.type, pushResponse, complete, hn]
    | ping =>
      have h0 := h.n_le
      rw [h.ping_length rfl] at h0
      have h0' : n = 0 := Nat.le_zero.mp h0
      simp [handle, request, Op.type, pushResponse, complete, h0']
  | some e =>
    cases e with
    | noSpaceLeftOnDevice => cases op <;> simp [handle, request, Op.type, pushResponse, complete]
    | other t => cases op <;> simp [handle, request, Op.type, pushResponse, complete]
    | eof =>
      cases op with
      | read =>
        have hd := h.data_length rfl
        have hb := h.buf_length (Or.inl rfl)
        have hnd : n ≤ data.length := hd ▸ h.n_le
        have hl : (data.take n).length = n := by rw [List.length_take]; omega
        have hcopy : (copyAt buf 0 (data.take n)).take n = data.take n := by
          have := take_copyAt_zero buf (data.take n) (by rw [hl, hb]; exact h.n_le)
          rwa [hl] at this
        simp [handle, request, Op.type, pushResponse, complete, hnd, hn, hcopy]
      | write => simp [handle, request, Op.type, pushResponse, complete, @eq_comm _ 0 n]
      | unmap => simp [handle, request, Op.type, pushResponse, complete, @eq_comm _ 0 n]
      | ping =>
        have h0 := h.n_le
        rw [h.ping_length rfl] at h0
        have h0' : n = 0 := Nat.le_zero.mp h0
        simp [handle, request, Op.type, pushResponse, complete, h0']

theorem transparent_iff_ping :
    Answers .ping [] 0 ⟨[], 0, none⟩
      ∧ (Transparent .ping [] 0 0 1 ⟨[], 0, none⟩ ↔ GetsThrough .ping 0 ⟨[], 0, none⟩) :=
  have h : Answers .ping [] 0 ⟨[], 0, none⟩ :=
    ⟨fun hh => absurd hh (by decide), fun _ => rfl, fun hh => absurd hh (by decide), Nat.le_refl _⟩
  ⟨h, transparent_iff h 0 1⟩

/--
A write of one byte that the processor refuses for want of space is reported to
the caller as 23 bytes written and no error.
-/
theorem operation_swallows_noSpace :
    Answers .write [1] 1 ⟨[], 0, some .noSpaceLeftOnDevice⟩
      ∧ operation .write [1] 1 0 1 ⟨[], 0, some .noSpaceLeftOnDevice⟩ = some ([1], 23, none) :=
  ⟨⟨fun _ => rfl, fun hh => absurd hh (by decide), fun hh => absurd hh (by decide),
    Nat.zero_le _⟩, by decide⟩

/-! ## The server -/

/--
`Server`: a loop that reads, a goroutine for each request, and a loop that writes. Either loop may
take what `Stop` puts into `done`. A response is kept with the request it was made from, and
channels have no bound.
-/
structure Server where
  /-- `read` goes on, and a `readFromWire` is under way. -/
  looping : Bool := true
  reading : Bool := true
  done : Nat := 0
  /-- The requests that were read, and those that handlers are at. -/
  taken : List Message := []
  handling : List Message := []
  responses : List (Message × Message) := []
  written : List (Message × Message) := []

inductive ServerEvent
  | read (msg : Option Message)
  | quit
  | stop
  | finish (i : Nat) (res : Result)
  | write
  | close

namespace Server

/-- A step. A handler that panics ends the process. -/
def step (s : Server) : ServerEvent → Option Server
  | .read msg =>
    let requests := msg.toList.filter (fun m => m.type ∈ [.read, .write, .unmap, .ping])
    -- without its loop, a read that is under way is the last one
    let more := s.looping && msg.isSome
    if s.reading then
      some { s with
        looping := more, reading := more, done := s.done + (s.looping && msg.isNone).toNat
        taken := s.taken ++ requests, handling := s.handling ++ requests }
    else none
  -- one token is taken, and `Handle` puts one back
  | .quit => if s.looping ∧ 0 < s.done then some { s with looping := false } else none
  | .stop => some { s with done := s.done + 1 }
  | .finish i res =>
    s.handling[i]?.bind (fun req => (handle req res).map (fun resp =>
      { s with handling := s.handling.eraseIdx i, responses := s.responses ++ [(req, resp)] }))
  -- an error of `Write` is only logged
  | .write => s.responses.head?.map (fun p =>
      { s with responses := s.responses.tail, written := s.written ++ [p] })
  -- the client is told, and the loop goes on
  | .close => if 0 < s.done then some { s with done := s.done - 1 } else none

/-- **Every request has a handler, or one answer**: its own, and with its number. -/
structure Accounted (s : Server) : Prop where
  once : s.taken.Perm (s.handling ++ (s.written ++ s.responses).map Prod.fst)
  answers : ∀ p ∈ s.written ++ s.responses, p.2.seq = p.1.seq ∧ ∃ res, handle p.1 res = some p.2

theorem accounted_step {s s' : Server} (h : Accounted s) {e : ServerEvent}
    (hstep : s.step e = some s') : Accounted s' := by
  obtain ⟨honce, hans⟩ := h
  cases e with
  | read msg =>
    obtain ⟨-, rfl⟩ := Option.ite_some_none_eq_some.mp hstep
    refine ⟨(honce.append_right _).trans ?_, hans⟩
    rw [List.append_assoc, List.append_assoc]
    exact List.perm_append_comm.append_left _
  | quit =>
    obtain ⟨-, rfl⟩ := Option.ite_some_none_eq_some.mp hstep
    exact ⟨honce, hans⟩
  | stop => exact Option.some.inj hstep ▸ ⟨honce, hans⟩
  | finish i res =>
    obtain ⟨req, hreq, hmap⟩ := Option.bind_eq_some_iff.mp hstep
    obtain ⟨resp, hresp, rfl⟩ := Option.map_eq_some_iff.mp hmap
    obtain ⟨hi, rfl⟩ := List.getElem?_eq_some_iff.mp hreq
    refine ⟨honce.trans ?_, ?_⟩
    · -- the request goes over to those that are answered
      refine ((List.getElem_cons_eraseIdx_perm hi).symm.append_right _).trans ?_
      simp only [List.map_append, List.map_cons, List.map_nil, ← List.append_assoc]
      exact (List.perm_append_singleton _ _).symm
    · rw [← List.append_assoc]
      exact List.forall_mem_append.mpr ⟨hans, by simpa using ⟨seq_handle hresp, res, hresp⟩⟩
  | write =>
    obtain ⟨p, hp, rfl⟩ := Option.map_eq_some_iff.mp hstep
    have hsame : s.written ++ [p] ++ s.responses.tail = s.written ++ s.responses := by
      rw [List.append_assoc, List.singleton_append, List.cons_head?_tail hp]
    exact ⟨by rw [hsame]; exact honce, by rw [hsame]; exact hans⟩
  | close =>
    obtain ⟨-, rfl⟩ := Option.ite_some_none_eq_some.mp hstep
    exact ⟨honce, hans⟩

end Server

end WeftBlock.DataConn
