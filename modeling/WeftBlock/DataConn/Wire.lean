import WeftBlock.DataConn.Operation
import WeftBlock.Lib.Bytes

/-!
# Messages as bytes

`Wire` of `pkg/dataconn` puts a message on the connection as a header of six little-endian
fields and the data, and takes messages off it again. Both ends read until an error. A stream
that ends between two messages ends with plain `io.EOF`, one that ends inside a message with
an error that says where.

Everything the client and the server send is marked with the version of the protocol, and
the reader refuses what is not. The one exception is the notice by which the server asks its
client to close: it is made without the mark, so the client never reads it, nor anything the
server still sends after it.
-/

namespace WeftBlock.DataConn

open Slice Bytes

/-- `MagicVersion`. -/
def MagicVersion : UInt16 := 0x1b01

/-- The number of a type, in the order of `types.go`. -/
def MsgType.code : MsgType → UInt32
  | .read => 0
  | .write => 1
  | .response => 2
  | .error => 3
  | .eof => 4
  | .close => 5
  | .ping => 6
  | .unmap => 7
  | .enospc => 8

/-- The fields of a `Message` that travel. A reader gets any number as the type. -/
structure WireMessage where
  magicVersion : UInt16
  seq : UInt32
  type : UInt32
  offset : Int64
  size : UInt32
  data : List UInt8
deriving DecidableEq

/-- A message that is marked with the version. -/
def Message.onWire (m : Message) : WireMessage :=
  ⟨MagicVersion, m.seq, m.type.code, m.offset, m.size, m.data⟩

/-- `replyError`: a request that is answered by the client itself. -/
def replyError (req : Message) (err : List UInt8) : Message :=
  { req with type := .error, data := err }

/-- `&Message{Type: TypeClose}`, by which the server asks the client to close. -/
def closeNotice : WireMessage := ⟨0, 0, MsgType.close.code, 0, 0, []⟩

/--
What the two ends pass to `Wire.Write`. A request is shared with the loop of the client,
which may have answered it by the time it is written.
-/
inductive Sent : WireMessage → Prop
  | request (op : Op) (buf : List UInt8) (length : UInt32) (offset : Int64) (seq : UInt32) :
      Sent (request op buf length offset seq).onWire
  | errored (op : Op) (buf : List UInt8) (length : UInt32) (offset : Int64) (seq : UInt32)
      (err : List UInt8) :
      Sent (replyError (DataConn.request op buf length offset seq) err).onWire
  | answered (op : Op) (buf : List UInt8) (length : UInt32) (offset : Int64) (seq : UInt32)
      (resp m : Message)
      (h : handleResponse (DataConn.request op buf length offset seq) resp = some m) :
      Sent m.onWire
  | response (msg : Message) (res : Result) (resp : Message) (h : handle msg res = some resp) :
      Sent resp.onWire
  | close : Sent closeNotice

variable {m : WireMessage} {src : Source} {rest : List UInt8}

theorem Sent.marked (h : Sent m) (hm : m ≠ closeNotice) :
    m.magicVersion = MagicVersion := by
  cases h with
  | close => exact absurd rfl hm
  | _ => rfl

/-! ## Writing -/

/-- `getRequestHeaderSize`. -/
def getRequestHeaderSize : Nat := 2 + 4 + 4 + 8 + 4 + 4

/-- The fields of the header, in their order. -/
def WireMessage.fields (m : WireMessage) : List (List UInt8) :=
  [ le 2 m.magicVersion.toNat, le 4 m.seq.toNat, le 4 m.type.toNat,
    le 8 m.offset.toUInt64.toNat, le 4 m.size.toNat, le 4 m.data.length ]

/-- Put fields into a buffer, one after the other. -/
def putFields (buf : List UInt8) : (offset : Nat) → List (List UInt8) → List UInt8
  | _, [] => buf
  | offset, f :: fs => putFields (copyAt buf offset f) (offset + f.length) fs

/-- A connection for writing: its header buffer is used again for each message. -/
structure Wire where
  writeHeader : List UInt8
  length_writeHeader : writeHeader.length = getRequestHeaderSize

theorem length_header (m : WireMessage) : m.fields.flatten.length = getRequestHeaderSize := by
  simp [WireMessage.fields, getRequestHeaderSize]

/-- Fields that fit replace what was in the buffer from the offset on. -/
theorem putFields_eq {buf : List UInt8} {offset : Nat} {fs : List (List UInt8)}
    (h : offset + fs.flatten.length ≤ buf.length) :
    putFields buf offset fs
      = buf.take offset ++ fs.flatten ++ buf.drop (offset + fs.flatten.length) := by
  induction fs generalizing buf offset with
  | nil => simp [putFields]
  | cons f fs ih =>
    rw [List.flatten_cons, List.length_append] at h
    have hcopy : copyAt buf offset f = buf.take offset ++ f ++ buf.drop (offset + f.length) := by
      rw [copyAt, List.take_of_length_le (l := f) (by omega)]
    have hfront : (buf.take offset ++ f).length = offset + f.length := by
      rw [List.length_append, List.length_take, Nat.min_eq_left (by omega)]
    have hlen : (copyAt buf offset f).length = buf.length := length_copyAt (by omega)
    have htake : (copyAt buf offset f).take (offset + f.length) = buf.take offset ++ f := by
      rw [hcopy, ← hfront, List.take_left]
    have hdrop : ∀ n, (copyAt buf offset f).drop (offset + f.length + n)
        = buf.drop (offset + f.length + n) := by
      intro n
      rw [hcopy, ← hfront, List.drop_length_add_append, List.drop_drop]
    rw [putFields, ih (by rw [hlen]; omega), htake, hdrop, List.flatten_cons, List.length_append,
      List.append_assoc, List.append_assoc, List.append_assoc, Nat.add_assoc, List.append_assoc]

theorem putFields_header (w : Wire) (m : WireMessage) :
    putFields w.writeHeader 0 m.fields = m.fields.flatten := by
  have hlen : m.fields.flatten.length = w.writeHeader.length := by
    rw [length_header, w.length_writeHeader]
  rw [putFields_eq (by omega), hlen]
  simp

/-- `Wire.Write`: the buffer after it, and the bytes that go out. -/
def Wire.write (w : Wire) (msg : WireMessage) : Wire × List UInt8 :=
  let header := putFields w.writeHeader 0 msg.fields
  (⟨header, (congrArg List.length (putFields_header w msg)).trans (length_header msg)⟩,
    if 0 < msg.data.length then header ++ msg.data else header)

/-- The bytes of messages that are written one after the other. -/
def Wire.writeAll (w : Wire) : List WireMessage → List UInt8
  | [] => []
  | m :: ms => (w.write m).2 ++ (w.write m).1.writeAll ms

/-- The bytes of one message. -/
def WireMessage.bytes (m : WireMessage) : List UInt8 := m.fields.flatten ++ m.data

theorem length_bytes (m : WireMessage) :
    m.bytes.length = getRequestHeaderSize + m.data.length := by
  rw [WireMessage.bytes, List.length_append, length_header]

theorem Wire.write_snd (w : Wire) (m : WireMessage) : (w.write m).2 = m.bytes := by
  have hsnd : (w.write m).2 = if 0 < m.data.length
      then putFields w.writeHeader 0 m.fields ++ m.data
      else putFields w.writeHeader 0 m.fields := rfl
  rw [hsnd, putFields_header, WireMessage.bytes]
  split
  · rfl
  · rename_i h
    rw [List.eq_nil_of_length_eq_zero (by omega : m.data.length = 0), List.append_nil]

theorem Wire.writeAll_eq (w : Wire) (ms : List WireMessage) :
    w.writeAll ms = ms.flatMap WireMessage.bytes := by
  induction ms generalizing w with
  | nil => rfl
  | cons m ms ih => rw [Wire.writeAll, Wire.write_snd, ih, List.flatMap_cons]

/-! ## Reading -/

/-- The errors of `Wire.Read`. -/
inductive ReadErr
  /-- Plain `io.EOF`. -/
  | eof
  /-- "failed to read message header: unexpected EOF" -/
  | header
  /-- "wrong API version received: 0x..." -/
  | wrongVersion (magicVersion : UInt16)
  /-- "failed to read message payload (seq=..., size=...): unexpected EOF" -/
  | payload (seq : UInt32) (size : Nat)
deriving DecidableEq

/-- The number in `width` bytes of a header. -/
def field (header : List UInt8) (offset width : Nat) : Nat :=
  ofLe ((header.drop offset).take width)

/-- `Wire.Read`: the next message or an error, and what is left to read. -/
def Wire.read (src : Source) : Except ReadErr WireMessage × Source :=
  let full := readFull getRequestHeaderSize src
  let header := full.1
  if header.length < getRequestHeaderSize then
    (.error (if header.length = 0 then .eof else .header), full.2)
  else
    let magicVersion := UInt16.ofNat (field header 0 2)
    if magicVersion ≠ MagicVersion then (.error (.wrongVersion magicVersion), full.2)
    else
      let seq := UInt32.ofNat (field header 2 4)
      let type := UInt32.ofNat (field header 6 4)
      let offset := (UInt64.ofNat (field header 10 8)).toInt64
      let size := UInt32.ofNat (field header 18 4)
      let length := field header 22 4
      if 0 < length then
        let payload := readFull length full.2
        if payload.1.length < length then (.error (.payload seq length), payload.2)
        else (.ok ⟨magicVersion, seq, type, offset, size, payload.1⟩, payload.2)
      else (.ok ⟨magicVersion, seq, type, offset, size, []⟩, full.2)

/-- Reading until an error, as both ends do. -/
inductive Reads : Source → List WireMessage → ReadErr → Prop
  | error {src : Source} {err : ReadErr} (h : (Wire.read src).1 = .error err) : Reads src [] err
  | ok {src : Source} {m : WireMessage} {ms : List WireMessage} {err : ReadErr}
      (h : (Wire.read src).1 = .ok m) (hrest : Reads (Wire.read src).2 ms err) :
      Reads src (m :: ms) err

theorem field_front (width n : Nat) (rest : List UInt8) :
    field (le width n ++ rest) 0 width = n % 256 ^ width := by
  have htake : (le width n ++ rest).take width = le width n := List.take_left' (length_le width n)
  rw [field, List.drop_zero, htake, ofLe_le]

theorem field_later {a rest : List UInt8} {offset width : Nat} (h : a.length ≤ offset) :
    field (a ++ rest) offset width = field rest (offset - a.length) width := by
  rw [field, field, List.drop_append, List.drop_of_length_le h, List.nil_append]

/-- The header of a message, read field by field. -/
structure Parsed (m : WireMessage) (header : List UInt8) : Prop where
  magicVersion : UInt16.ofNat (field header 0 2) = m.magicVersion
  seq : UInt32.ofNat (field header 2 4) = m.seq
  type : UInt32.ofNat (field header 6 4) = m.type
  offset : (UInt64.ofNat (field header 10 8)).toInt64 = m.offset
  size : UInt32.ofNat (field header 18 4) = m.size
  length : field header 22 4 = m.data.length

theorem parsed_fields (m : WireMessage) (hm : m.data.length < 2 ^ 32) :
    Parsed m m.fields.flatten := by
  have hlast : field (le 4 m.data.length) 0 4 = m.data.length := by
    have hfront := field_front 4 m.data.length []
    rwa [List.append_nil, Nat.mod_eq_of_lt (show m.data.length < 256 ^ 4 from hm)] at hfront
  constructor <;>
    simp [WireMessage.fields, field_later, field_front, hlast]

theorem read_short (h : src.flatten.length < getRequestHeaderSize) :
    (Wire.read src).1 = .error (if src.flatten.length = 0 then .eof else .header) := by
  have hfull : (readFull getRequestHeaderSize src).1 = src.flatten := by
    rw [readFull_fst, List.take_of_length_le (by omega)]
  unfold Wire.read
  dsimp only
  rw [hfull, if_pos h]

section Header

variable {m : WireMessage} {src : Source} {rest : List UInt8}
  (hsrc : src.flatten = m.fields.flatten ++ rest) (hlen : m.data.length < 2 ^ 32)
include hsrc hlen

/-- What `read` does with a stream that begins with the header of `m`. -/
theorem read_header :
    Wire.read src
      = if m.magicVersion ≠ MagicVersion then
          (.error (.wrongVersion m.magicVersion), (readFull getRequestHeaderSize src).2)
        else if 0 < m.data.length then
          if rest.length < m.data.length then
            (.error (.payload m.seq m.data.length),
              (readFull m.data.length (readFull getRequestHeaderSize src).2).2)
          else (.ok { m with data := rest.take m.data.length },
              (readFull m.data.length (readFull getRequestHeaderSize src).2).2)
        else (.ok { m with data := [] }, (readFull getRequestHeaderSize src).2) := by
  have hparsed := parsed_fields m hlen
  have hfull := readFull_append hsrc
  rw [length_header] at hfull
  have hpayload : (readFull m.data.length (readFull getRequestHeaderSize src).2).1
      = rest.take m.data.length := by rw [readFull_fst, hfull.2]
  have hshort : (rest.take m.data.length).length < m.data.length
      ↔ rest.length < m.data.length := by
    rw [List.length_take]
    omega
  unfold Wire.read
  dsimp only
  rw [hfull.1, if_neg (by rw [length_header]; omega)]
  rw [hparsed.magicVersion, hparsed.seq, hparsed.type, hparsed.offset, hparsed.size,
    hparsed.length, hpayload]
  simp only [hshort]

end Header

/-- **A marked message that is all there is read**, and the bytes after it are left. -/
theorem read_whole (hsrc : src.flatten = m.bytes ++ rest) (hlen : m.data.length < 2 ^ 32)
    (hm : m.magicVersion = MagicVersion) :
    (Wire.read src).1 = .ok m ∧ (Wire.read src).2.flatten = rest := by
  rw [WireMessage.bytes, List.append_assoc] at hsrc
  have hheader := readFull_append hsrc
  rw [length_header] at hheader
  have hpayload := readFull_append hheader.2
  rw [read_header hsrc hlen, if_neg (not_not.mpr hm)]
  by_cases hdata : 0 < m.data.length
  · rw [if_pos hdata, if_neg (by rw [List.length_append]; omega), List.take_left]
    exact ⟨rfl, hpayload.2⟩
  · have hnil : m.data = [] := List.eq_nil_of_length_eq_zero (by omega)
    rw [hnil, List.nil_append] at hheader
    rw [if_neg hdata]
    refine ⟨?_, hheader.2⟩
    rw [← hnil]

theorem read_cut (hsrc : src.flatten = m.fields.flatten ++ rest) (hlen : m.data.length < 2 ^ 32)
    (hm : m.magicVersion = MagicVersion) (hcut : rest.length < m.data.length) :
    (Wire.read src).1 = .error (.payload m.seq m.data.length) := by
  rw [read_header hsrc hlen, if_neg (not_not.mpr hm), if_pos (by omega), if_pos hcut]

/-- The reader passes on marked messages only. -/
theorem marked_of_read (h : (Wire.read src).1 = .ok m) :
    m.magicVersion = MagicVersion := by
  unfold Wire.read at h
  dsimp only at h
  split at h
  · simp at h
  · split at h
    · simp at h
    · rename_i hv
      split at h
      · split at h
        · simp at h
        · rw [← Except.ok.inj h]
          exact not_not.mp hv
      · rw [← Except.ok.inj h]
        exact not_not.mp hv

theorem Reads.marked {ms : List WireMessage} {err : ReadErr} (h : Reads src ms err) :
    ∀ m ∈ ms, m.magicVersion = MagicVersion := by
  induction h with
  | error _ =>
    intro m hm
    simp at hm
  | ok hread _ ih =>
    intro m hm
    rcases List.mem_cons.mp hm with rfl | hm
    · exact marked_of_read hread
    · exact ih m hm

/-! ## A stream that ends anywhere -/

/-- The messages that are complete in the first `n` bytes. -/
def arrived (n : Nat) : List WireMessage → List WireMessage
  | [] => []
  | m :: ms => if m.bytes.length ≤ n then m :: arrived (n - m.bytes.length) ms else []

theorem arrived_all (ms : List WireMessage) :
    arrived (ms.flatMap WireMessage.bytes).length ms = ms := by
  induction ms with
  | nil => rfl
  | cons m ms ih =>
    rw [List.flatMap_cons, List.length_append, arrived, if_pos (by omega),
      Nat.add_sub_cancel_left, ih]

/-- **What the reader must make of the beginning of what `msgs` were written as.** -/
structure ReadBack (msgs : List WireMessage) (src : Source) : Prop where
  /-- All of them, if nothing is missing. -/
  all : src.flatten = msgs.flatMap WireMessage.bytes → ∃ err, Reads src msgs err
  /-- Else those that are complete, and then an error: `io.EOF` only between two messages. -/
  cut : ∃ err, Reads src (arrived src.flatten.length msgs) err ∧ (err = .eof →
    src.flatten = (arrived src.flatten.length msgs).flatMap WireMessage.bytes)

/-- Marked messages are read back, wherever the stream ends. -/
theorem reads_arrived {msgs : List WireMessage}
    (hsent : ∀ m ∈ msgs, Sent m ∧ m.data.length < 2 ^ 32)
    (hsrc : src.flatten <+: msgs.flatMap WireMessage.bytes)
    (hclose : closeNotice ∉ arrived src.flatten.length msgs) :
    ∃ err, Reads src (arrived src.flatten.length msgs) err ∧ (err = .eof →
      src.flatten = (arrived src.flatten.length msgs).flatMap WireMessage.bytes) := by
  induction msgs generalizing src with
  | nil =>
    have hnil : src.flatten = [] := List.prefix_nil.mp hsrc
    refine ⟨.eof, .error ?_, fun _ => hnil⟩
    rw [read_short (by rw [hnil]; decide), hnil]
    rfl
  | cons m ms ih =>
    obtain ⟨hm, hlen⟩ := hsent m List.mem_cons_self
    have hms : ∀ m' ∈ ms, Sent m' ∧ m'.data.length < 2 ^ 32 :=
      fun m' h' => hsent m' (List.mem_cons_of_mem _ h')
    rw [List.flatMap_cons] at hsrc
    by_cases hall : m.bytes.length ≤ src.flatten.length
    · -- the first message is complete: it is read, and the rest goes on behind it
      obtain ⟨rest, hrest⟩ : m.bytes <+: src.flatten :=
        List.prefix_of_prefix_length_le (List.prefix_append _ _) hsrc hall
      have hrest' : rest <+: ms.flatMap WireMessage.bytes := by
        rw [← hrest] at hsrc
        exact (List.prefix_append_right_inj _).mp hsrc
      have hcut : src.flatten.length - m.bytes.length = rest.length := by
        rw [← hrest, List.length_append]
        omega
      rw [arrived, if_pos hall, hcut] at hclose ⊢
      have hne : m ≠ closeNotice := fun he => hclose (he ▸ List.mem_cons_self)
      obtain ⟨hread, hleft⟩ := read_whole hrest.symm hlen (hm.marked hne)
      rw [← hleft] at hrest' hclose ⊢
      obtain ⟨err, hreads, heof⟩ := ih hms hrest' (fun h' => hclose (List.mem_cons_of_mem _ h'))
      refine ⟨err, .ok hread hreads, fun he => ?_⟩
      rw [List.flatMap_cons, ← heof he, hleft, hrest]
    · -- it is not: nothing is read, and the error says where the stream ends
      rw [arrived, if_neg hall]
      by_cases hshort : src.flatten.length < getRequestHeaderSize
      · refine ⟨_, .error (read_short hshort), fun he => ?_⟩
        split at he
        · rename_i h0
          exact List.eq_nil_of_length_eq_zero h0
        · simp at he
      · rw [length_bytes] at hall
        have hpos : 0 < m.data.length := by omega
        have hne : m ≠ closeNotice := fun he => absurd hpos (by rw [he]; decide)
        obtain ⟨rest, hrest⟩ : m.fields.flatten <+: src.flatten := by
          refine List.prefix_of_prefix_length_le ?_ hsrc (by rw [length_header]; omega)
          rw [WireMessage.bytes, List.append_assoc]
          exact List.prefix_append _ _
        have hcut : rest.length < m.data.length := by
          have hadd := congrArg List.length hrest
          rw [List.length_append, length_header] at hadd
          omega
        exact ⟨_, .error (read_cut hrest.symm hlen (hm.marked hne) hcut), fun he =>
          absurd he (by simp)⟩

/--
**The wire round trip**: whatever the two ends write is read back, however the connection
delivers it and wherever it breaks off, unless a close notice is among what has arrived.
-/
theorem readBack_iff (w : Wire) {msgs : List WireMessage}
    (hsent : ∀ m ∈ msgs, Sent m ∧ m.data.length < 2 ^ 32) {src : Source}
    (hsrc : src.flatten <+: w.writeAll msgs) :
    ReadBack msgs src ↔ closeNotice ∉ arrived src.flatten.length msgs := by
  rw [w.writeAll_eq] at hsrc
  constructor
  · intro h hclose
    obtain ⟨err, hreads, -⟩ := h.cut
    exact absurd (hreads.marked _ hclose) (by decide)
  · intro hclose
    have hcut := reads_arrived hsent hsrc hclose
    refine ⟨fun hall => ?_, hcut⟩
    obtain ⟨err, hreads, -⟩ := hcut
    rw [hall, arrived_all] at hreads
    exact ⟨err, hreads⟩

/-- A connection that nothing has been written to. -/
def Wire.new : Wire := ⟨List.replicate getRequestHeaderSize 0, rfl⟩

/-- Two pings. -/
def pings : List WireMessage := [(request .ping [] 0 0 1).onWire, (request .ping [] 0 0 2).onWire]

/-- One of them and the first byte of the other, in two pieces. -/
def pingsCut : Source :=
  [[1, 27, 1], [0, 0, 0, 6, 0, 0, 0, 0, 0, 0, 0, 0, 0, 0, 0, 0, 0, 0, 0, 0, 0, 0, 0, 1]]

theorem readBack_iff_pings :
    pingsCut.flatten = (Wire.new.writeAll pings).take 27 ∧ ReadBack pings pingsCut := by
  have hsent : ∀ m ∈ pings, Sent m ∧ m.data.length < 2 ^ 32 := by
    intro m hm
    rcases List.mem_cons.mp hm with rfl | hm
    · exact ⟨.request .ping [] 0 0 1, by decide⟩
    · obtain rfl := List.mem_singleton.mp hm
      exact ⟨.request .ping [] 0 0 2, by decide⟩
  have hsrc : pingsCut.flatten = (Wire.new.writeAll pings).take 27 := by decide
  exact ⟨hsrc, (readBack_iff Wire.new hsent (hsrc ▸ List.take_prefix 27 _)).mpr (by decide)⟩

/-- The notice is all that is written, and it is refused. -/
theorem closeNotice_not_readBack :
    Sent closeNotice
      ∧ (Wire.read [closeNotice.bytes]).1 = .error (.wrongVersion 0)
      ∧ ¬ ReadBack [closeNotice] [closeNotice.bytes] := by
  refine ⟨.close, by decide, fun h => ?_⟩
  obtain ⟨err, hreads⟩ := h.all (by decide)
  exact absurd (hreads.marked _ List.mem_cons_self) (by decide)

end WeftBlock.DataConn
