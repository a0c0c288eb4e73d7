import WeftBlock.Lib.Bytes

/-!
# The encrypted backup stream

`pkg/backupcrypto`: an `Encoder` cuts what is written to it into chunks, seals each one under
a nonce of the stream's own prefix and the number of the chunk, with the header of the stream
as additional data, and passes header and chunks on. A `Decoder` reads the header, then chunk
after chunk, and hands the plaintext out.

The cipher is a parameter. Errors of the destination are part of the model: a call of its
`Write` may take only some of the bytes. The source of a decoder does not fail, it ends.
-/

namespace WeftBlock.BackupCrypto

open Bytes

/-! ## The cipher -/

/-- `Params.Algorithm`: the names that are known, the empty one, and all others. -/
inductive Algorithm
  | unset
  | chaCha20Poly1305
  | aes256GCM
  | other (name : String)
deriving DecidableEq

/-- The two ciphers. -/
inductive Cipher
  | chaCha20Poly1305
  | aes256GCM
deriving DecidableEq

/-- `cipher.AEAD` for one key. -/
structure AEAD where
  Seal : (nonce plaintext additionalData : List UInt8) → List UInt8
  Open : (nonce ciphertext additionalData : List UInt8) → Option (List UInt8)

/-- `nonceLen`. -/
def nonceLen : Nat := 12

/-- `tagLen`. -/
def tagLen : Nat := 16

/-- `streamHeaderLen`. -/
def streamHeaderLen : Nat := 32

/-- `streamPrefixLen`. -/
def streamPrefixLen : Nat := 8

/-- `defaultChunkSize`. -/
def defaultChunkSize : Nat := 4 * 1024 * 1024

/-- `streamHeaderMagic`: "WEFTBAK1". -/
def streamHeaderMagic : List UInt8 := [87, 69, 70, 84, 66, 65, 75, 49]

/-- `newAEAD`, for a key that the two ciphers accept. -/
def newAEAD : Algorithm → Option Cipher
  | .unset => some .chaCha20Poly1305
  | .chaCha20Poly1305 => some .chaCha20Poly1305
  | .aes256GCM => some .aes256GCM
  | .other _ => none

/-- `Params`, without the key. -/
structure Params where
  algorithm : Algorithm
  chunkSize : Int

/-- The chunk size that both constructors settle on. -/
def Params.size (p : Params) : Nat :=
  if p.chunkSize ≤ 0 then defaultChunkSize else p.chunkSize.toNat

theorem Params.size_pos (p : Params) : 0 < p.size := by
  unfold Params.size
  split
  · decide
  · omega

/-! ## The encoder -/

/-- The destination: what it has taken, and how the next calls of `Write` go. -/
structure Sink where
  out : List UInt8
  /-- All bytes are taken, or only so many and an error is returned. -/
  faults : List (Option Nat)

/-- One call of `Write`, and whether it returned nil. -/
def Sink.write (s : Sink) (b : List UInt8) : Sink × Bool :=
  match s.faults with
  | [] => (⟨s.out ++ b, []⟩, true)
  | none :: faults => (⟨s.out ++ b, faults⟩, true)
  | some n :: faults => (⟨s.out ++ b.take n, faults⟩, false)

/-- The errors of an encoder. -/
inductive EncErr
  /-- "backupcrypto: unknown algorithm ..." -/
  | unknownAlgorithm (name : Algorithm)
  /-- "backupcrypto: write after close" -/
  | writeAfterClose
  /-- "write stream header: ..." -/
  | streamHeader
  /-- "write nonce: ..." -/
  | nonce
  /-- "write ciphertext: ..." -/
  | ciphertext
  /-- "write header on close: ..." -/
  | headerOnClose
deriving DecidableEq

/-- `Encoder`. The random nonce prefix is chosen when it is made. -/
structure Encoder where
  dst : Sink
  cipher : Cipher
  noncePrefix : List UInt8
  counter : UInt32
  chunkSize : Nat
  header : List UInt8
  headSent : Bool
  buf : List UInt8
  closed : Bool
  /-- History: nonce and plaintext of each call of `Seal`. -/
  sealed : List (List UInt8 × List UInt8)
  chunkSize_pos : 0 < chunkSize
  length_buf : buf.length ≤ chunkSize

/-- `buildHeader`. -/
def buildHeader (algorithm : Algorithm) (chunkSize : Nat) (noncePrefix : List UInt8) :
    List UInt8 :=
  let algoByte : UInt8 := match algorithm with
    | .unset => 1
    | .chaCha20Poly1305 => 1
    | .aes256GCM => 2
    | .other _ => 0
  streamHeaderMagic ++ [1, algoByte] ++ be 4 chunkSize ++ noncePrefix ++ List.replicate 10 0

/-- `NewEncoder`, given the random bytes it draws. -/
def newEncoder (dst : Sink) (p : Params) (noncePrefix : List UInt8) : Except EncErr Encoder :=
  match newAEAD p.algorithm with
  | none => .error (.unknownAlgorithm p.algorithm)
  | some cipher => .ok
      { dst := dst
        cipher := cipher
        noncePrefix := noncePrefix
        counter := 0
        chunkSize := p.size
        header := buildHeader p.algorithm p.size noncePrefix
        headSent := false
        buf := []
        closed := false
        sealed := []
        chunkSize_pos := p.size_pos
        length_buf := Nat.zero_le _ }

/-- `nonceForChunk`. -/
def nonceForChunk (noncePrefix : List UInt8) (counter : UInt32) : List UInt8 :=
  noncePrefix ++ be 4 counter.toNat

namespace Encoder

variable (aead : Cipher → AEAD)

/-- `flushChunk`. -/
def flushChunk (e : Encoder) : Encoder × Option EncErr :=
  let nonce := nonceForChunk e.noncePrefix e.counter
  let out := (aead e.cipher).Seal nonce e.buf e.header
  let e := { e with sealed := e.sealed ++ [(nonce, e.buf)] }
  let first := e.dst.write nonce
  if first.2 = false then ({ e with dst := first.1 }, some .nonce)
  else
    let second := first.1.write out
    if second.2 = false then ({ e with dst := second.1 }, some .ciphertext)
    else
      ({ e with dst := second.1, buf := [], counter := e.counter + 1,
                length_buf := Nat.zero_le _ }, none)

/-- How much of `p` still fits into the chunk. -/
def need (e : Encoder) (p : List UInt8) : Nat := min (e.chunkSize - e.buf.length) p.length

/-- `e.buf = append(e.buf, p[:need]...)` -/
def fill (e : Encoder) (p : List UInt8) : Encoder :=
  { e with
    buf := e.buf ++ p.take (e.need p)
    length_buf := by
      have h := e.length_buf
      rw [List.length_append, List.length_take, need]
      omega }

theorem flushChunk_ok {e e' : Encoder} (h : e.flushChunk aead = (e', none)) :
    e'.buf = [] ∧ e'.chunkSize = e.chunkSize := by
  unfold flushChunk at h
  dsimp only at h
  split at h
  · simp at h
  · split at h
    · simp at h
    · obtain ⟨rfl, -⟩ := Prod.mk.inj h
      exact ⟨rfl, rfl⟩

theorem length_fill (e : Encoder) (p : List UInt8) :
    (e.fill p).buf.length = e.buf.length + e.need p := by
  rw [fill, List.length_append, List.length_take, need]
  omega

/-- What is left of the work of `Write`: bytes to take, and perhaps a chunk to flush. -/
def toDo (e : Encoder) (p : List UInt8) : Nat :=
  2 * p.length + (if e.buf.length = e.chunkSize then 1 else 0)

theorem toDo_flushed {e e' : Encoder} {p : List UInt8} (hp : p ≠ [])
    (h : (e.fill p).flushChunk aead = (e', none)) : e'.toDo (p.drop (e.need p)) < e.toDo p := by
  obtain ⟨hbuf, hsize⟩ := flushChunk_ok aead h
  have hpos := e.chunkSize_pos
  have hlen := List.length_pos_iff.mpr hp
  have hne : e'.buf.length ≠ e'.chunkSize := by
    rw [hbuf, hsize]
    exact Nat.ne_of_lt hpos
  rw [toDo, toDo, if_neg hne, List.length_drop, need]
  split
  · omega
  · have := e.length_buf
    omega

theorem toDo_filled {e : Encoder} {p : List UInt8} (hp : p ≠ [])
    (h : (e.fill p).buf.length ≠ e.chunkSize) :
    (e.fill p).toDo (p.drop (e.need p)) < e.toDo p := by
  have hlen := List.length_pos_iff.mpr hp
  have hbuf := e.length_buf
  rw [toDo, toDo, if_neg (show (e.fill p).buf.length ≠ (e.fill p).chunkSize from h),
    List.length_drop]
  rw [length_fill, need] at h
  rw [need]
  omega

/-- The loop of `Write`. A chunk that could not be flushed is still there the next time. -/
def absorb (e : Encoder) (p : List UInt8) (written : Nat) : Encoder × Nat × Option EncErr :=
  if _hp : p = [] then (e, written, none)
  else if _hfull : (e.fill p).buf.length = e.chunkSize then
    match _hflush : (e.fill p).flushChunk aead with
    | (e', some err) => (e', written + e.need p, some err)
    | (e', none) => absorb e' (p.drop (e.need p)) (written + e.need p)
  else absorb (e.fill p) (p.drop (e.need p)) (written + e.need p)
termination_by e.toDo p
decreasing_by
  · exact toDo_flushed aead _hp _hflush
  · exact toDo_filled _hp _hfull

/-- `Write`. -/
def write (e : Encoder) (p : List UInt8) : Encoder × Nat × Option EncErr :=
  if e.closed then (e, 0, some .writeAfterClose)
  else if e.headSent then e.absorb aead p 0
  else
    let sent := e.dst.write e.header
    if sent.2 = false then ({ e with dst := sent.1 }, 0, some .streamHeader)
    else absorb aead { e with dst := sent.1, headSent := true } p 0

/-- `Close`. -/
def close (e : Encoder) : Encoder × Option EncErr :=
  if e.closed then (e, none)
  else
    let e := { e with closed := true }
    let sent := if e.headSent then (e.dst, true) else e.dst.write e.header
    if sent.2 = false then ({ e with dst := sent.1 }, some .headerOnClose)
    else
      let e := { e with dst := sent.1 }
      if 0 < e.buf.length then e.flushChunk aead else (e, none)

end Encoder

/-! ## The decoder -/

/-- The errors of a decoder. -/
inductive DecErr
  /-- "backupcrypto: unknown algorithm ..." -/
  | newAlgorithm (name : Algorithm)
  /-- Plain `io.EOF`. -/
  | eof
  /-- "read stream header: ..." -/
  | streamHeader
  /-- "backupcrypto: stream magic mismatch (not a weft-block encrypted backup)" -/
  | magic
  /-- "backupcrypto: stream version ... unsupported" -/
  | version (v : UInt8)
  /-- "backupcrypto: header says ..., decoder configured for ..." -/
  | configuredFor (header : Cipher) (configured : Algorithm)
  /-- "backupcrypto: unknown algorithm byte ..." -/
  | unknownAlgorithm (b : UInt8)
  /-- "read nonce: unexpected EOF" -/
  | nonce
  /-- "backupcrypto: nonce/counter mismatch (re-ordered or tampered stream)" -/
  | nonceMismatch
  /-- "read ciphertext: EOF" -/
  | ciphertext
  /-- "backupcrypto: chunk ... failed to authenticate (key mismatch or tampered stream): ..." -/
  | failedToAuthenticate (counter : UInt32)
deriving DecidableEq

/-- `Decoder`. -/
structure Decoder where
  src : Source
  cipher : Cipher
  algorithm : Algorithm
  chunkSize : Nat
  noncePrefix : List UInt8
  counter : UInt32
  header : List UInt8
  headRead : Bool
  pending : List UInt8
  done : Bool

/-- `NewDecoder`. -/
def newDecoder (src : Source) (p : Params) : Except DecErr Decoder :=
  match newAEAD p.algorithm with
  | none => .error (.newAlgorithm p.algorithm)
  | some cipher => .ok
      { src := src
        cipher := cipher
        algorithm := p.algorithm
        chunkSize := p.size
        noncePrefix := List.replicate streamPrefixLen 0
        counter := 0
        header := []
        headRead := false
        pending := []
        done := false }

/-- The checks of `readHeader` on the 32 bytes it has read. -/
def checkHeader (algorithm : Algorithm) (hdr : List UInt8) : Option DecErr :=
  if hdr.take 8 ≠ streamHeaderMagic then some .magic
  else if hdr.getD 8 0 ≠ 1 then some (.version (hdr.getD 8 0))
  else if hdr.getD 9 0 = 1 then
    if algorithm ≠ .unset ∧ algorithm ≠ .chaCha20Poly1305
      then some (.configuredFor .chaCha20Poly1305 algorithm) else none
  else if hdr.getD 9 0 = 2 then
    if algorithm ≠ .unset ∧ algorithm ≠ .aes256GCM
      then some (.configuredFor .aes256GCM algorithm) else none
  else some (.unknownAlgorithm (hdr.getD 9 0))

/-- `int(binary.BigEndian.Uint32(hdr[10:14]))` -/
def headerChunkSize (hdr : List UInt8) : Nat := ofBe ((hdr.drop 10).take 4)

/-- `hdr[14:14+streamPrefixLen]` -/
def headerNoncePrefix (hdr : List UInt8) : List UInt8 := (hdr.drop 14).take streamPrefixLen

/-- `nonceMatchesCounter`. -/
def nonceMatchesCounter (nonce noncePrefix : List UInt8) (counter : UInt32) : Bool :=
  nonce.take streamPrefixLen == noncePrefix
    && ofBe ((nonce.drop streamPrefixLen).take 4) == counter.toNat

namespace Decoder

variable (aead : Cipher → AEAD)

/-- `readHeader`. -/
def readHeader (d : Decoder) : Decoder × Option DecErr :=
  let full := readFull streamHeaderLen d.src
  let d := { d with src := full.2 }
  if full.1.length < streamHeaderLen then (d, some .streamHeader)
  else
    match checkHeader d.algorithm full.1 with
    | some err => (d, some err)
    | none =>
      ({ d with
        chunkSize := headerChunkSize full.1
        noncePrefix := headerNoncePrefix full.1
        header := full.1
        headRead := true }, none)

/-- `copy(p, d.pending)` into a buffer of `n` bytes. -/
def handOut (d : Decoder) (n : Nat) : Decoder × Except DecErr (List UInt8) :=
  ({ d with pending := d.pending.drop n }, .ok (d.pending.take n))

/-- The part of `Read` that reads the next chunk, with a buffer of `n` bytes. -/
def readChunk (d : Decoder) (n : Nat) : Decoder × Except DecErr (List UInt8) :=
  let first := readFull nonceLen d.src
  let nonce := first.1
  let d := { d with src := first.2 }
  if nonce.length = 0 then ({ d with done := true }, .error .eof)
  else if nonce.length < nonceLen then (d, .error .nonce)
  else if nonceMatchesCounter nonce d.noncePrefix d.counter = false then (d, .error .nonceMismatch)
  else
    let second := readFull (d.chunkSize + tagLen) d.src
    let cipherBuf := second.1
    let d := { d with src := second.2 }
    if cipherBuf.length = 0 then (d, .error .ciphertext)
    else
      match (aead d.cipher).Open nonce cipherBuf d.header with
      | none => (d, .error (.failedToAuthenticate d.counter))
      | some plain =>
        handOut { d with
          counter := d.counter + 1
          pending := plain
          done := d.done || decide (cipherBuf.length < d.chunkSize + tagLen) } n

/-- `Read` into a buffer of `n` bytes. -/
def read (d : Decoder) (n : Nat) : Decoder × Except DecErr (List UInt8) :=
  if d.done ∧ d.pending = [] then (d, .error .eof)
  else
    let opened := if d.headRead then (d, none) else d.readHeader
    match opened.2 with
    | some err => (opened.1, .error err)
    | none =>
      if opened.1.pending ≠ [] then opened.1.handOut n else opened.1.readChunk aead n

end Decoder

/-- Reading until an error, with buffers of the given sizes. -/
inductive Reads (aead : Cipher → AEAD) : Decoder → (Nat → Nat) → List UInt8 → DecErr → Prop
  | error {d : Decoder} {sizes : Nat → Nat} {err : DecErr}
      (h : (d.read aead (sizes 0)).2 = .error err) : Reads aead d sizes [] err
  | ok {d : Decoder} {sizes : Nat → Nat} {b rest : List UInt8} {err : DecErr}
      (h : (d.read aead (sizes 0)).2 = .ok b)
      (hrest : Reads aead (d.read aead (sizes 0)).1 (fun i => sizes (i + 1)) rest err) :
      Reads aead d sizes (b ++ rest) err

end WeftBlock.BackupCrypto
