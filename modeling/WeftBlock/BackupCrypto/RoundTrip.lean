import WeftBlock.BackupCrypto.Accepted

/-!
# Encrypt, then decrypt

What an encoder puts out, for any way of cutting the plaintext into writes, is a stream of the
grammar that decoders accept, with that plaintext. `Filled` is what holds between two writes:
the full chunks of the plaintext are out, and less than a chunk is in the buffer.
-/

namespace WeftBlock.BackupCrypto

open Bytes

/-- What the round trip needs of a cipher: `Open` inverts `Seal`, and a tag is 16 bytes. -/
structure AEAD.Lawful (a : AEAD) : Prop where
  open_seal : ∀ nonce p additionalData,
    a.Open nonce (a.Seal nonce p additionalData) additionalData = some p
  length_seal : ∀ nonce p additionalData,
    (a.Seal nonce p additionalData).length = p.length + tagLen

/-- Full chunks from number 0 up to `k`. -/
inductive Full (opens : List UInt8 → List UInt8 → List UInt8 → Prop) (noncePrefix : List UInt8)
    (size : Nat) : UInt32 → List UInt8 → List UInt8 → Prop
  | none : Full opens noncePrefix size 0 [] []
  | snoc {k : UInt32} {c p b t : List UInt8} (hrest : Full opens noncePrefix size k b t)
      (h : opens (nonceForChunk noncePrefix k) c p) (hc : c.length = size + tagLen) :
      Full opens noncePrefix size (k + 1) (b ++ (nonceForChunk noncePrefix k ++ c)) (t ++ p)

/-- Full chunks, and then the others. -/
theorem Full.chunks {opens : List UInt8 → List UInt8 → List UInt8 → Prop}
    {noncePrefix : List UInt8} {size : Nat} {k : UInt32} {b t : List UInt8}
    (h : Full opens noncePrefix size k b t) : ∀ {b' t' : List UInt8},
    Chunks opens noncePrefix size k b' t' → Chunks opens noncePrefix size 0 (b ++ b') (t ++ t') := by
  induction h with
  | none => exact fun h' => h'
  | @snoc k c p b t _ ho hc ih =>
    intro b' t' h'
    have := ih (.full ho hc h')
    rwa [List.append_assoc, List.append_assoc, List.append_assoc]

theorem Sink.write_faultless {s : Sink} (h : s.faults = []) (b : List UInt8) :
    s.write b = (⟨s.out ++ b, []⟩, true) := by
  rw [Sink.write, h]

variable {e₀ e : Encoder} {t : List UInt8} {p : List UInt8}

namespace Encoder

variable {aead : Cipher → AEAD}

/-- The chunks of an encoder: what it seals is not empty. -/
def seals (aead : Cipher → AEAD) (e : Encoder) (nonce c p : List UInt8) : Prop :=
  p ≠ [] ∧ c = (aead e.cipher).Seal nonce p e.header

/-- Two states of one encoder. -/
structure Same (e₀ e : Encoder) : Prop where
  cipher : e.cipher = e₀.cipher
  noncePrefix : e.noncePrefix = e₀.noncePrefix
  chunkSize : e.chunkSize = e₀.chunkSize
  header : e.header = e₀.header

/-- **Between two writes**: `t` is what has been written so far. -/
structure Filled (aead : Cipher → AEAD) (e₀ e : Encoder) (t : List UInt8) : Prop where
  same : Same e₀ e
  faults : e.dst.faults = []
  closed : e.closed = false
  lt : e.buf.length < e.chunkSize
  out : ∃ b u, e.dst.out = (if e.headSent then e.header else []) ++ b
    ∧ Full (e.seals aead) e.noncePrefix e.chunkSize e.counter b u
    ∧ t = u ++ e.buf ∧ (e.headSent = false → b = [])

theorem flushChunk_faultless {e : Encoder} (h : e.dst.faults = []) :
    e.flushChunk aead
      = ({ e with
          dst := ⟨e.dst.out ++ nonceForChunk e.noncePrefix e.counter
            ++ (aead e.cipher).Seal (nonceForChunk e.noncePrefix e.counter) e.buf e.header, []⟩
          buf := []
          counter := e.counter + 1
          sealed := e.sealed ++ [(nonceForChunk e.noncePrefix e.counter, e.buf)]
          length_buf := Nat.zero_le _ }, none) := by
  unfold flushChunk Sink.write
  simp only [h, Bool.true_eq_false, if_false]

/-- One round of the loop of `Write` that fills the chunk. -/
theorem Filled.flushed (hl : ∀ c, (aead c).Lawful) (h : Filled aead e₀ e t) (hs : e.headSent = true)
    (hfull : (e.fill p).buf.length = e.chunkSize) :
    ∃ e', (e.fill p).flushChunk aead = (e', none) ∧ e'.headSent = true
      ∧ Filled aead e₀ e' (t ++ p.take (e.need p)) := by
  obtain ⟨b, u, hout, hb, ht, -⟩ := h.out
  have hflush := @flushChunk_faultless aead (e.fill p) h.faults
  refine ⟨_, hflush, hs, ⟨h.same.cipher, h.same.noncePrefix, h.same.chunkSize, h.same.header⟩, rfl,
    h.closed, e.chunkSize_pos, ?_⟩
  have hne : (e.fill p).buf ≠ [] := List.length_pos_iff.mp (hfull ▸ e.chunkSize_pos)
  have hnext := hb.snoc ⟨hne, rfl⟩ (by rw [(hl e.cipher).length_seal, hfull])
  refine ⟨_, _, ?_, hnext, ?_, fun hh => absurd (hs.symm.trans hh) (by decide)⟩
  · show e.dst.out ++ _ ++ _ = (if e.headSent then e.header else []) ++ _
    rw [hout, List.append_assoc, List.append_assoc]
    rfl
  · rw [ht]
    show u ++ e.buf ++ p.take (e.need p) = u ++ (e.buf ++ p.take (e.need p)) ++ []
    rw [List.append_nil, List.append_assoc]

theorem Filled.filled (h : Filled aead e₀ e t) (hfull : (e.fill p).buf.length ≠ e.chunkSize) :
    Filled aead e₀ (e.fill p) (t ++ p.take (e.need p)) := by
  obtain ⟨b, u, hout, hb, ht, hsent⟩ := h.out
  refine ⟨⟨h.same.cipher, h.same.noncePrefix, h.same.chunkSize, h.same.header⟩, h.faults, h.closed,
    Nat.lt_of_le_of_ne (e.fill p).length_buf hfull, b, u, hout, hb, ?_, hsent⟩
  rw [ht, List.append_assoc]
  rfl

theorem absorb_nil (e : Encoder) (written : Nat) : e.absorb aead [] written =
    (e, written, none) := by
  rw [absorb, dif_pos rfl]

theorem absorb_flushed {e e' : Encoder} (hp : p ≠ []) (hfull : (e.fill p).buf.length = e.chunkSize)
    (hflush : (e.fill p).flushChunk aead = (e', none)) (written : Nat) :
    e.absorb aead p written = e'.absorb aead (p.drop (e.need p)) (written + e.need p) := by
  rw [absorb, dif_neg hp, dif_pos hfull]
  split
  · rename_i hflush'
    exact absurd (congrArg Prod.snd (hflush.symm.trans hflush')) (by simp)
  · rename_i e'' hflush'
    obtain rfl : e' = e'' := congrArg Prod.fst (hflush.symm.trans hflush')
    rfl

theorem absorb_unfilled {e : Encoder} (hp : p ≠ [])
    (hfull : (e.fill p).buf.length ≠ e.chunkSize) (written : Nat) :
    e.absorb aead p written = (e.fill p).absorb aead (p.drop (e.need p)) (written + e.need p) := by
  rw [absorb, dif_neg hp, dif_neg hfull]

theorem need_le (e : Encoder) (p : List UInt8) : e.need p ≤ p.length := Nat.min_le_right _ _

/-- **The loop of `Write` takes everything.** -/
theorem absorb_filled (hl : ∀ c, (aead c).Lawful) {e₀ : Encoder} :
    ∀ (e : Encoder) (p : List UInt8) (written : Nat) {t : List UInt8}, Filled aead e₀ e t →
      e.headSent = true → ∃ e', e.absorb aead p written = (e', written + p.length, none)
        ∧ e'.headSent = true ∧ Filled aead e₀ e' (t ++ p) := by
  intro e p written
  -- the cases of the loop: no bytes left, a flush that fails, a flush, and a chunk not yet full
  induction e, p, written using absorb.induct aead with
  | case1 e written =>
    intro t h hs
    refine ⟨e, absorb_nil e written, hs, ?_⟩
    rwa [List.append_nil]
  | case2 e p written hp hfull e' err hflush =>
    intro t h hs
    obtain ⟨e'', hflush', -⟩ := h.flushed hl hs hfull
    exact absurd (congrArg Prod.snd (hflush'.symm.trans hflush)) (by simp)
  | case3 e p written hp hfull e' hflush ih =>
    intro t h hs
    obtain ⟨e'', hflush', hs', h'⟩ := h.flushed hl hs hfull
    obtain rfl : e' = e'' := congrArg Prod.fst (hflush.symm.trans hflush')
    obtain ⟨e₁, he₁, hs₁, h₁⟩ := ih h' hs'
    rw [absorb_flushed hp hfull hflush, he₁]
    refine ⟨e₁, ?_, hs₁, ?_⟩
    · rw [List.length_drop, Nat.add_assoc, Nat.add_sub_cancel' (need_le e p)]
    · rwa [List.append_assoc, List.take_append_drop] at h₁
  | case4 e p written hp hfull ih =>
    intro t h hs
    obtain ⟨e₁, he₁, hs₁, h₁⟩ := ih (h.filled hfull) hs
    rw [absorb_unfilled hp hfull, he₁]
    refine ⟨e₁, ?_, hs₁, ?_⟩
    · rw [List.length_drop, Nat.add_assoc, Nat.add_sub_cancel' (need_le e p)]
    · rwa [List.append_assoc, List.take_append_drop] at h₁

/-- **A write takes everything.** -/
theorem write_filled (hl : ∀ c, (aead c).Lawful) (h : Filled aead e₀ e t) (p : List UInt8) :
    ∃ e', e.write aead p = (e', p.length, none) ∧ Filled aead e₀ e' (t ++ p) := by
  have hzero : ∀ {e e' : Encoder}, e.absorb aead p 0 = (e', 0 + p.length, none) →
      e.absorb aead p 0 = (e', p.length, none) := by
    intro e e' he
    rwa [Nat.zero_add] at he
  rw [write, if_neg (by rw [h.closed]; decide)]
  rcases Bool.eq_false_or_eq_true e.headSent with hs | hs
  · rw [if_pos hs]
    obtain ⟨e', he, -, h'⟩ := absorb_filled hl e p 0 h hs
    exact ⟨e', hzero he, h'⟩
  · -- the first write sends the header
    rw [if_neg (by rw [hs]; decide)]
    obtain ⟨b, u, hout, hb, ht, hsent⟩ := h.out
    have hwrite := Sink.write_faultless h.faults e.header
    have h' : Filled aead e₀ { e with dst := ⟨e.dst.out ++ e.header, []⟩, headSent := true } t := by
      refine ⟨⟨h.same.cipher, h.same.noncePrefix, h.same.chunkSize, h.same.header⟩, rfl, h.closed,
        h.lt, [], u, ?_, hsent hs ▸ hb, ht, fun _ => rfl⟩
      show e.dst.out ++ e.header = e.header ++ []
      rw [hout, if_neg (by rw [hs]; decide), hsent hs, List.append_nil, List.append_nil,
        List.nil_append]
    obtain ⟨e', he, -, h''⟩ := absorb_filled hl _ p 0 h' rfl
    refine ⟨e', ?_, h''⟩
    simp only [hwrite, Bool.true_eq_false, if_false]
    exact hzero he

/-- **What `Close` leaves**: the header, and chunks with the whole plaintext. -/
theorem close_filled (hl : ∀ c, (aead c).Lawful)
    (h : Filled aead e₀ e t) : ∃ e' b, e.close aead = (e', none) ∧ e'.dst.out = e₀.header ++ b
      ∧ Chunks (e₀.seals aead) e₀.noncePrefix e₀.chunkSize 0 b t := by
  obtain ⟨b, u, hout, hb, ht, hsent⟩ := h.out
  have hseals : e.seals aead = e₀.seals aead := by
    funext nonce c p
    rw [seals, seals, h.same.cipher, h.same.header]
  have hhead : (if e.headSent then (e.dst, true) else e.dst.write e.header)
      = (⟨e.header ++ b, []⟩, true) := by
    rcases Bool.eq_false_or_eq_true e.headSent with hs | hs
    · rw [if_pos hs, ← h.faults]
      rw [if_pos hs] at hout
      rw [← hout]
    · rw [if_neg (by rw [hs]; decide), Sink.write_faultless h.faults, hout,
        if_neg (by rw [hs]; decide), hsent hs, List.append_nil, List.append_nil, List.nil_append]
  rw [hseals, h.same.noncePrefix, h.same.chunkSize] at hb
  rw [close, if_neg (by rw [h.closed]; decide)]
  simp only [hhead, Bool.true_eq_false, if_false]
  by_cases hbuf : 0 < e.buf.length
  · rw [if_pos hbuf, flushChunk_faultless rfl]
    refine ⟨_, b ++ (nonceForChunk e.noncePrefix e.counter ++ (aead e.cipher).Seal
      (nonceForChunk e.noncePrefix e.counter) e.buf e.header), rfl, ?_, ?_⟩
    · show e.header ++ b ++ _ ++ _ = _
      rw [List.append_assoc, List.append_assoc, h.same.header]
    · rw [ht]
      refine hb.chunks ?_
      have hlen := (hl e.cipher).length_seal (nonceForChunk e.noncePrefix e.counter) e.buf e.header
      have hlt := h.lt
      rw [h.same.noncePrefix] at hlen ⊢
      refine .short ?_ (by rw [hlen]; omega) (by rw [hlen, ← h.same.chunkSize]; omega)
      rw [← hseals]
      exact ⟨List.length_pos_iff.mp hbuf, rfl⟩
  · have hnil : e.buf = [] := List.eq_nil_of_length_eq_zero (by omega)
    rw [if_neg hbuf]
    refine ⟨_, b, rfl, by rw [h.same.header], ?_⟩
    have hc := hb.chunks .none
    rwa [List.append_nil, ← hnil, ← ht] at hc

/-- Writing pieces one after the other, up to the first error. -/
def writeAll (aead : Cipher → AEAD) (e : Encoder) : List (List UInt8) → Encoder × Option EncErr
  | [] => (e, none)
  | p :: ps =>
    match e.write aead p with
    | (e', _, some err) => (e', some err)
    | (e', _, none) => writeAll aead e' ps

theorem writeAll_filled (hl : ∀ c, (aead c).Lawful) {e₀ : Encoder} (ps : List (List UInt8)) :
    ∀ {e : Encoder} {t : List UInt8}, Filled aead e₀ e t →
      ∃ e', e.writeAll aead ps = (e', none) ∧ Filled aead e₀ e' (t ++ ps.flatten) := by
  induction ps with
  | nil =>
    intro e t h
    refine ⟨e, rfl, ?_⟩
    rwa [List.flatten_nil, List.append_nil]
  | cons p ps ih =>
    intro e t h
    obtain ⟨e₁, he₁, h₁⟩ := write_filled hl h p
    obtain ⟨e₂, he₂, h₂⟩ := ih h₁
    refine ⟨e₂, ?_, ?_⟩
    · rw [writeAll, he₁]
      exact he₂
    · rwa [List.flatten_cons, ← List.append_assoc]

end Encoder

/-- `NewEncoder`, the writes, `Close`: the bytes that have gone out if all returned nil. -/
def encode (aead : Cipher → AEAD) (p : Params) (noncePrefix : List UInt8)
    (writes : List (List UInt8)) : Except EncErr (List UInt8) :=
  match newEncoder ⟨[], []⟩ p noncePrefix with
  | .error err => .error err
  | .ok e =>
    match e.writeAll aead writes with
    | (_, some err) => .error err
    | (e', none) =>
      match e'.close aead with
      | (_, some err) => .error err
      | (e'', none) => .ok e''.dst.out

/-- The byte of the algorithm. -/
def algoByte : Cipher → UInt8
  | .chaCha20Poly1305 => 1
  | .aes256GCM => 2

/-- The header of a stream, in parts that can be taken off one after the other. -/
def headerParts (cipher : Cipher) (size : Nat) (noncePrefix : List UInt8) : List UInt8 :=
  streamHeaderMagic ++ ([1, algoByte cipher] ++ (be 4 size ++ (noncePrefix ++ List.replicate 10 0)))

section

variable {algorithm : Algorithm} {cipher : Cipher} (h : newAEAD algorithm = some cipher)
include h

theorem buildHeader_eq (size : Nat) (noncePrefix : List UInt8) :
    buildHeader algorithm size noncePrefix = headerParts cipher size noncePrefix := by
  unfold buildHeader headerParts
  cases algorithm with
  | other name => exact absurd h (by simp [newAEAD])
  | _ =>
    rw [← Option.some.inj h]
    simp only [algoByte, List.append_assoc]

/-- A decoder for the cipher accepts its byte. -/
theorem checkHeader_algoByte (size : Nat) (noncePrefix : List UInt8) :
    checkHeader algorithm (headerParts cipher size noncePrefix) = none := by
  have hmagic : (headerParts cipher size noncePrefix).take 8 = streamHeaderMagic := rfl
  have hversion : (headerParts cipher size noncePrefix).getD 8 0 = 1 := rfl
  have halgo : (headerParts cipher size noncePrefix).getD 9 0 = algoByte cipher := rfl
  rw [checkHeader, hmagic, hversion, halgo, if_neg (not_not.mpr rfl), if_neg (not_not.mpr rfl)]
  cases algorithm with
  | other name => exact absurd h (by simp [newAEAD])
  | _ =>
    rw [← Option.some.inj h]
    rfl

end

theorem Params.size_lt {p : Params} (h : p.chunkSize < 2 ^ 32) : p.size < 2 ^ 32 := by
  unfold Params.size
  split
  · decide
  · omega

section Header

variable {cipher : Cipher} {size : Nat} {noncePrefix : List UInt8}
  (hlen : noncePrefix.length = streamPrefixLen)
include hlen

theorem length_headerParts : (headerParts cipher size noncePrefix).length = streamHeaderLen := by
  simp only [headerParts, List.length_append, length_be, hlen, List.length_replicate]
  rfl

theorem headerNoncePrefix_parts :
    headerNoncePrefix (headerParts cipher size noncePrefix) = noncePrefix := by
  have hdrop : (headerParts cipher size noncePrefix).drop 14
      = (be 4 size ++ (noncePrefix ++ List.replicate 10 0)).drop 4 := rfl
  rw [headerNoncePrefix, hdrop, List.drop_left' (length_be 4 size), List.take_left' hlen]

omit hlen in
theorem headerChunkSize_parts (hsize : size < 2 ^ 32) :
    headerChunkSize (headerParts cipher size noncePrefix) = size := by
  have hdrop : (headerParts cipher size noncePrefix).drop 10
      = be 4 size ++ (noncePrefix ++ List.replicate 10 0) := rfl
  rw [headerChunkSize, hdrop, List.take_left' (length_be 4 size), ofBe_be]
  exact Nat.mod_eq_of_lt hsize

end Header

theorem newEncoder_filled (aead : Cipher → AEAD) {p : Params} {cipher : Cipher}
    (hp : newAEAD p.algorithm = some cipher) (noncePrefix : List UInt8) :
    ∃ e, newEncoder ⟨[], []⟩ p noncePrefix = .ok e ∧ e.cipher = cipher
      ∧ e.noncePrefix = noncePrefix ∧ e.chunkSize = p.size
      ∧ e.header = buildHeader p.algorithm p.size noncePrefix ∧ Encoder.Filled aead e e [] := by
  rw [newEncoder, hp]
  exact ⟨_, rfl, rfl, rfl, rfl, rfl, ⟨rfl, rfl, rfl, rfl⟩, rfl, rfl, p.size_pos,
    [], [], rfl, .none, rfl, fun _ => rfl⟩

/-- **What an encoder puts out**: a header that decoders for the cipher accept, and chunks. -/
theorem encode_chunks {aead : Cipher → AEAD} (hl : ∀ c, (aead c).Lawful) {p p' : Params}
    {cipher : Cipher} (hp : newAEAD p.algorithm = some cipher)
    (hp' : newAEAD p'.algorithm = some cipher) (hsize : p.chunkSize < 2 ^ 32)
    {noncePrefix : List UInt8} (hlen : noncePrefix.length = streamPrefixLen)
    (writes : List (List UInt8)) :
    ∃ header b, encode aead p noncePrefix writes = .ok (header ++ b)
      ∧ header.length = streamHeaderLen ∧ checkHeader p'.algorithm header = none
      ∧ Chunks (fun nonce c q => q ≠ [] ∧ c = (aead cipher).Seal nonce q header)
          (headerNoncePrefix header) (headerChunkSize header) 0 b writes.flatten := by
  obtain ⟨e, he, rfl, hprefix, hchunk, hhead, hfilled⟩ := newEncoder_filled aead hp noncePrefix
  obtain ⟨e₁, he₁, hfilled₁⟩ := Encoder.writeAll_filled hl writes hfilled
  obtain ⟨e₂, b, he₂, hout, hchunks⟩ := Encoder.close_filled hl hfilled₁
  refine ⟨e.header, b, by rw [encode, he]; simp only [he₁, he₂, hout], ?_⟩
  rw [List.nil_append, hprefix, hchunk] at hchunks
  rw [buildHeader_eq hp] at hhead
  have hnonce : headerNoncePrefix e.header = noncePrefix := by
    rw [hhead]
    exact headerNoncePrefix_parts hlen
  have hchunk : headerChunkSize e.header = p.size := by
    rw [hhead]
    exact headerChunkSize_parts (Params.size_lt hsize)
  refine ⟨?_, ?_, ?_⟩
  · rw [hhead]
    exact length_headerParts hlen
  · rw [hhead]
    exact checkHeader_algoByte hp' _ _
  · rw [hnonce, hchunk]
    exact hchunks

/--
**The encryption round trip**: the bytes of an encoder, read by a decoder for the same cipher,
are the plaintext followed by `io.EOF`, for every way of cutting the plaintext into writes, the
bytes into pieces and the reads into buffers.
-/
theorem encode_reads {aead : Cipher → AEAD} (hl : ∀ c, (aead c).Lawful) {p p' : Params}
    {cipher : Cipher} (hp : newAEAD p.algorithm = some cipher)
    (hp' : newAEAD p'.algorithm = some cipher) (hsize : p.chunkSize < 2 ^ 32)
    {noncePrefix : List UInt8} (hlen : noncePrefix.length = streamPrefixLen)
    (writes : List (List UInt8)) :
    ∃ bytes, encode aead p noncePrefix writes = .ok bytes
      ∧ ∀ (src : Source) (sizes : Nat → Nat), src.flatten = bytes → (∀ i, 1 ≤ sizes i) →
        ∃ d, newDecoder src p' = .ok d ∧ Reads aead d sizes writes.flatten .eof := by
  obtain ⟨header, b, he, hlength, hcheck, hchunks⟩ := encode_chunks hl hp hp' hsize hlen writes
  refine ⟨header ++ b, he, fun src sizes hsrc hsizes => ?_⟩
  obtain ⟨d, hd, rfl⟩ : ∃ d, newDecoder src p' = .ok d ∧ d.cipher = cipher := by
    rw [newDecoder, hp']
    exact ⟨_, rfl, rfl⟩
  refine ⟨d, hd, (reads_eof_iff hd hsizes _).mpr ⟨header, b, hsrc, hlength, hcheck, ?_⟩⟩
  refine hchunks.mono fun nonce c q hq => ?_
  rw [hq.2]
  exact (hl d.cipher).open_seal nonce q header

/-- A cipher that only appends a tag of zeros. -/
def tagging : AEAD where
  Seal _ p _ := p ++ List.replicate tagLen 0
  Open _ c _ := some (c.take (c.length - tagLen))

theorem tagging_lawful : tagging.Lawful := by
  constructor
  · intro nonce p additionalData
    show some ((p ++ List.replicate tagLen 0).take ((p ++ List.replicate tagLen 0).length - tagLen))
      = some p
    rw [List.length_append, List.length_replicate, Nat.add_sub_cancel, List.take_left]
  · intro nonce p additionalData
    show (p ++ List.replicate tagLen 0).length = _
    rw [List.length_append, List.length_replicate]

/-- Three bytes in two writes and chunks of two bytes, into buffers of one byte. -/
theorem encode_reads_three : ∃ bytes,
    encode (fun _ => tagging) ⟨.aes256GCM, 2⟩ [1, 2, 3, 4, 5, 6, 7, 8] [[1], [2, 3]] = .ok bytes
      ∧ ∃ d, newDecoder [bytes] ⟨.aes256GCM, 0⟩ = .ok d
        ∧ Reads (fun _ => tagging) d (fun _ => 1) [1, 2, 3] .eof := by
  obtain ⟨bytes, he, hr⟩ := @encode_reads (fun _ => tagging) (fun _ => tagging_lawful)
    ⟨.aes256GCM, 2⟩ ⟨.aes256GCM, 0⟩ .aes256GCM rfl rfl (by decide) [1, 2, 3, 4, 5, 6, 7, 8] rfl
    [[1], [2, 3]]
  exact ⟨bytes, he, hr [bytes] (fun _ => 1) (by simp) (fun _ => Nat.le_refl 1)⟩

end WeftBlock.BackupCrypto
