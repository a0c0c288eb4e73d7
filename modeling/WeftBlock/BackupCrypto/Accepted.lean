import WeftBlock.BackupCrypto.Codec

/-!
# The streams a decoder reads to the end

What a `Decoder` accepts is a small grammar: a header that passes the checks, and then chunks
numbered from 0, all of them full but perhaps the last, each of which opens. Nothing marks the
last chunk: a stream may end after any of them.

`Chunks` is the grammar of what comes after the header, together with the plaintext.
`reads_eof_iff` says that the decoder reads to the end exactly what the grammar describes,
and gives out that plaintext, whatever the buffers it is read into and the pieces its source
comes in.
-/

namespace WeftBlock.BackupCrypto

open Bytes

/-- Chunks from number `k` on, for a relation of what opens to what under which nonce. -/
inductive Chunks (opens : List UInt8 → List UInt8 → List UInt8 → Prop) (noncePrefix : List UInt8)
    (size : Nat) : UInt32 → List UInt8 → List UInt8 → Prop
  | none {k : UInt32} : Chunks opens noncePrefix size k [] []
  | short {k : UInt32} {c p : List UInt8} (h : opens (nonceForChunk noncePrefix k) c p)
      (hpos : 0 < c.length) (hc : c.length < size + tagLen) :
      Chunks opens noncePrefix size k (nonceForChunk noncePrefix k ++ c) p
  | full {k : UInt32} {c p b t : List UInt8} (h : opens (nonceForChunk noncePrefix k) c p)
      (hc : c.length = size + tagLen) (hrest : Chunks opens noncePrefix size (k + 1) b t) :
      Chunks opens noncePrefix size k (nonceForChunk noncePrefix k ++ (c ++ b)) (p ++ t)

variable {noncePrefix : List UInt8} {t : List UInt8}

variable {size : Nat} {k : UInt32}

theorem Chunks.nil_iff {opens : List UInt8 → List UInt8 → List UInt8 → Prop} :
    Chunks opens noncePrefix size k [] t ↔ t = [] := by
  constructor
  · intro h
    generalize hb : ([] : List UInt8) = b at h
    cases h with
    | none => rfl
    | short _ hpos _ =>
      have := congrArg List.length hb
      rw [List.length_append, List.length_nil] at this
      omega
    | full _ hc _ =>
      have := congrArg List.length hb
      rw [List.length_append, List.length_append, List.length_nil, hc] at this
      exact absurd this (by rw [tagLen]; omega)
  · rintro rfl
    exact .none

theorem Chunks.mono {opens opens' : List UInt8 → List UInt8 → List UInt8 → Prop} {b t : List UInt8}
    (h : Chunks opens noncePrefix size k b t)
    (hsub : ∀ nonce c p, opens nonce c p → opens' nonce c p) :
    Chunks opens' noncePrefix size k b t := by
  induction h with
  | none => exact .none
  | short ho hpos hc => exact .short (hsub _ _ _ ho) hpos hc
  | full ho hc _ ih => exact .full (hsub _ _ _ ho) hc ih

/-- What opens for a decoder. -/
def Decoder.opens (aead : Cipher → AEAD) (d : Decoder) (nonce c p : List UInt8) : Prop :=
  (aead d.cipher).Open nonce c d.header = some p

/-! ## One read -/

section Read

variable {aead : Cipher → AEAD} {d : Decoder}

/-- The decoder is past the header, and when it knows that it is done nothing is left. -/
structure Decoder.Started (d : Decoder) : Prop where
  headRead : d.headRead = true
  length_noncePrefix : d.noncePrefix.length = streamPrefixLen
  done : d.done = true → d.src.flatten = []

/-- The decoder with other bytes pending. -/
def Decoder.withPending (d : Decoder) (q : List UInt8) : Decoder := { d with pending := q }

theorem Decoder.Started.withPending (h : d.Started) (q : List UInt8) :
    (d.withPending q).Started :=
  ⟨h.headRead, h.length_noncePrefix, h.done⟩

theorem read_pending (h : d.Started) (hp : d.pending ≠ []) (n : Nat) :
    d.read aead n = d.handOut n := by
  rw [Decoder.read, if_neg (fun hh => hp hh.2), if_pos h.headRead]
  exact if_pos hp

theorem read_empty (h : d.Started) (hp : d.pending = []) (hd : d.done = false) (n : Nat) :
    d.read aead n = d.readChunk aead n := by
  rw [Decoder.read, if_neg (fun hh => by rw [hd] at hh; exact Bool.noConfusion hh.1),
    if_pos h.headRead]
  exact if_neg (not_not.mpr hp)

theorem read_done (hp : d.pending = []) (hd : d.done = true) (n : Nat) :
    d.read aead n = (d, .error .eof) := by
  rw [Decoder.read, if_pos ⟨hd, hp⟩]

theorem length_nonceForChunk (h : d.Started) (k : UInt32) :
    (nonceForChunk d.noncePrefix k).length = nonceLen := by
  rw [nonceForChunk, List.length_append, h.length_noncePrefix, length_be]
  rfl

/-- A nonce is accepted exactly when it is the one of the chunk. -/
theorem nonceMatchesCounter_iff {nonce noncePrefix : List UInt8} (hn : nonce.length = nonceLen)
    (hp : noncePrefix.length = streamPrefixLen) (k : UInt32) :
    nonceMatchesCounter nonce noncePrefix k = true ↔ nonce = nonceForChunk noncePrefix k := by
  have hlen : (nonce.drop streamPrefixLen).length = 4 := by
    rw [List.length_drop, hn]
    rfl
  rw [nonceMatchesCounter, Bool.and_eq_true, beq_iff_eq, beq_iff_eq,
    List.take_of_length_le (Nat.le_of_eq hlen)]
  constructor
  · rintro ⟨hfront, hback⟩
    have hbe := be_ofBe (nonce.drop streamPrefixLen)
    rw [hlen, hback] at hbe
    rw [nonceForChunk, hbe, ← hfront, List.take_append_drop]
  · rintro rfl
    rw [nonceForChunk, ← hp, List.take_left, List.drop_left, ofBe_be]
    exact ⟨rfl, Nat.mod_eq_of_lt k.toNat_lt⟩

/-- The decoder after a chunk that opened to `p`, of which `n` bytes are handed out. -/
def Decoder.after (d : Decoder) (src : Source) (p : List UInt8) (short : Bool) (n : Nat) :
    Decoder :=
  { d with src := src, counter := d.counter + 1, pending := p.drop n, done := d.done || short }

/-- A chunk at the front of the source, the rest of it behind the chunk. -/
structure Front (d : Decoder) (c rest : List UInt8) : Prop where
  flatten : d.src.flatten = nonceForChunk d.noncePrefix d.counter ++ (c ++ rest)
  pos : 0 < c.length
  le : c.length ≤ d.chunkSize + tagLen
  short : c.length < d.chunkSize + tagLen → rest = []

theorem Front.not_done {c rest : List UInt8} (hf : Front d c rest) (hd : d.Started) :
    d.done = false := by
  rcases Bool.eq_false_or_eq_true d.done with hdone | hdone
  · have hnil := congrArg List.length (hf.flatten.symm.trans (hd.done hdone))
    have hpos := hf.pos
    rw [List.length_append, List.length_append, List.length_nil] at hnil
    omega
  · exact hdone

/-- **What is read of a source with a chunk at the front.** -/
theorem readChunk_front (h : d.Started) {c rest : List UInt8} (hf : Front d c rest) (n : Nat) :
    ∃ src : Source, src.flatten = rest ∧
      (∀ p, d.opens aead (nonceForChunk d.noncePrefix d.counter) c p →
        d.readChunk aead n = (d.after src p (decide (c.length < d.chunkSize + tagLen)) n,
          .ok (p.take n)))
      ∧ ((aead d.cipher).Open (nonceForChunk d.noncePrefix d.counter) c d.header = none →
        (d.readChunk aead n).2 = .error (.failedToAuthenticate d.counter)) := by
  have hnonce := readFull_append hf.flatten
  rw [length_nonceForChunk h] at hnonce
  have hlen : (nonceForChunk d.noncePrefix d.counter).length = nonceLen := length_nonceForChunk h _
  have hcipher : (readFull (d.chunkSize + tagLen) (readFull nonceLen d.src).2).1 = c
      ∧ (readFull (d.chunkSize + tagLen) (readFull nonceLen d.src).2).2.flatten = rest := by
    rcases Nat.lt_or_ge c.length (d.chunkSize + tagLen) with hlt | hge
    · -- the source ends in this chunk
      rw [hf.short hlt, List.append_nil] at hnonce
      rw [readFull_fst _ (readFull nonceLen d.src).2, flatten_readFull _ (readFull nonceLen d.src).2,
        hnonce.2, hf.short hlt]
      exact ⟨List.take_of_length_le (Nat.le_of_lt hlt), List.drop_of_length_le (Nat.le_of_lt hlt)⟩
    · have hc := readFull_append hnonce.2
      rwa [Nat.le_antisymm hf.le hge] at hc
  have hmatch : nonceMatchesCounter (nonceForChunk d.noncePrefix d.counter) d.noncePrefix
      d.counter = true := (nonceMatchesCounter_iff hlen h.length_noncePrefix _).mpr rfl
  have hpos := hf.pos
  refine ⟨_, hcipher.2, fun p hp => ?_, fun hp => ?_⟩
  · unfold Decoder.readChunk
    dsimp only
    rw [hnonce.1, if_neg (by rw [hlen]; decide), if_neg (by rw [hlen]; decide),
      if_neg (by rw [hmatch]; decide), hcipher.1, if_neg (by omega)]
    rw [show (aead d.cipher).Open _ c d.header = some p from hp]
    rfl
  · unfold Decoder.readChunk
    dsimp only
    rw [hnonce.1, if_neg (by rw [hlen]; decide), if_neg (by rw [hlen]; decide),
      if_neg (by rw [hmatch]; decide), hcipher.1, if_neg (by omega), hp]

/-- **A read that is not refused finds the source at its end, or a chunk at its front.** -/
theorem readChunk_cases (h : d.Started) (n : Nat) :
    ((d.readChunk aead n).2 = .error .eof ∧ d.src.flatten = [])
    ∨ (∃ err, (d.readChunk aead n).2 = .error err ∧ err ≠ .eof)
    ∨ ∃ c rest, Front d c rest := by
  have hfst := readFull_fst nonceLen d.src
  have hsnd := flatten_readFull nonceLen d.src
  unfold Decoder.readChunk
  dsimp only
  split
  · rename_i h0
    refine Or.inl ⟨rfl, ?_⟩
    rw [hfst, List.length_take] at h0
    have : d.src.flatten.length = 0 := by
      rw [nonceLen] at h0
      omega
    exact List.eq_nil_of_length_eq_zero this
  · split
    · exact Or.inr (Or.inl ⟨_, rfl, by simp⟩)
    · rename_i hlen
      split
      · exact Or.inr (Or.inl ⟨_, rfl, by simp⟩)
      · rename_i hmatch
        split
        · exact Or.inr (Or.inl ⟨_, rfl, by simp⟩)
        · rename_i hpos
          rw [readFull_fst _ (readFull nonceLen d.src).2, hsnd] at hpos
          have hlen' : (readFull nonceLen d.src).1.length = nonceLen := by
            rw [hfst, List.length_take] at hlen ⊢
            omega
          have hnonce : d.src.flatten.take nonceLen = nonceForChunk d.noncePrefix d.counter := by
            rw [← hfst]
            exact (nonceMatchesCounter_iff hlen' h.length_noncePrefix _).mp
              ((Bool.eq_false_or_eq_true _).resolve_right hmatch)
          refine Or.inr (Or.inr ⟨(d.src.flatten.drop nonceLen).take (d.chunkSize + tagLen),
            (d.src.flatten.drop nonceLen).drop (d.chunkSize + tagLen), ?_, Nat.pos_of_ne_zero hpos,
            List.length_take_le _ _, fun hlt => ?_⟩)
          · rw [List.take_append_drop, ← hnonce, List.take_append_drop]
          · rw [List.length_take] at hlt
            exact List.drop_of_length_le (by omega)

end Read

/-! ## A whole run -/

variable {aead : Cipher → AEAD} {d : Decoder}

/-- What is read later, once what is pending has been handed out. -/
theorem reads_handOut (hd : d.Started) (hempty : ∀ sizes : Nat → Nat, (∀ i, 1 ≤ sizes i) →
      Reads aead (d.withPending []) sizes t .eof) :
    ∀ (q : List UInt8) (sizes : Nat → Nat), (∀ i, 1 ≤ sizes i) →
      Reads aead (d.withPending q) sizes (q ++ t) .eof := by
  intro q
  -- each read takes at least one byte off what is pending
  induction hn : q.length using Nat.strong_induction_on generalizing q with
  | _ n ih =>
    intro sizes hsizes
    by_cases hq : q = []
    · rw [hq]
      exact hempty sizes hsizes
    · have hread := @read_pending aead _ (hd.withPending q) hq (sizes 0)
      have hlt : (q.drop (sizes 0)).length < n := by
        have hpos := List.length_pos_iff.mpr hq
        have hsize := hsizes 0
        rw [List.length_drop]
        omega
      have hsplit : q ++ t = q.take (sizes 0) ++ (q.drop (sizes 0) ++ t) := by
        rw [← List.append_assoc, List.take_append_drop]
      rw [hsplit]
      refine .ok (by rw [hread]; rfl) ?_
      rw [hread]
      exact ih _ hlt _ rfl _ (fun i => hsizes (i + 1))

theorem readChunk_nil (h : d.src.flatten = []) (n : Nat) :
    (d.readChunk aead n).2 = .error .eof := by
  have h0 : (readFull nonceLen d.src).1.length = 0 := by
    rw [readFull_fst, h]
    rfl
  unfold Decoder.readChunk
  rw [if_pos h0]

/-- At the end of the source only what is pending is left. -/
theorem reads_nil (hd : d.Started)
    (hsrc : d.src.flatten = []) (q : List UInt8) (sizes : Nat → Nat) (hsizes : ∀ i, 1 ≤ sizes i) :
    Reads aead (d.withPending q) sizes q .eof := by
  have hempty : ∀ sizes : Nat → Nat, (∀ i, 1 ≤ sizes i) →
      Reads aead (d.withPending []) sizes [] .eof := by
    intro sizes _
    refine .error ?_
    rcases Bool.eq_false_or_eq_true d.done with hdone | hdone
    · rw [@read_done aead (d.withPending []) rfl hdone]
    · rw [@read_empty aead (d.withPending []) (hd.withPending []) rfl hdone]
      exact @readChunk_nil aead (d.withPending []) hsrc _
  have h := reads_handOut hd hempty q sizes hsizes
  rwa [List.append_nil] at h

/-- A chunk at the front is read, if what comes after it is. -/
theorem reads_front (hd : d.Started) {c rest p t : List UInt8}
    (hf : Front d c rest) (ho : d.opens aead (nonceForChunk d.noncePrefix d.counter) c p)
    (hnext : ∀ (src : Source) (n : Nat), src.flatten = rest → ∀ sizes : Nat → Nat,
      (∀ i, 1 ≤ sizes i) → Reads aead
        (d.after src p (decide (c.length < d.chunkSize + tagLen)) n) sizes (p.drop n ++ t) .eof)
    (q : List UInt8) (sizes : Nat → Nat) (hsizes : ∀ i, 1 ≤ sizes i) :
    Reads aead (d.withPending q) sizes (q ++ (p ++ t)) .eof := by
  have hdone := hf.not_done hd
  refine reads_handOut hd (fun sizes hsizes => ?_) q sizes hsizes
  obtain ⟨src, hflat, hok, -⟩ := @readChunk_front aead _ (hd.withPending []) c rest
    ⟨hf.flatten, hf.pos, hf.le, hf.short⟩ (sizes 0)
  have hread := (@read_empty aead _ (hd.withPending []) rfl hdone (sizes 0)).trans (hok p ho)
  rw [← List.take_append_drop (sizes 0) p, List.append_assoc]
  refine .ok (by rw [hread]) ?_
  rw [hread]
  exact hnext src (sizes 0) hflat _ (fun i => hsizes (i + 1))

/-- **The grammar is read to the end.** -/
theorem reads_of_chunks {opens : List UInt8 → List UInt8 → List UInt8 → Prop} {b t : List UInt8}
    (h : Chunks opens noncePrefix size k b t) :
    ∀ {d : Decoder}, d.Started → opens = d.opens aead → noncePrefix = d.noncePrefix →
      size = d.chunkSize → k = d.counter → b = d.src.flatten → ∀ (q : List UInt8)
      (sizes : Nat → Nat), (∀ i, 1 ≤ sizes i) → Reads aead (d.withPending q) sizes (q ++ t) .eof := by
  induction h with
  | none =>
    intro d hd _ _ _ _ hsrc q sizes hsizes
    rw [List.append_nil]
    exact reads_nil hd hsrc.symm q sizes hsizes
  | @short k c p h hpos hc =>
    intro d hd ho hp hs hk hsrc
    subst ho hp hs hk
    have hf : Front d c [] :=
      ⟨by rw [List.append_nil, ← hsrc], hpos, Nat.le_of_lt hc, fun _ => rfl⟩
    have hfront := reads_front hd hf h (t := []) (fun src n hflat sizes hsizes => by
      rw [List.append_nil]
      exact @reads_nil aead (d.after src p _ n) ⟨hd.headRead, hd.length_noncePrefix, fun _ => hflat⟩
        hflat (p.drop n) sizes hsizes)
    rwa [List.append_nil] at hfront
  | @full k c p b t h hc hrest ih =>
    intro d hd ho hp hs hk hsrc
    subst ho hp hs hk
    have hf : Front d c b := ⟨hsrc.symm, by rw [hc, tagLen]; omega, Nat.le_of_eq hc,
      fun hlt => absurd hlt (by omega)⟩
    have hlast : (d.done || decide (c.length < d.chunkSize + tagLen)) = false := by
      rw [hf.not_done hd, Bool.false_or]
      exact decide_eq_false (by omega)
    refine reads_front hd hf h (fun src n hflat sizes hsizes => ?_)
    exact @ih (d.after src p _ n) ⟨hd.headRead, hd.length_noncePrefix,
      fun hdone => absurd (hlast.symm.trans hdone) (by decide)⟩ rfl rfl rfl rfl hflat.symm
      (p.drop n) sizes hsizes

/-- One read of a decoder with nothing pending: the end, a chunk that opens, or another error. -/
theorem read_cases (hd : d.Started) (hp : d.pending = []) (n : Nat) :
    ((d.read aead n).2 = .error .eof ∧ d.src.flatten = [])
    ∨ (∃ err, (d.read aead n).2 = .error err ∧ err ≠ .eof)
    ∨ ∃ c rest p src, Front d c rest
      ∧ d.opens aead (nonceForChunk d.noncePrefix d.counter) c p
      ∧ src.flatten = rest
      ∧ d.read aead n = (d.after src p (decide (c.length < d.chunkSize + tagLen)) n,
          .ok (p.take n)) := by
  rcases Bool.eq_false_or_eq_true d.done with hdone | hdone
  · rw [read_done hp hdone]
    exact Or.inl ⟨rfl, hd.done hdone⟩
  rw [read_empty hd hp hdone]
  rcases @readChunk_cases aead d hd n with h | h | ⟨c, rest, hf⟩
  · exact Or.inl h
  · exact Or.inr (Or.inl h)
  · obtain ⟨src, hsrc, hok, herr⟩ := @readChunk_front aead d hd c rest hf n
    cases ho : (aead d.cipher).Open (nonceForChunk d.noncePrefix d.counter) c d.header with
    | none => exact Or.inr (Or.inl ⟨_, herr ho, by simp⟩)
    | some p => exact Or.inr (Or.inr ⟨c, rest, p, src, hf, ho, hsrc, hok p ho⟩)

variable {sizes : Nat → Nat} {err : DecErr}

/-- **Nothing else is.** -/
theorem chunks_of_reads (h : Reads aead d sizes t err) (hd : d.Started) (he : err = .eof) :
    ∃ t', t = d.pending ++ t'
      ∧ Chunks (d.opens aead) d.noncePrefix d.chunkSize d.counter d.src.flatten t' := by
  induction h with
  | @error d sizes err h =>
    subst he
    by_cases hp : d.pending = []
    · rcases @read_cases aead d hd hp (sizes 0) with ⟨-, hnil⟩ | ⟨err, he, hne⟩ |
        ⟨c, rest, p, src, -, -, -, hread⟩
      · rw [hnil]
        exact ⟨[], by rw [hp]; rfl, .none⟩
      · exact absurd (Except.error.inj (he.symm.trans h)) hne
      · rw [hread] at h
        simp at h
    · rw [read_pending hd hp] at h
      exact absurd h (by simp [Decoder.handOut])
  | @ok d sizes b rest err h hrest ih =>
    by_cases hp : d.pending = []
    · rcases @read_cases aead d hd hp (sizes 0) with ⟨he, -⟩ | ⟨err, he, -⟩ |
        ⟨c, r, p, src, hf, ho, hsrc, hread⟩
      · rw [he] at h
        simp at h
      · rw [he] at h
        simp at h
      · rw [hread] at h ih
        have hdone : (d.after src p (decide (c.length < d.chunkSize + tagLen)) (sizes 0)).done
            = true → c.length < d.chunkSize + tagLen := by
          intro hdone
          rw [Decoder.after, hf.not_done hd, Bool.false_or] at hdone
          exact of_decide_eq_true hdone
        obtain ⟨t', ht', hc⟩ := ih ⟨hd.headRead, hd.length_noncePrefix,
          fun hh => hsrc.trans (hf.short (hdone hh))⟩ he
        refine ⟨p ++ t', ?_, ?_⟩
        · rw [ht', hp, ← Except.ok.inj h]
          show p.take _ ++ (p.drop _ ++ t') = _
          rw [← List.append_assoc, List.take_append_drop, List.nil_append]
        · rw [hf.flatten]
          rcases Nat.lt_or_ge c.length (d.chunkSize + tagLen) with hlt | hge
          · -- a short chunk, nothing behind it
            have hnil : src.flatten = [] := hsrc.trans (hf.short hlt)
            have ht : t' = [] := Chunks.nil_iff.mp (hnil ▸ hc)
            rw [hf.short hlt, ht, List.append_nil, List.append_nil]
            exact .short ho hf.pos hlt
          · refine .full ho (Nat.le_antisymm hf.le hge) ?_
            rw [← hsrc]
            exact hc
    · rw [read_pending hd hp] at h ih
      obtain ⟨t', ht', hc⟩ := ih ⟨hd.headRead, hd.length_noncePrefix, hd.done⟩ he
      refine ⟨t', ?_, hc⟩
      rw [ht', ← Except.ok.inj h]
      show _ ++ (d.pending.drop _ ++ t') = _
      rw [← List.append_assoc, List.take_append_drop]

/-! ## With the header -/

/-- A stream: a header that a decoder for `algorithm` accepts, and chunks from 0 on. -/
structure Accepted (algorithm : Algorithm)
    (opens : List UInt8 → List UInt8 → List UInt8 → List UInt8 → Prop)
    (header b t : List UInt8) : Prop where
  length : header.length = streamHeaderLen
  check : checkHeader algorithm header = none
  chunks : Chunks (opens header) (headerNoncePrefix header) (headerChunkSize header) 0 b t

/-- Decoders that read the same go on the same. -/
theorem Reads.of_read_eq {d d' : Decoder} (h : ∀ n, d.read aead n = d'.read aead n)
    (hr : Reads aead d sizes t err) : Reads aead d' sizes t err := by
  cases hr with
  | error hread => exact .error (by rw [← h]; exact hread)
  | ok hread hrest => exact .ok (by rw [← h]; exact hread) (by rw [← h]; exact hrest)

/-- The decoder past the header. -/
def Decoder.headed (d : Decoder) (src : Source) (header : List UInt8) : Decoder :=
  { d with
    src := src
    chunkSize := headerChunkSize header
    noncePrefix := headerNoncePrefix header
    header := header
    headRead := true }

/-- A new decoder, before the first read. -/
structure Decoder.New (d : Decoder) : Prop where
  headRead : d.headRead = false
  pending : d.pending = []
  done : d.done = false
  counter : d.counter = 0

theorem read_new_ok {d d' : Decoder} (h : d.New)
    (hr : d.readHeader = (d', none)) (hp : d'.pending = []) (n : Nat) :
    d.read aead n = d'.readChunk aead n := by
  rw [Decoder.read, if_neg (fun hh => by rw [h.done] at hh; exact Bool.noConfusion hh.1), h.headRead]
  simp only [Bool.false_eq_true, if_false, hr, hp, ne_eq, not_true_eq_false]

theorem read_new_error {d d' : Decoder} (h : d.New)
    (hr : d.readHeader = (d', some err)) (n : Nat) : d.read aead n = (d', .error err) := by
  rw [Decoder.read, if_neg (fun hh => by rw [h.done] at hh; exact Bool.noConfusion hh.1), h.headRead]
  simp only [Bool.false_eq_true, if_false, hr]

/-- The header is read, and the rest as if it had been read before. -/
theorem read_headed (h : d.New) {header b : List UInt8}
    (hsrc : d.src.flatten = header ++ b) (hlen : header.length = streamHeaderLen)
    (hcheck : checkHeader d.algorithm header = none) :
    ∃ src : Source, src.flatten = b ∧ (d.headed src header).Started
      ∧ ∀ n, d.read aead n = (d.headed src header).read aead n := by
  have hfull := readFull_append hsrc
  rw [hlen] at hfull
  have hstarted : (d.headed (readFull streamHeaderLen d.src).2 header).Started := by
    refine ⟨rfl, ?_, fun hdone => absurd (h.done.symm.trans hdone) (by decide)⟩
    show (headerNoncePrefix header).length = _
    rw [headerNoncePrefix, List.length_take, List.length_drop, hlen]
    rfl
  refine ⟨(readFull streamHeaderLen d.src).2, hfull.2, hstarted, fun n => ?_⟩
  have hread : d.readHeader = (d.headed (readFull streamHeaderLen d.src).2 header, none) := by
    unfold Decoder.readHeader
    dsimp only
    rw [hfull.1, if_neg (by omega), hcheck]
    rfl
  rw [read_new_ok h hread h.pending, read_empty hstarted h.pending h.done]

theorem checkHeader_ne_eof {algorithm : Algorithm} {header : List UInt8}
    (h : checkHeader algorithm header = some err) : err ≠ .eof := by
  rintro rfl
  unfold checkHeader at h
  split_ifs at h <;> exact absurd h (by simp)

theorem read_refused (h : d.New)
    (hbad : ∀ header b, d.src.flatten = header ++ b → header.length = streamHeaderLen →
      checkHeader d.algorithm header ≠ none) (n : Nat) :
    ∃ err, (d.read aead n).2 = .error err ∧ err ≠ .eof := by
  have hheader : ∃ d' err, d.readHeader = (d', some err) ∧ err ≠ .eof := by
    unfold Decoder.readHeader
    by_cases hlen : (readFull streamHeaderLen d.src).1.length < streamHeaderLen
    · rw [if_pos hlen]
      exact ⟨_, _, rfl, by simp⟩
    · rw [if_neg hlen]
      have hfst := readFull_fst streamHeaderLen d.src
      have hlen' : (readFull streamHeaderLen d.src).1.length = streamHeaderLen := by
        rw [hfst, List.length_take] at hlen ⊢
        omega
      have hsplit : d.src.flatten
          = (readFull streamHeaderLen d.src).1 ++ d.src.flatten.drop streamHeaderLen := by
        rw [hfst, List.take_append_drop]
      cases hc : checkHeader d.algorithm (readFull streamHeaderLen d.src).1 with
      | none => exact absurd hc (hbad _ _ hsplit hlen')
      | some err => exact ⟨_, _, rfl, checkHeader_ne_eof hc⟩
  obtain ⟨d', err, hr, hne⟩ := hheader
  exact ⟨err, by rw [read_new_error h hr], hne⟩

/-- **What a new decoder reads to the end**, and the plaintext that comes out. -/
theorem reads_eof_iff {src : Source} {p : Params}
    (hd : newDecoder src p = .ok d) (hsizes : ∀ i, 1 ≤ sizes i)
    (t : List UInt8) :
    Reads aead d sizes t .eof ↔ ∃ header b, src.flatten = header ++ b
      ∧ Accepted p.algorithm (fun header nonce c p => (aead d.cipher).Open nonce c header = some p)
          header b t := by
  have hnew : d.New ∧ d.src = src ∧ d.algorithm = p.algorithm := by
    unfold newDecoder at hd
    split at hd
    · simp at hd
    · rw [← Except.ok.inj hd]
      exact ⟨⟨rfl, rfl, rfl, rfl⟩, rfl, rfl⟩
  obtain ⟨hnew, rfl, halg⟩ := hnew
  constructor
  · intro h
    by_cases hgood : ∃ header b, d.src.flatten = header ++ b ∧ header.length = streamHeaderLen
        ∧ checkHeader d.algorithm header = none
    · obtain ⟨header, b, hsrc, hlen, hcheck⟩ := hgood
      obtain ⟨src, hb, hstarted, hread⟩ := @read_headed aead d hnew header b hsrc hlen hcheck
      obtain ⟨t', ht', hc⟩ := chunks_of_reads (h.of_read_eq hread) hstarted rfl
      have ht : t = t' := ht'.trans (congrArg (· ++ t') hnew.pending)
      refine ⟨header, b, hsrc, hlen, halg ▸ hcheck, ?_⟩
      rw [← hb, ht, ← hnew.counter]
      exact hc
    · -- the first read already ends with another error
      have hbad : ∀ header b, d.src.flatten = header ++ b → header.length = streamHeaderLen →
          checkHeader d.algorithm header ≠ none :=
        fun header b hsrc hlen hcheck => hgood ⟨header, b, hsrc, hlen, hcheck⟩
      obtain ⟨err, herr, hne⟩ := @read_refused aead d hnew hbad (sizes 0)
      cases h with
      | error hread => exact absurd (Except.error.inj (herr.symm.trans hread)) hne
      | ok hread _ => exact absurd (herr.symm.trans hread) (by simp)
  · rintro ⟨header, b, hsrc, hacc⟩
    obtain ⟨src, hb, hstarted, hread⟩ :=
      @read_headed aead d hnew header b hsrc hacc.length (halg ▸ hacc.check)
    refine Reads.of_read_eq (fun n => (hread n).symm) ?_
    have hc := hacc.chunks
    rw [← hb, ← hnew.counter] at hc
    have hr := reads_of_chunks hc hstarted rfl rfl rfl rfl rfl [] sizes hsizes
    have hself : (d.headed src header).withPending [] = d.headed src header :=
      (congrArg (d.headed src header).withPending hnew.pending).symm
    rwa [hself] at hr

/-- **Only the bytes count**: not the pieces they come in, nor the buffers they are read into. -/
theorem reads_eof_flatten (p : Params) (src : Source) (t : List UInt8) :
    (∃ d, newDecoder src p = .ok d ∧ Reads aead d (fun i => sizes i + 1) t .eof)
      ↔ ∃ d, newDecoder [src.flatten] p = .ok d ∧ Reads aead d (fun _ => 1) t .eof := by
  cases hp : newAEAD p.algorithm with
  | none => simp [newDecoder, hp]
  | some cipher =>
    have hnew : ∀ src, newDecoder src p = .ok _ := fun src => by rw [newDecoder, hp]
    simp only [hnew, Except.ok.injEq, exists_eq_left']
    rw [reads_eof_iff (hnew src) (fun i => Nat.succ_pos _),
      reads_eof_iff (hnew _) (fun _ => Nat.le_refl 1), List.flatten_singleton]

end WeftBlock.BackupCrypto
