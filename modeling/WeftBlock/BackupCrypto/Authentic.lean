import WeftBlock.BackupCrypto.RoundTrip

/-!
# What a decoder can be made to read

With an ideal cipher a chunk opens only if an encoder with the key has sealed it under the same
nonce and header. A stream put together by somebody without the key is then one of the grammar
`Accepted`, with chunks that encoders have produced. But the grammar does not say where a stream
ends. One that is cut off behind any of its chunks is read to `io.EOF`, and so is a bare header,
of which nothing is authenticated at all.
-/

namespace WeftBlock.BackupCrypto

open Bytes

/-- A call of an encoder's methods. -/
inductive Call
  | write (p : List UInt8)
  | close

/-- The encoder after a call, and whether the call returned nil. -/
def Encoder.call (aead : Cipher → AEAD) (e : Encoder) : Call → Encoder × Bool
  | .write p => ((e.write aead p).1, (e.write aead p).2.2.isNone)
  | .close => ((e.close aead).1, (e.close aead).2.isNone)

/-- The encoder after some calls, and whether all of them returned nil. -/
def Encoder.calls (aead : Cipher → AEAD) (e : Encoder) : List Call → Encoder × Bool
  | [] => (e, true)
  | c :: cs =>
    let first := e.call aead c
    let rest := first.1.calls aead cs
    (rest.1, first.2 && rest.2)

/-- All that is done with one encoder. -/
structure Session where
  params : Params
  noncePrefix : List UInt8
  length_noncePrefix : noncePrefix.length = streamPrefixLen
  faults : List (Option Nat)
  calls : List Call

/-- The encoder of a session when it is over, and whether every call returned nil. -/
def Session.run (aead : Cipher → AEAD) (s : Session) : Option (Encoder × Bool) :=
  match newEncoder ⟨[], s.faults⟩ s.params s.noncePrefix with
  | .error _ => none
  | .ok e => some (e.calls aead s.calls)

/-- The session finished a stream of this plaintext. -/
def Session.Finished (aead : Cipher → AEAD) (s : Session) (t : List UInt8) : Prop :=
  ∃ (writes : List (List UInt8)) (e : Encoder), s.calls = writes.map .write ++ [.close]
    ∧ s.run aead = some (e, true) ∧ t = writes.flatten

/-- One of the sessions has sealed `p` to `c` under this cipher, header and nonce. -/
def Produced (aead : Cipher → AEAD) (sessions : Set Session) (cipher : Cipher)
    (header nonce c p : List UInt8) : Prop :=
  ∃ s ∈ sessions, ∃ e ok, s.run aead = some (e, ok) ∧ e.cipher = cipher ∧ e.header = header
    ∧ (nonce, p) ∈ e.sealed ∧ c = (aead cipher).Seal nonce p header

/-- **An ideal cipher**: what opens is what the sessions with the key have produced. -/
def Ideal (aead : Cipher → AEAD) (sessions : Set Session) : Prop :=
  ∀ cipher header nonce c p,
    (aead cipher).Open nonce c header = some p ↔ Produced aead sessions cipher header nonce c p

/--
**The streams that mislead a decoder**: a header it accepts and chunks 0, 1, 2 and so on, which
encoders have produced under this header, all of them full but perhaps the last, and whose
plaintext is that of no finished stream.
-/
def Misleading (aead : Cipher → AEAD) (sessions : Set Session) (cipher : Cipher)
    (algorithm : Algorithm) (bytes : List UInt8) : Prop :=
  ∃ header b t, bytes = header ++ b ∧ Accepted algorithm (Produced aead sessions cipher) header b t
    ∧ ¬ ∃ s ∈ sessions, s.Finished aead t

/-- **Streams cannot be altered unnoticed**, but for the misleading ones. -/
theorem reads_finished_iff {aead : Cipher → AEAD} {sessions : Set Session}
    (hideal : Ideal aead sessions) {src : Source} {p : Params} {d : Decoder}
    (hd : newDecoder src p = .ok d) {sizes : Nat → Nat} (hsizes : ∀ i, 1 ≤ sizes i) :
    (∀ t, Reads aead d sizes t .eof → ∃ s ∈ sessions, s.Finished aead t)
      ↔ ¬ Misleading aead sessions d.cipher p.algorithm src.flatten := by
  have hopens : (fun header nonce c q => (aead d.cipher).Open nonce c header = some q)
      = Produced aead sessions d.cipher := by
    funext header nonce c q
    exact propext (hideal d.cipher header nonce c q)
  have hreads := fun t => @reads_eof_iff aead _ _ _ _ hd hsizes t
  rw [hopens] at hreads
  constructor
  · rintro hall ⟨header, b, t, hsrc, hacc, hnot⟩
    exact hnot (hall t ((hreads t).mpr ⟨header, b, hsrc, hacc⟩))
  · intro hnot t ht
    obtain ⟨header, b, hsrc, hacc⟩ := (hreads t).mp ht
    by_contra hfin
    exact hnot ⟨header, b, t, hsrc, hacc, hfin⟩

/-! ## A stream of two chunks, cut in the middle -/

/-- The header of the stream. -/
def pairHeader : List UInt8 := buildHeader .chaCha20Poly1305 1 (List.replicate 8 0)

/-- The nonces of its chunks. -/
def pairNonce (k : UInt32) : List UInt8 := nonceForChunk (List.replicate 8 0) k

/-- A cipher for which nothing opens but the two chunks. -/
def pairAEAD : Cipher → AEAD
  | .chaCha20Poly1305 =>
    { Seal := fun _ p _ => p ++ List.replicate tagLen 0
      Open := fun nonce c header =>
        if header = pairHeader ∧ nonce = pairNonce 0 ∧ c = [1] ++ List.replicate tagLen 0
          then some [1]
        else if header = pairHeader ∧ nonce = pairNonce 1 ∧ c = [2] ++ List.replicate tagLen 0
          then some [2]
        else none }
  | .aes256GCM => ⟨fun _ p _ => p ++ List.replicate tagLen 0, fun _ _ _ => none⟩

/-- Two bytes in chunks of one byte. -/
def pair : Session where
  params := ⟨.chaCha20Poly1305, 1⟩
  noncePrefix := List.replicate 8 0
  length_noncePrefix := rfl
  faults := []
  calls := [.write [1, 2], .close]

theorem pair_run : ∃ e, pair.run pairAEAD = some (e, true) ∧ e.cipher = .chaCha20Poly1305
    ∧ e.header = pairHeader ∧ e.sealed = [(pairNonce 0, [1]), (pairNonce 1, [2])] := by
  have hok : (pair.run pairAEAD).map Prod.snd = some true := by decide +kernel
  have hcipher : (pair.run pairAEAD).map (fun x => x.1.cipher) = some .chaCha20Poly1305 := by
    decide +kernel
  have hheader : (pair.run pairAEAD).map (fun x => x.1.header) = some pairHeader := by
    decide +kernel
  have hsealed : (pair.run pairAEAD).map (fun x => x.1.sealed)
      = some [(pairNonce 0, [1]), (pairNonce 1, [2])] := by decide +kernel
  cases hrun : pair.run pairAEAD with
  | none => exact absurd (hrun ▸ hok) (by simp)
  | some x =>
    rw [hrun] at hok hcipher hheader hsealed
    obtain ⟨e, ok⟩ := x
    obtain rfl : ok = true := Option.some.inj hok
    exact ⟨e, rfl, Option.some.inj hcipher, Option.some.inj hheader, Option.some.inj hsealed⟩

theorem produced_pair_iff {cipher : Cipher} {header nonce c p : List UInt8} :
    Produced pairAEAD {pair} cipher header nonce c p ↔ cipher = .chaCha20Poly1305
      ∧ header = pairHeader ∧ (nonce = pairNonce 0 ∧ p = [1] ∨ nonce = pairNonce 1 ∧ p = [2])
      ∧ c = p ++ List.replicate tagLen 0 := by
  obtain ⟨e, hrun, hcipher, hheader, hsealed⟩ := pair_run
  constructor
  · rintro ⟨s, hs, e', ok, hrun', rfl, rfl, hmem, hc⟩
    obtain rfl := Set.mem_singleton_iff.mp hs
    obtain rfl : e = e' := congrArg Prod.fst (Option.some.inj (hrun.symm.trans hrun'))
    rw [hsealed] at hmem
    rw [hcipher] at hc
    exact ⟨hcipher, hheader, by simpa using hmem, hc⟩
  · rintro ⟨rfl, rfl, hmem, hc⟩
    refine ⟨pair, rfl, e, true, hrun, hcipher, hheader, ?_, hc⟩
    rw [hsealed]
    simpa using hmem

theorem pair_ideal : Ideal pairAEAD {pair} := by
  intro cipher header nonce c p
  rw [produced_pair_iff]
  cases cipher with
  | aes256GCM => simp [pairAEAD]
  | chaCha20Poly1305 =>
    show (if header = pairHeader ∧ nonce = pairNonce 0 ∧ c = [1] ++ List.replicate tagLen 0
        then some [1]
      else if header = pairHeader ∧ nonce = pairNonce 1 ∧ c = [2] ++ List.replicate tagLen 0
        then some [2]
      else none) = some p ↔ _
    constructor
    · intro h
      split at h
      · rename_i hh
        obtain rfl := Option.some.inj h
        exact ⟨rfl, hh.1, Or.inl ⟨hh.2.1, rfl⟩, hh.2.2⟩
      · split at h
        · rename_i hh
          obtain rfl := Option.some.inj h
          exact ⟨rfl, hh.1, Or.inr ⟨hh.2.1, rfl⟩, hh.2.2⟩
        · simp at h
    · rintro ⟨-, rfl, ⟨rfl, rfl⟩ | ⟨rfl, rfl⟩, rfl⟩
      · rw [if_pos ⟨rfl, rfl, rfl⟩]
      · rw [if_neg (fun hh => absurd hh.2.1 (by decide)), if_pos ⟨rfl, rfl, rfl⟩]

theorem pair_finished_iff {t : List UInt8} : pair.Finished pairAEAD t ↔ t = [1, 2] := by
  constructor
  · rintro ⟨writes, e, hcalls, -, rfl⟩
    have hwrites : writes = [[1, 2]] := by
      match writes with
      | [] => exact absurd (congrArg List.length hcalls) (by decide)
      | [w] =>
        have hw := (List.cons.inj hcalls).1
        rw [← Call.write.inj hw]
      | _ :: _ :: _ =>
        have hlen := congrArg List.length hcalls
        simp [pair] at hlen
    rw [hwrites]
    rfl
  · rintro rfl
    obtain ⟨e, hrun, -⟩ := pair_run
    exact ⟨[[1, 2]], e, rfl, hrun, rfl⟩

/-- The stream up to its first chunk. -/
def pairCut : List UInt8 := pairHeader ++ (pairNonce 0 ++ ([1] ++ List.replicate tagLen 0))

/-- The second chunk. -/
def pairRest : List UInt8 := pairNonce 1 ++ ([2] ++ List.replicate tagLen 0)

/-- The decoder that is given some bytes. -/
def pairDecoder (bytes : List UInt8) : Decoder where
  src := [bytes]
  cipher := .chaCha20Poly1305
  algorithm := .chaCha20Poly1305
  chunkSize := 1
  noncePrefix := List.replicate 8 0
  counter := 0
  header := []
  headRead := false
  pending := []
  done := false

/-- **The stream that is cut behind its first chunk is read to the end**, as the byte 1. -/
theorem cut_misleads : Ideal pairAEAD {pair}
    ∧ newDecoder [pairCut] pair.params = .ok (pairDecoder pairCut)
    ∧ Reads pairAEAD (pairDecoder pairCut) (fun _ => 4096) [1] .eof
    ∧ ¬ ∃ s ∈ ({pair} : Set Session), s.Finished pairAEAD [1] := by
  refine ⟨pair_ideal, rfl, ?_, ?_⟩
  · exact @Reads.ok pairAEAD _ _ [1] [] _ (by decide +kernel) (.error (by decide +kernel))
  · rintro ⟨s, hs, hfin⟩
    obtain rfl := Set.mem_singleton_iff.mp hs
    exact absurd (pair_finished_iff.mp hfin) (by decide)

theorem Reads.unique {aead : Cipher → AEAD} {d : Decoder} {sizes : Nat → Nat} {t t' : List UInt8}
    {err err' : DecErr} (h : Reads aead d sizes t err) (h' : Reads aead d sizes t' err') :
    t = t' := by
  induction h generalizing t' with
  | error hread =>
    cases h' with
    | error _ => rfl
    | ok hread' _ => exact absurd (hread.symm.trans hread') (by simp)
  | ok hread _ ih =>
    cases h' with
    | error hread' => exact absurd (hread.symm.trans hread') (by simp)
    | ok hread' hrest' =>
      rw [Except.ok.inj (hread.symm.trans hread'), ih hrest']

/-- The whole stream does not mislead. -/
theorem reads_finished_iff_pair :
    ¬ Misleading pairAEAD {pair} .chaCha20Poly1305 .chaCha20Poly1305 (pairCut ++ pairRest) := by
  have hreads : Reads pairAEAD (pairDecoder (pairCut ++ pairRest)) (fun _ => 4096) [1, 2] .eof :=
    @Reads.ok pairAEAD _ _ [1] [2] _ (by decide +kernel)
      (@Reads.ok pairAEAD _ _ [2] [] _ (by decide +kernel) (.error (by decide +kernel)))
  have hd : newDecoder [pairCut ++ pairRest] pair.params
      = .ok (pairDecoder (pairCut ++ pairRest)) := rfl
  have h := (@reads_finished_iff pairAEAD {pair} pair_ideal _ _ _ hd (fun _ => 4096)
    (fun _ => by decide)).mp
    (fun t ht => ⟨pair, rfl, pair_finished_iff.mpr (ht.unique hreads)⟩)
  rwa [List.flatten_singleton] at h

end WeftBlock.BackupCrypto
