import WeftBlock.Controller.ReadRace
import WeftBlock.Controller.WriteFaults

/-!
# Concurrent writes during a rebuild

A replica that is being rebuilt is only written whole sectors. So while there is
one, `WriteAt` reads the sectors around its buffer from some RW replica, puts the
buffer into them, and writes them back to all replicas. It holds the controller's
lock for reading only, and so can another call: between the read and the writes
back, the bytes around the buffer may change, and are then written back as they
were.

Both calls run without any fault here. Their steps, the read of each and its write
to each replica, interleave in any way. **Both buffers survive every interleaving
exactly when** no byte that one call writes and the other merely writes back was
different before.
-/

namespace WeftBlock

open DataConn Maps

namespace Controller

variable {β : Type}

/-! ## The two halves of a write -/

/-- `WriteAt` up to its writes: where they go and what they write. -/
def prepare (c : Controller β) (read : β → Nat → Replicator.ReadAnswer) (b : List UInt8)
    (off : Nat) : Option (Controller β × Except IOErr (Nat × List UInt8)) :=
  if c.hasWOReplica = true ∧ ¬ wholeSectors off b.length then
    let start := readOffsetStart off
    let readBuf := List.replicate (readOffsetEnd off b.length - start) 0
    match c.backend.readAt (fun r => read r start) readBuf with
    | none => none
    | some (backend, _, _, some err) => some ({ c with backend := backend }, .error (.retrieve err))
    | some (backend, readBuf, _, none) =>
      some ({ c with backend := backend },
        .ok (start, Slice.copyAt readBuf (off % volumeSectorSize) b))
  else some (c, .ok (off, b))

/-- The count that `WriteAt` returns when its writes returned `n`. -/
def counted (c : Controller β) (off length n : Nat) (err : Option IOErr) : Nat :=
  if c.hasWOReplica = true ∧ ¬ wholeSectors off length then
    let startCut := off % volumeSectorSize
    match err with
    | none => length
    | some _ =>
      if n < startCut then 0 else if n - startCut < length then n - startCut else length
  else n

/-- **`WriteAt` is its two halves one after the other.** -/
theorem writeAt_eq_prepare (order : MapOrder) {c : Controller β}
    (read : β → Nat → Replicator.ReadAnswer) (write : β → List UInt8 → Nat → Nat × Option Err)
    {b : List UInt8} {off : Nat} (hin : ¬ c.beyond b.length off) :
    c.writeAt order read write b off
      = match c.prepare read b off with
        | none => none
        | some (c', .error err) => c'.finish order 0 (some err)
        | some (c', .ok (start, data)) =>
          match c'.backend.writeAt (fun w => write w data start) data.length with
          | none => none
          | some (n, err) => c'.finish order (c.counted off b.length n err) err := by
  unfold writeAt
  rw [if_neg hin, Int.toNat_natCast]
  unfold prepare counted
  by_cases hwo : c.hasWOReplica = true
  · rw [if_pos hwo]
    by_cases hw : wholeSectors off b.length
    · rw [writeInWOMode, if_pos hw, if_neg (fun h => h.2 hw), writeInNormalMode]
      simp only [hwo, hw, not_true_eq_false, and_false, if_false]
      cases c.backend.writeAt (fun w => write w b off) b.length <;> rfl
    · rw [writeInWOMode, if_neg hw, if_pos ⟨hwo, hw⟩]
      simp only [hwo, hw, not_false_eq_true, and_true, if_true]
      generalize c.backend.readAt _ _ = res
      rcases res with _ | ⟨backend, readBuf, n, _ | err⟩
      · rfl
      · dsimp only
        rcases backend.writeAt _ _ with _ | ⟨n, _ | err⟩ <;> rfl
      · rfl
  · rw [if_neg hwo, if_neg (fun h => hwo h.1), writeInNormalMode]
    simp only [hwo]
    cases c.backend.writeAt (fun w => write w b off) b.length <;> rfl

/-! ## What is written without faults -/

theorem readOffsetStart_add (off : Nat) : readOffsetStart off + off % volumeSectorSize = off :=
  Nat.div_add_mod' off volumeSectorSize

theorem le_readOffsetEnd (off length : Nat) : off + length ≤ readOffsetEnd off length := by
  unfold readOffsetEnd
  split
  · exact Nat.le_refl _
  · exact Nat.le_of_lt (Nat.lt_mul_of_div_lt (Nat.lt_succ_self _) (by decide))

/-- The sectors around a buffer, as they are written back. -/
def merged (f : Nat → UInt8) (off : Nat) (b : List UInt8) : List UInt8 :=
  Slice.copyAt (Slice.span f (readOffsetStart off) (readOffsetEnd off b.length - readOffsetStart off))
    (off % volumeSectorSize) b

section

variable (f : Nat → UInt8) (off : Nat) (b : List UInt8)
include f off b

theorem merged_fits :
    off % volumeSectorSize + b.length ≤ (Slice.span f (readOffsetStart off)
      (readOffsetEnd off b.length - readOffsetStart off)).length := by
  rw [Slice.length_span]
  have h1 := readOffsetStart_add off
  have h2 := le_readOffsetEnd off b.length
  omega

theorem length_merged :
    readOffsetStart off + (merged f off b).length = readOffsetEnd off b.length := by
  have h := merged_fits f off b
  rw [merged, Slice.length_copyAt (by omega), Slice.length_span]
  have h1 := readOffsetStart_add off
  have h2 := le_readOffsetEnd off b.length
  omega

/-- The buffer where it belongs, and around it what was read. -/
theorem getD_merged {p : Nat}
    (hp : readOffsetStart off ≤ p) (hp' : p < readOffsetEnd off b.length) :
    (merged f off b).getD (p - readOffsetStart off) 0
      = if off ≤ p ∧ p < off + b.length then b.getD (p - off) 0 else f p := by
  have hadd := readOffsetStart_add off
  rw [List.getD_eq_getElem?_getD, merged, Slice.getElem?_copyAt (merged_fits f off b)]
  by_cases hcov : off ≤ p ∧ p < off + b.length
  · rw [if_pos hcov, if_pos (by omega), List.getD_eq_getElem?_getD]
    congr 2
    omega
  · rw [if_neg hcov, if_neg (by omega), Slice.getElem?_span, if_pos (by omega),
      Nat.add_sub_cancel' hp]
    rfl

end

end Controller

/-! ## The race -/

/-- A call of `WriteAt`. -/
structure WriteCall where
  buf : List UInt8
  off : Nat

namespace WriteCall

/-- The call is asked to write this byte. -/
def Covers (x : WriteCall) (p : Nat) : Prop := x.off ≤ p ∧ p < x.off + x.buf.length

/-- What it is asked to write there. -/
def byte (x : WriteCall) (p : Nat) : UInt8 := x.buf.getD (p - x.off) 0

/-- The byte is in the sectors that the call reads and writes back. -/
def Spans (x : WriteCall) (p : Nat) : Prop :=
  ¬ Controller.wholeSectors x.off x.buf.length ∧ Controller.readOffsetStart x.off ≤ p
    ∧ p < Controller.readOffsetEnd x.off x.buf.length

end WriteCall

/-- How far a call has got. -/
inductive Phase (β : Type)
  | waiting
  /-- The data is written at `start`, except by the writers that are pending. -/
  | writing (start : Nat) (data : List UInt8) (pending : List β)

/-- All writers are done, and the call returns. -/
def Phase.finished {β : Type} : Phase β → Bool
  | .writing _ _ [] => true
  | _ => false

theorem Phase.finished_iff {β : Type} {x : Phase β} :
    x.finished = true ↔ ∃ start data, x = .writing start data [] := by
  rcases x with _ | ⟨start, data, _ | ⟨b, pending⟩⟩ <;> simp [finished]

/-- The replicas and the controller, with two calls at work. -/
structure Race (β : Type) where
  world : World β
  phase : Bool → Phase β

namespace Race

variable {β : Type} [DecidableEq β]

/-- A step of one of the calls. -/
inductive Event (β : Type)
  | prepare (i : Bool)
  | write (i : Bool) (b : β)

/-- A read without fault returns what the replica holds. -/
def reads (disk : β → Nat → UInt8) (length : Nat) (b : β) (off : Nat) : Replicator.ReadAnswer :=
  ⟨fun buf => Slice.span (disk b) off buf.length, length, none⟩

/-- What a step does; `none` where it is not the turn of that step. -/
def step (calls : Bool → WriteCall) (s : Race β) : Event β → Option (Race β)
  | .prepare i =>
    let x := calls i
    let length := Controller.readOffsetEnd x.off x.buf.length - Controller.readOffsetStart x.off
    match s.phase i with
    | .writing _ _ _ => none
    | .waiting =>
      match s.world.ctl.prepare (reads s.world.disk length) x.buf x.off with
      | some (c, .ok (start, data)) =>
        some ⟨⟨c, s.world.disk⟩,
          Function.update s.phase i (.writing start data c.backend.writers.reduceOption)⟩
      | _ => none
  | .write i b =>
    match s.phase i with
    | .waiting => none
    | .writing start data pending =>
      if b ∈ pending then
        some ⟨⟨s.world.ctl, Function.update s.world.disk b
            (Outcome.overlay (s.world.disk b) start data)⟩,
          Function.update s.phase i (.writing start data (pending.erase b))⟩
      else none

/-- Both calls have returned. -/
def Done (s : Race β) : Prop := ∀ i, (s.phase i).finished = true

/-- Before the two calls, with some reader that is next. -/
def initial (w : World β) (next : Nat) : Race β := ⟨⟨w.ctl.setNext next, w.disk⟩, fun _ => .waiting⟩

/-- Whoever reads first and however the steps interleave, both buffers are there at the end. -/
def Survive (w : World β) (calls : Bool → WriteCall) : Prop :=
  ∀ next events s, Runs.run (step calls) (initial w next) events = some s → s.Done →
    ∀ i b p, w.Current b → (calls i).Covers p → s.world.disk b p = (calls i).byte p

/-! ## The first half without faults -/

variable {d : β}

omit [DecidableEq β] in
/-- The reader that is next answers, and no other one is asked. -/
theorem readAt_next {r : Replicator β} (hav : r.backendsAvailable = true)
    {read : β → Replicator.ReadAnswer}
    (hd : r.readers[(r.next + 1) % r.readers.length]? = some (some d)) (hok : (read d).err = none)
    (buf : List UInt8) :
    r.readAt read buf = some ({ r with next := (r.next + 1) % r.readers.length },
      (read d).fill buf, (read d).n, none) := by
  obtain ⟨k, hk⟩ : ∃ k, r.readers.length = k + 1 := by
    obtain ⟨hlt, _⟩ := List.getElem?_eq_some_iff.mp hd
    exact Nat.exists_eq_succ_of_ne_zero (by omega)
  have hloop : r.readLoop read r.readers.length ((r.next + 1) % r.readers.length) buf 0 ∅
      = some ((read d).fill buf, (read d).n, ∅) := by
    rw [hk] at hd ⊢
    rw [Replicator.readLoop, hd]
    dsimp only
    rw [hok]
  rw [Replicator.readAt, if_neg (by rw [hav]; simp)]
  dsimp only
  rw [hloop]
  rfl

/-- What a call writes when the replica it read from holds `f`. -/
structure Prepared (x : WriteCall) (f : Nat → UInt8) (start : Nat) (data : List UInt8) : Prop where
  covers : ∀ p, x.Covers p → start ≤ p ∧ p < start + data.length
  spans : ∀ p, x.Spans p → start ≤ p ∧ p < start + data.length
  /-- The byte is one of the buffer, or one that is written back. -/
  data : ∀ p, start ≤ p → p < start + data.length →
    x.Covers p ∧ data.getD (p - start) 0 = x.byte p
      ∨ ¬ x.Covers p ∧ x.Spans p ∧ data.getD (p - start) 0 = f p

theorem prepared_whole {x : WriteCall} (h : Controller.wholeSectors x.off x.buf.length)
    (f : Nat → UInt8) : Prepared x f x.off x.buf :=
  ⟨fun _ hp => hp, fun _ hp => absurd h hp.1, fun _ h1 h2 => Or.inl ⟨⟨h1, h2⟩, rfl⟩⟩

theorem prepared_merged {x : WriteCall} (h : ¬ Controller.wholeSectors x.off x.buf.length)
    (f : Nat → UInt8) :
    Prepared x f (Controller.readOffsetStart x.off) (Controller.merged f x.off x.buf) := by
  have hadd := Controller.readOffsetStart_add x.off
  have hend := Controller.le_readOffsetEnd x.off x.buf.length
  have hlen := Controller.length_merged f x.off x.buf
  refine ⟨fun p hp => ?_, fun p hp => ?_, fun p h1 h2 => ?_⟩
  · unfold WriteCall.Covers at hp
    omega
  · rw [hlen]
    exact hp.2
  · rw [hlen] at h2
    rw [Controller.getD_merged f x.off x.buf h1 h2]
    by_cases hcov : x.off ≤ p ∧ p < x.off + x.buf.length
    · exact Or.inl ⟨hcov, if_pos hcov⟩
    · exact Or.inr ⟨hcov, ⟨h, h1, h2⟩, if_neg hcov⟩

section

variable {w : World β} {calls : Bool → WriteCall}

omit [DecidableEq β] in
theorem next_current (hc : w.ctl.Consistent) (hrw : ∃ b, w.Current b) (next : Nat) :
    ∃ d, w.ctl.backend.readers[(next + 1) % w.ctl.backend.readers.length]? = some (some d)
      ∧ w.Current d := by
  obtain ⟨ts, ht⟩ := hc.readers
  obtain ⟨b, r, hr, hm, hb⟩ := hrw
  have hlen : w.ctl.backend.readers.length = ts.length := by rw [ht.handles_eq, List.length_map]
  have hpos : 0 < ts.length := List.length_pos_of_mem ((ht.mem_iff _ _).mpr ⟨hb, r.mode, hr, hm⟩)
  have hi : (next + 1) % ts.length < ts.length := Nat.mod_lt _ hpos
  refine ⟨ts[(next + 1) % ts.length].2, ?_, ?_⟩
  · rw [hlen, ht.handles_eq, List.getElem?_map, List.getElem?_eq_getElem hi]
    rfl
  · obtain ⟨hb, m, hm, rfl⟩ := (ht.mem_iff _ _).mp (List.getElem_mem hi)
    exact ⟨_, hm, rfl, hb⟩

omit [DecidableEq β] in
theorem current_next (hc : w.ctl.Consistent) (hd : w.Current d) :
    ∃ next, w.ctl.backend.readers[(next + 1) % w.ctl.backend.readers.length]?
      = some (some d) := by
  obtain ⟨ts, ht⟩ := hc.readers
  obtain ⟨r, hr, hm, hb⟩ := hd
  obtain ⟨i, hi, hget⟩ := List.getElem_of_mem ((ht.mem_iff _ _).mpr ⟨hb, r.mode, hr, hm⟩)
  have hlen : w.ctl.backend.readers.length = ts.length := by rw [ht.handles_eq, List.length_map]
  refine ⟨i + (ts.length - 1), ?_⟩
  rw [hlen, show i + (ts.length - 1) + 1 = i + ts.length by omega, Nat.add_mod_right,
    Nat.mod_eq_of_lt hi, ht.handles_eq, List.getElem?_map, List.getElem?_eq_getElem hi, hget]
  rfl

omit [DecidableEq β] in
theorem available_of_current (hc : w.ctl.Consistent) (hd : w.Current d) :
    w.ctl.backend.backendsAvailable = true := by
  obtain ⟨r, hr, hm, _⟩ := hd
  exact hc.available_iff.mpr ⟨r, hr, hm⟩

omit [DecidableEq β] in
/-- The first half of a call, when the RW replica `d` is next. -/
theorem prepare_faultless (hc : w.ctl.Consistent) (hwo : w.ctl.hasWOReplica = true) (x : WriteCall)
    (disk : β → Nat → UInt8) (length : Nat) {next : Nat} (hcur : w.Current d)
    (hd : w.ctl.backend.readers[(next + 1) % w.ctl.backend.readers.length]? = some (some d)) :
    ∃ next' start data, (w.ctl.setNext next).prepare (reads disk length) x.buf x.off
        = some (w.ctl.setNext next', .ok (start, data))
      ∧ Prepared x (disk d) start data := by
  unfold Controller.prepare
  by_cases hw : Controller.wholeSectors x.off x.buf.length
  · rw [if_neg (fun h => h.2 hw)]
    exact ⟨next, _, _, rfl, prepared_whole hw _⟩
  · rw [if_pos ⟨hwo, hw⟩]
    dsimp only
    rw [readAt_next (r := (w.ctl.setNext next).backend) (available_of_current hc hcur) hd rfl]
    simp only [reads, List.length_replicate]
    exact ⟨(next + 1) % w.ctl.backend.readers.length, _, _, rfl, prepared_merged hw _⟩

variable {i : Bool} {data : List UInt8}

theorem step_prepare (calls : Bool → WriteCall) (hc : w.ctl.Consistent)
    (hwo : w.ctl.hasWOReplica = true) {s : Race β} {next : Nat}
    (hs : s.world.ctl = w.ctl.setNext next) (hi : s.phase i = .waiting) (hcur : w.Current d)
    (hd : w.ctl.backend.readers[(next + 1) % w.ctl.backend.readers.length]? = some (some d)) :
    ∃ s' next' start data, step calls s (.prepare i) = some s'
      ∧ s'.world = ⟨w.ctl.setNext next', s.world.disk⟩
      ∧ s'.phase = Function.update s.phase i
          (.writing start data w.ctl.backend.writers.reduceOption)
      ∧ Prepared (calls i) (s.world.disk d) start data := by
  rw [step, hi]
  rw [hs]
  obtain ⟨next', start, data, hprep, hp⟩ := prepare_faultless hc hwo (calls i) s.world.disk
    (Controller.readOffsetEnd (calls i).off (calls i).buf.length
      - Controller.readOffsetStart (calls i).off) hcur hd
  rw [hprep]
  exact ⟨_, next', start, data, rfl, rfl, rfl, hp⟩

/-! ## Bytes that are written back as they should be -/

/-- The two calls write no byte in common. -/
def Disjoint (calls : Bool → WriteCall) : Prop :=
  ∀ p, (calls false).Covers p → ¬ (calls true).Covers p

/-- What one call writes and the other writes back, the RW replicas hold already. -/
def Settled (w : World β) (disk : β → Nat → UInt8) (calls : Bool → WriteCall) : Prop :=
  ∀ i b p, w.Current b → (calls i).Spans p → (calls (!i)).Covers p →
    disk b p = (calls (!i)).byte p

theorem Disjoint.not {p : Nat} (h : Disjoint calls) (hi : (calls i).Covers p) :
    ¬ (calls (!i)).Covers p := by
  cases i with
  | false => exact h p hi
  | true => exact fun hf => h p hf hi

/-- Writing this data puts the buffer of call `i` in place and disturbs neither. -/
structure Sent (calls : Bool → WriteCall) (i : Bool) (start : Nat) (data : List UInt8) : Prop where
  reaches : ∀ p, (calls i).Covers p → start ≤ p ∧ p < start + data.length
  right : ∀ j p, start ≤ p → p < start + data.length → (calls j).Covers p →
    data.getD (p - start) 0 = (calls j).byte p

omit [DecidableEq β] in
theorem Prepared.sent {disk : β → Nat → UInt8} (hdis : Disjoint calls) (hset : Settled w disk calls)
    (hd : w.Current d) {start : Nat} (h : Prepared (calls i) (disk d) start data) :
    Sent calls i start data := by
  refine ⟨h.covers, fun j p h1 h2 hj => ?_⟩
  by_cases hji : j = i
  · obtain rfl := hji
    rcases h.data p h1 h2 with ⟨_, hbyte⟩ | ⟨hnot, _⟩
    · exact hbyte
    · exact absurd hj hnot
  · obtain rfl := Bool.eq_not_iff.mpr hji
    rcases h.data p h1 h2 with ⟨hi, _⟩ | ⟨_, hspan, hbyte⟩
    · exact absurd hj (hdis.not hi)
    · exact hbyte.trans (hset i d p hd hspan hj)

/-- A byte that is in place stays in place. -/
theorem Sent.keeps {i j : Bool} {start p : Nat} {f : Nat → UInt8} (h : Sent calls i start data)
    (hj : (calls j).Covers p) (hf : f p = (calls j).byte p) :
    Outcome.overlay f start data p = (calls j).byte p := by
  unfold Outcome.overlay
  by_cases hp : start ≤ p ∧ p < start + data.length
  · rw [if_pos hp]; exact h.right j p hp.1 hp.2 hj
  · rw [if_neg hp]; exact hf

theorem Sent.puts {start p : Nat} (f : Nat → UInt8) (h : Sent calls i start data)
    (hi : (calls i).Covers p) :
    Outcome.overlay f start data p = (calls i).byte p := by
  obtain ⟨h1, h2⟩ := h.reaches p hi
  rw [Outcome.overlay, if_pos ⟨h1, h2⟩]
  exact h.right i p h1 h2 hi

/-! ## Every interleaving -/

/-- What holds all the time if it is settled what is written back. -/
structure Inv (w : World β) (calls : Bool → WriteCall) (s : Race β) : Prop where
  ctl : ∃ next, s.world.ctl = w.ctl.setNext next
  settled : Settled w s.world.disk calls
  phases : ∀ i start data pending, s.phase i = .writing start data pending →
    Sent calls i start data ∧ ∀ b, w.Current b →
      b ∈ pending ∨ ∀ p, (calls i).Covers p → s.world.disk b p = (calls i).byte p

omit [DecidableEq β] in
theorem inv_initial (h : Settled w w.disk calls) (next : Nat) : Inv w calls (initial w next) :=
  ⟨⟨next, rfl⟩, h, fun _ _ _ _ hp => absurd hp (by simp [initial])⟩

omit [DecidableEq β] in
theorem current_writes (hc : w.ctl.Consistent) {b : β} (hb : w.Current b) :
    b ∈ w.ctl.backend.writers.reduceOption := by
  obtain ⟨ts, ht⟩ := hc.writers
  obtain ⟨r, hr, hm, hh⟩ := hb
  rw [List.reduceOption_mem_iff, ht.handles_eq]
  exact List.mem_map.mpr ⟨_, (ht.mem_iff _ b).mpr ⟨hh, r.mode, hr, by rw [hm]; simp⟩, rfl⟩

theorem Inv.prepare (hc : w.ctl.Consistent) (hwo : w.ctl.hasWOReplica = true)
    (hrw : ∃ b, w.Current b) (hdis : Disjoint calls) {s s' : Race β} (h : Inv w calls s)
    (hs : step calls s (.prepare i) = some s') : Inv w calls s' := by
  cases hi : s.phase i with
  | writing start data pending =>
    rw [step, hi] at hs
    simp at hs
  | waiting =>
    obtain ⟨next, hnext⟩ := h.ctl
    obtain ⟨d, hd, hcur⟩ := next_current hc hrw next
    obtain ⟨s₁, next', start, data, hstep, hworld, hphase, hprep⟩ :=
      step_prepare calls hc hwo hnext hi hcur hd
    obtain rfl := Option.some.inj (hstep.symm.trans hs)
    refine ⟨⟨next', by rw [hworld]⟩, by rw [hworld]; exact h.settled,
      fun j start' data' pending' hj => ?_⟩
    rw [hphase] at hj
    rw [hworld]
    by_cases hji : j = i
    · obtain rfl := hji
      rw [Function.update_self] at hj
      obtain ⟨rfl, rfl, rfl⟩ := Phase.writing.inj hj
      exact ⟨hprep.sent hdis h.settled hcur, fun b hb => Or.inl (current_writes hc hb)⟩
    · rw [Function.update_of_ne hji] at hj
      exact h.phases j start' data' pending' hj

theorem Inv.write {s s' : Race β} (h : Inv w calls s) {b : β}
    (hs : step calls s (.write i b) = some s') : Inv w calls s' := by
  cases hi : s.phase i with
  | waiting =>
    rw [step, hi] at hs
    simp at hs
  | writing start data pending =>
    obtain ⟨hsent, hwritten⟩ := h.phases i start data pending hi
    rw [step, hi] at hs
    dsimp only at hs
    by_cases hb : b ∈ pending
    · rw [if_pos hb] at hs
      obtain rfl := Option.some.inj hs
      -- whichever replica was written, the bytes in place are still in place
      have hkeeps : ∀ (d : β) (j : Bool) (p : Nat), (calls j).Covers p →
          s.world.disk d p = (calls j).byte p →
          Function.update s.world.disk b (Outcome.overlay (s.world.disk b) start data) d p
            = (calls j).byte p := by
        intro d j p hj hp
        by_cases hdb : d = b
        · obtain rfl := hdb
          rw [Function.update_self]
          exact hsent.keeps hj hp
        · rw [Function.update_of_ne hdb]
          exact hp
      refine ⟨h.ctl, fun j d p hd hspan hcov => hkeeps d _ p hcov (h.settled j d p hd hspan hcov),
        fun j start' data' pending' hj => ?_⟩
      dsimp only at hj ⊢
      by_cases hji : j = i
      · obtain rfl := hji
        rw [Function.update_self] at hj
        obtain ⟨rfl, rfl, rfl⟩ := Phase.writing.inj hj
        refine ⟨hsent, fun d hd => ?_⟩
        by_cases hdb : d = b
        · obtain rfl := hdb
          refine Or.inr fun p hp => ?_
          rw [Function.update_self]
          exact hsent.puts _ hp
        · refine (hwritten d hd).imp (fun hin => (List.mem_erase_of_ne hdb).mpr hin) ?_
          exact fun hall p hp => hkeeps d j p hp (hall p hp)
      · rw [Function.update_of_ne hji] at hj
        obtain ⟨hsent', hwritten'⟩ := h.phases j start' data' pending' hj
        exact ⟨hsent', fun d hd => (hwritten' d hd).imp_right
          (fun hall p hp => hkeeps d j p hp (hall p hp))⟩
    · rw [if_neg hb] at hs
      simp at hs

/-- **If it is settled what is written back, both buffers survive every interleaving.** -/
theorem Settled.survive (hc : w.ctl.Consistent) (hwo : w.ctl.hasWOReplica = true)
    (hrw : ∃ b, w.Current b) (hdis : Disjoint calls) (h : Settled w w.disk calls) :
    Survive w calls := by
  intro next events s hrun hdone i b p hb hp
  have hstep : ∀ s e s', Inv w calls s → step calls s e = some s' → Inv w calls s' := by
    intro s e s' hinv hs
    cases e with
    | prepare i => exact hinv.prepare hc hwo hrw hdis hs
    | write i b => exact hinv.write hs
  have hinv := Runs.run_invariant hstep (inv_initial h next) hrun
  obtain ⟨start, data, hphase⟩ := Phase.finished_iff.mp (hdone i)
  obtain ⟨_, hwritten⟩ := hinv.phases i start data [] hphase
  rcases hwritten b hb with hin | hall
  · simp at hin
  · exact hall p hp

/-! ## An interleaving that writes back -/

/-- All that a call still has to write, in one go. -/
theorem run_writes (calls : Bool → WriteCall) {s : Race β} {start : Nat} {pending : List β}
    (hi : s.phase i = .writing start data pending) :
    ∃ s', Runs.run (step calls) s (pending.map (Event.write i)) = some s'
      ∧ s'.phase = Function.update s.phase i (.writing start data [])
      ∧ ∀ b p, start ≤ p → p < start + data.length →
          b ∈ pending ∨ s.world.disk b p = data.getD (p - start) 0 →
          s'.world.disk b p = data.getD (p - start) 0 := by
  induction pending generalizing s with
  | nil =>
    refine ⟨s, rfl, ?_, fun b p _ _ h => h.resolve_left (by simp)⟩
    rw [← hi, Function.update_eq_self]
  | cons b₀ pending ih =>
    obtain ⟨s₁, hs₁, hdisk₁, hphase₁⟩ : ∃ s₁, step calls s (.write i b₀) = some s₁
        ∧ s₁.world.disk = Function.update s.world.disk b₀
            (Outcome.overlay (s.world.disk b₀) start data)
        ∧ s₁.phase = Function.update s.phase i (.writing start data pending) := by
      rw [step, hi]
      dsimp only
      rw [if_pos List.mem_cons_self, List.erase_cons_head]
      exact ⟨_, rfl, rfl, rfl⟩
    obtain ⟨s', hrun, hphase, hdisk⟩ := ih (by rw [hphase₁, Function.update_self])
    refine ⟨s', ?_, ?_, fun b p h1 h2 h => hdisk b p h1 h2 ?_⟩
    · rw [List.map_cons, Runs.run_cons hs₁]
      exact hrun
    · rw [hphase, hphase₁, Function.update_idem]
    · rw [hdisk₁]
      by_cases hb : b = b₀
      · right
        rw [hb, Function.update_self, Outcome.overlay, if_pos ⟨h1, h2⟩]
      · rw [Function.update_of_ne hb]
        exact h.imp_left fun hin => (List.mem_cons.mp hin).resolve_left hb

/--
One call reads from `b`, the other runs from beginning to end, then the first writes:
every byte that it writes back is as `b` had it before.
-/
theorem run_overtaken (calls : Bool → WriteCall) (hc : w.ctl.Consistent)
    (hwo : w.ctl.hasWOReplica = true) (i : Bool) {b : β} (hb : w.Current b) :
    ∃ next events s start data, Runs.run (step calls) (initial w next) events = some s ∧ s.Done
      ∧ Prepared (calls i) (w.disk b) start data
      ∧ ∀ p, start ≤ p → p < start + data.length → s.world.disk b p = data.getD (p - start) 0 := by
  have hne : (!i) ≠ i := by simp
  obtain ⟨next, hnext⟩ := current_next hc hb
  -- the first call reads
  obtain ⟨s₁, next₁, start, data, hs₁, hworld₁, hphase₁, hprep⟩ :=
    step_prepare calls (s := initial w next) (i := i) hc hwo rfl rfl hb hnext
  -- the other call reads, and writes everything
  obtain ⟨d, hd, hcur⟩ := next_current hc ⟨b, hb⟩ next₁
  obtain ⟨s₂, next₂, start₂, data₂, hs₂, hworld₂, hphase₂, _⟩ := step_prepare calls hc hwo
    (by rw [hworld₁]) (by rw [hphase₁, Function.update_of_ne hne]; rfl) hcur hd
  obtain ⟨s₃, hs₃, hphase₃, _⟩ := run_writes calls (by rw [hphase₂, Function.update_self])
  -- the first call writes everything
  obtain ⟨s₄, hs₄, hphase₄, hdisk₄⟩ := run_writes calls (i := i) (by
    rw [hphase₃, Function.update_of_ne hne.symm, hphase₂, Function.update_of_ne hne.symm, hphase₁,
      Function.update_self])
  refine ⟨next, .prepare i :: .prepare (!i) :: (w.ctl.backend.writers.reduceOption.map (.write (!i))
    ++ w.ctl.backend.writers.reduceOption.map (.write i)), s₄, start, data, ?_, fun j => ?_, hprep,
    fun p h1 h2 => hdisk₄ b p h1 h2 (Or.inl (current_writes hc hb))⟩
  · rw [Runs.run_cons hs₁, Runs.run_cons hs₂, Runs.run_append hs₃]
    exact hs₄
  · by_cases hj : j = i
    · rw [hphase₄, hj, Function.update_self]
      rfl
    · rw [hphase₄, Function.update_of_ne hj, hphase₃, Bool.eq_not_iff.mpr hj, Function.update_self]
      rfl

/-- **If both buffers survive every interleaving, it was settled what is written back.** -/
theorem Survive.settled (hc : w.ctl.Consistent) (hwo : w.ctl.hasWOReplica = true)
    (hdis : Disjoint calls) (h : Survive w calls) : Settled w w.disk calls := by
  intro i b p hb hspan hcov
  obtain ⟨next, events, s, start, data, hrun, hdone, hprep, hdisk⟩ := run_overtaken calls hc hwo i hb
  obtain ⟨h1, h2⟩ := hprep.spans p hspan
  rcases hprep.data p h1 h2 with ⟨hi, _⟩ | ⟨_, _, hback⟩
  · exact absurd hcov (hdis.not hi)
  · rw [← hback, ← hdisk p h1 h2]
    exact h next events s hrun hdone (!i) b p hb hcov

/--
**Two concurrent writes both survive exactly when what each writes back is settled.**
For every consistent controller with a replica to read from and one that is being
rebuilt, every content of the replicas, and every two calls on disjoint ranges.
-/
theorem survive_iff_settled (hc : w.ctl.Consistent) (hwo : w.ctl.hasWOReplica = true)
    (hrw : ∃ b, w.Current b) (hdis : Disjoint calls) :
    Survive w calls ↔ Settled w w.disk calls :=
  ⟨Survive.settled hc hwo hdis, Settled.survive hc hwo hrw hdis⟩

end

/-! ## One sector, two bytes -/

/-- The replica `a`, which is read from, and `b`, which is being rebuilt; both are empty. -/
def rebuildingEmpty : World Nat := ⟨Controller.rebuilding, fun _ _ => 0⟩

theorem current_rebuildingEmpty : rebuildingEmpty.Current 1 :=
  ⟨⟨"a", .RW⟩, by decide, rfl, by decide⟩

/-- A byte in each of two sectors. -/
def apart (i : Bool) : WriteCall := if i then ⟨[2], 4096⟩ else ⟨[1], 0⟩

theorem survive_iff_settled_apart :
    Controller.rebuilding.Consistent ∧ Controller.rebuilding.hasWOReplica = true
      ∧ (∃ b, rebuildingEmpty.Current b) ∧ Disjoint apart
      ∧ (Survive rebuildingEmpty apart ↔ Settled rebuildingEmpty rebuildingEmpty.disk apart) :=
  have hwo : Controller.rebuilding.hasWOReplica = true := by decide
  have hdis : Disjoint apart := fun p h0 h1 => by
    simp only [WriteCall.Covers, apart, List.length_singleton, if_true, Bool.false_eq_true,
      if_false] at h0 h1
    omega
  ⟨Controller.consistent_rebuilding, hwo, ⟨1, current_rebuildingEmpty⟩, hdis,
    survive_iff_settled Controller.consistent_rebuilding hwo ⟨1, current_rebuildingEmpty⟩ hdis⟩

/-- Two neighbouring bytes. -/
def neighbours (i : Bool) : WriteCall := if i then ⟨[2], 1⟩ else ⟨[1], 0⟩

/-- Both calls read the sector before either writes it back. -/
def bothRead : List (Event Nat) :=
  [.prepare false, .prepare true, .write false 1, .write false 2, .write true 1, .write true 2]

theorem disjoint_neighbours : Disjoint neighbours := by
  intro p h0 h1
  simp only [WriteCall.Covers, neighbours, List.length_singleton, if_true, Bool.false_eq_true,
    if_false] at h0 h1
  omega

/--
Both calls return, and of the bytes 1 and 2 that they wrote next to each other, the
first is lost: the call that writes last writes back the zero it had read there.
-/
theorem survive_loses_byte :
    Disjoint neighbours ∧ (neighbours false).Covers 0 ∧ (neighbours false).byte 0 = 1
      ∧ rebuildingEmpty.Current 1
      ∧ (∃ s, Runs.run (step neighbours) (initial rebuildingEmpty 0) bothRead = some s ∧ s.Done
        ∧ s.world.disk 1 0 = 0)
      ∧ ¬ Survive rebuildingEmpty neighbours := by
  have hcov : (neighbours false).Covers 0 := ⟨Nat.le_refl _, Nat.zero_lt_one⟩
  have hval : (Runs.run (step neighbours) (initial rebuildingEmpty 0) bothRead).map (fun s =>
      (s.world.disk 1 0, (s.phase false).finished, (s.phase true).finished))
      = some (0, true, true) := by
    decide +kernel
  obtain ⟨s, hrun, hs⟩ := Option.map_eq_some_iff.mp hval
  simp only [Prod.mk.injEq] at hs
  obtain ⟨hdisk, hfalse, htrue⟩ := hs
  have hdone : s.Done := by
    intro i
    cases i with
    | false => exact hfalse
    | true => exact htrue
  refine ⟨disjoint_neighbours, hcov, rfl, current_rebuildingEmpty, ⟨s, hrun, hdone, hdisk⟩, ?_⟩
  intro hsurvive
  have hone := hsurvive 0 bothRead s hrun hdone false 1 0 current_rebuildingEmpty hcov
  rw [hdisk] at hone
  exact absurd hone (by decide)

end Race

end WeftBlock
