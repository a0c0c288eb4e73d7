import WeftBlock.Lib.Runs

/-!
# The pipes of a backup and of a restore

`CreateBackup` and `restoreOneBackup` of `cmd/weft-block/driver.go` each start a goroutine that
they are joined to by an `io.Pipe`: a write waits until all of it has been read, a read until
there is something to read or the pipe has been closed for writing. Nobody ever closes it for
reading. In `CreateBackup` the goroutine reads, `Push` does, and its own side writes; in
`restoreOneBackup` the goroutine writes, for `Pull`, and the import reads.

How far each side would go is given: how many bytes it writes before it closes its end, and how
many it takes before it stops, or that it reads to the end. So failures at any point are covered.
-/

namespace WeftBlock

namespace Backup.Pipe

/-- One pipe and the two that it joins. -/
structure Session where
  /-- The caller writes and the goroutine reads, or the other way round. -/
  callerWrites : Bool
  /-- The caller returns after it has started the goroutine, without touching the pipe. -/
  leaves : Bool
  /-- The bytes that will be written. -/
  writes : Nat
  /-- The bytes that will be taken before the reader stops; none if it reads to the end. -/
  takes : Option Nat
  /-- No error is returned in the end. -/
  ok : Bool

/-- `CreateBackup`, from where the pipe is made. -/
structure CreateBackup where
  /-- The metadata of the parent can not be read, or the snapshots not be compared. -/
  parentFails : Bool
  /-- What the engine streams, as far as it gets, with what the encoder adds. -/
  streamed : Nat
  /-- What `Push` reads of its body. -/
  pushed : Option Nat
  ok : Bool

/-- `restoreOneBackup`, from where the pipe is made. -/
structure RestoreOneBackup where
  /-- `NewDecoder` fails. -/
  decoderFails : Bool
  /-- What `Pull` writes, as far as it gets. -/
  pulled : Nat
  /-- What the import reads. -/
  imported : Option Nat
  ok : Bool

/-- The two calls. `RestoreBackup` restores one backup after the other. -/
inductive Call
  | createBackup (c : CreateBackup)
  | restoreBackup (links : List RestoreOneBackup)

def Call.sessions : Call → List Session
  | .createBackup c => [⟨true, c.parentFails, c.streamed, c.pushed, c.ok⟩]
  | .restoreBackup links =>
    links.map (fun l => ⟨false, l.decoderFails, l.pulled, l.imported, l.ok⟩)

/-- Where the caller is. -/
inductive Caller
  | working
  /-- It waits for the result of the goroutine. -/
  | waiting
  | returned
deriving DecidableEq

/-- The present session and what comes after it. -/
structure State where
  cur : Session
  rest : List Session
  caller : Caller
  /-- The bytes that are left to write; none when the pipe has been closed. -/
  writer : Option Nat
  /-- The bytes that are left to take; none when the reader has stopped. -/
  reader : Option (Option Nat)
  /-- The result of the goroutine is in the channel, which has room for it. -/
  sent : Bool

/-- A session begins: the pipe is made and the goroutine started. -/
def enter (s : Session) (rest : List Session) : State where
  cur := s
  rest := rest
  caller := if s.leaves then .returned else .working
  writer := some s.writes
  reader := some s.takes
  sent := false

/-- The call has returned, and there is no goroutine left. -/
def ended (s : Session) : State := ⟨s, [], .returned, none, none, true⟩

def enterAll : List Session → State
  | [] => ended ⟨true, false, 0, none, true⟩
  | s :: rest => enter s rest

namespace State

/-- The side that writes is there to write. -/
def writing (s : State) : Bool := !s.cur.callerWrites || decide (s.caller = .working)

/-- The side that reads is there to read. -/
def reading (s : State) : Bool := s.cur.callerWrites || decide (s.caller = .working)

/-- The writer is done. -/
def closeWriter (s : State) : State :=
  { s with writer := none, caller := if s.cur.callerWrites then .waiting else s.caller }

/-- The reader is done. -/
def stopReader (s : State) : State :=
  { s with reader := none, caller := if s.cur.callerWrites then s.caller else .waiting }

/-- The goroutine is done with the pipe. -/
def idle (s : State) : Bool :=
  if s.cur.callerWrites then s.reader.isNone else s.writer.isNone

/-- The caller has the result: it returns, or goes on with the next backup. -/
def proceed (s : State) : State :=
  match s.cur.ok, s.rest with
  | true, next :: rest => enter next rest
  | _, _ => { s with caller := .returned }

end State

inductive Event
  /-- Some bytes are read, one more than given. -/
  | transfer (n : Nat)
  | close
  /-- The reader finds the pipe closed. -/
  | eof
  /-- The reader has all it takes. -/
  | stop
  | send
  | collect

/-- What a reader takes that takes `n` bytes more. -/
def take (n : Nat) : Option Nat → Option (Option Nat)
  | none => some none
  | some t => if n ≤ t then some (some (t - n)) else none

def step (s : State) : Event → Option State
  | .transfer n =>
    match s.writer, s.reader with
    | some left, some takes =>
      if s.writing && s.reading && decide (n + 1 ≤ left) then
        (take (n + 1) takes).map (fun t =>
          { s with writer := some (left - (n + 1)), reader := some t })
      else none
    | _, _ => none
  | .close => if s.writing && decide (s.writer = some 0) then some s.closeWriter else none
  | .eof =>
    if s.reading && s.writer.isNone && s.reader.isSome && decide (s.reader ≠ some (some 0))
      then some s.stopReader
      else none
  | .stop =>
    if s.reading && decide (s.reader = some (some 0)) then some s.stopReader else none
  | .send => if s.idle && !s.sent then some { s with sent := true } else none
  | .collect =>
    if decide (s.caller = .waiting) && s.sent then some s.proceed else none

/-- The call has returned, and its goroutine is past the pipe. -/
def Done (s : State) : Prop := s.caller = .returned ∧ s.sent = true

/--
**The call finishes**: whatever is done first, there is an end to it, and then the call has
returned and no goroutine is blocked.
-/
def Call.Finishes (c : Call) : Prop := Runs.Finishes step Done (enterAll c.sessions)

/-! ## The condition -/

/-- The reader takes as much as is written. -/
def Covers (takes : Option Nat) (writes : Nat) : Prop := ∀ t, takes = some t → writes ≤ t

/--
Both sides of the pipe get what they need from the other. If the caller leaves then the goroutine
must not need anything.
-/
def Session.Matched (s : Session) : Prop :=
  if s.leaves then (if s.callerWrites then s.takes = some 0 else s.writes = 0)
  else Covers s.takes s.writes

/-- So they do in every session that is begun. -/
def Matched : List Session → Prop
  | [] => True
  | s :: rest => s.Matched ∧ (s.leaves = false → s.ok = true → Matched rest)

/-- **Push reads all of its body**, and the import all that is pulled. -/
def Call.Matched (c : Call) : Prop := Pipe.Matched c.sessions

/-! ## Steps -/

/-- What a step is. -/
inductive Stepped (s : State) : State → Prop
  | transfer {n left : Nat} {t t' : Option Nat} (hworks : s.caller = .working)
      (hw : s.writer = some left) (hr : s.reader = some t) (hn : n + 1 ≤ left)
      (ht : take (n + 1) t = some t') :
      Stepped s { s with writer := some (left - (n + 1)), reader := some t' }
  | close (hside : s.cur.callerWrites = true → s.caller = .working) (hw : s.writer = some 0) :
      Stepped s s.closeWriter
  | stop {t : Option Nat} (hside : s.cur.callerWrites = false → s.caller = .working)
      (hr : s.reader = some t) (hwhy : s.writer = none ∨ t = some 0) : Stepped s s.stopReader
  | send (hidle : s.idle = true) (hsent : s.sent = false) : Stepped s { s with sent := true }
  | collect (hwait : s.caller = .waiting) (hsent : s.sent = true) : Stepped s s.proceed

variable {s : State} {e : Event}

theorem writing_iff :
    s.writing = true ↔ (s.cur.callerWrites = true → s.caller = .working) := by
  unfold State.writing
  cases s.cur.callerWrites <;> simp

theorem reading_iff :
    s.reading = true ↔ (s.cur.callerWrites = false → s.caller = .working) := by
  unfold State.reading
  cases s.cur.callerWrites <;> simp

theorem stepped {s s' : State} (h : step s e = some s') : Stepped s s' := by
  cases e with
  | transfer n =>
    simp only [step] at h
    split at h
    next left t hw hr =>
      obtain ⟨hcond, h⟩ := Option.ite_none_right_eq_some.mp h
      simp only [Bool.and_eq_true, decide_eq_true_eq] at hcond
      obtain ⟨⟨hwr, hre⟩, hn⟩ := hcond
      obtain ⟨t', ht', rfl⟩ := Option.map_eq_some_iff.mp h
      have hworks : s.caller = .working := by
        cases hc : s.cur.callerWrites with
        | true => exact writing_iff.mp hwr hc
        | false => exact reading_iff.mp hre hc
      exact .transfer hworks hw hr hn ht'
    next => exact absurd h (by simp)
  | close =>
    obtain ⟨hcond, h⟩ := Option.ite_none_right_eq_some.mp h
    rw [Bool.and_eq_true, decide_eq_true_eq] at hcond
    exact Option.some.inj h ▸ .close (writing_iff.mp hcond.1) hcond.2
  | eof =>
    obtain ⟨hcond, h⟩ := Option.ite_none_right_eq_some.mp h
    simp only [Bool.and_eq_true] at hcond
    obtain ⟨⟨⟨hre, hw⟩, hr⟩, -⟩ := hcond
    obtain ⟨t, ht⟩ := Option.isSome_iff_exists.mp hr
    exact Option.some.inj h ▸ .stop (reading_iff.mp hre) ht
      (Or.inl (Option.isNone_iff_eq_none.mp hw))
  | stop =>
    obtain ⟨hcond, h⟩ := Option.ite_none_right_eq_some.mp h
    rw [Bool.and_eq_true, decide_eq_true_eq] at hcond
    exact Option.some.inj h ▸ .stop (reading_iff.mp hcond.1) hcond.2 (Or.inr rfl)
  | send =>
    obtain ⟨hcond, h⟩ := Option.ite_none_right_eq_some.mp h
    rw [Bool.and_eq_true, Bool.not_eq_true'] at hcond
    exact Option.some.inj h ▸ .send hcond.1 hcond.2
  | collect =>
    obtain ⟨hcond, h⟩ := Option.ite_none_right_eq_some.mp h
    rw [Bool.and_eq_true, decide_eq_true_eq] at hcond
    exact Option.some.inj h ▸ .collect hcond.1 hcond.2

/-! ## There is an end -/

def Caller.weight : Caller → Nat
  | .returned => 0
  | _ => 1

def restWeight (l : List Session) : Nat := (l.map (fun s => s.writes + 5)).sum

def weight (s : State) : Nat :=
  (s.writer.elim 0 (fun n => n + 1)) + (s.reader.elim 0 (fun _ => 1)) + s.caller.weight
    + (!s.sent).toNat + restWeight s.rest

theorem Caller.weight_le (c : Caller) : c.weight ≤ 1 := by
  cases c <;> simp [Caller.weight]

theorem step_weight {s s' : State} (h : step s e = some s') : weight s' < weight s := by
  cases stepped h with
  | transfer hworks hw hr hn ht =>
    simp only [weight, hw, hr, Option.elim_some]
    omega
  | close hside hw =>
    have hcaller : s.closeWriter.caller.weight ≤ s.caller.weight := by
      unfold State.closeWriter
      cases hc : s.cur.callerWrites with
      | false => exact Nat.le_refl _
      | true => rw [hside hc]; exact Nat.le_refl _
    simp only [weight, hw, Option.elim_some]
    simp only [State.closeWriter, Option.elim_none] at hcaller ⊢
    omega
  | stop hside hr hwhy =>
    have hcaller : s.stopReader.caller.weight ≤ s.caller.weight := by
      unfold State.stopReader
      cases hc : s.cur.callerWrites with
      | true => exact Nat.le_refl _
      | false => rw [hside hc]; exact Nat.le_refl _
    simp only [weight, hr, Option.elim_some]
    simp only [State.stopReader, Option.elim_none] at hcaller ⊢
    omega
  | send hidle hsent =>
    simp only [weight, hsent, Bool.not_false, Bool.not_true, Bool.toNat_true, Bool.toNat_false]
    omega
  | collect hwait hsent =>
    unfold State.proceed
    split
    next next rest _ hrest =>
      have hle : (enter next rest).caller.weight ≤ 1 := Caller.weight_le _
      have hrw : restWeight (next :: rest) = next.writes + 5 + restWeight rest := by
        rw [restWeight, List.map_cons, List.sum_cons]
        rfl
      have hwaiting : Caller.waiting.weight = 1 := rfl
      simp only [weight, hwait, hwaiting, hrest, hrw]
      simp only [enter, Option.elim_some, Bool.not_false, Bool.toNat_true] at hle ⊢
      omega
    next =>
      have hwaiting : Caller.waiting.weight = 1 := rfl
      have hreturned : Caller.returned.weight = 0 := rfl
      simp only [weight, hwait, hwaiting, hreturned]
      omega

/-! ## Whether it is a good one -/

/-- What the two sides still have to do fits together. -/
def Fits : Option Nat → Option (Option Nat) → Prop
  | none, _ => True
  | some n, none => n = 0
  | some n, some t => Covers t n

/-- The goroutine gets to its end without the caller. -/
def Alone (s : State) : Prop :=
  if s.cur.callerWrites then s.reader = none ∨ s.reader = some (some 0)
  else s.writer = none ∨ s.writer = some 0

/-- The call will finish. -/
def Fine (s : State) : Prop :=
  (s.caller = .returned → Alone s)
    ∧ (s.caller ≠ .returned → Fits s.writer s.reader ∧ (s.cur.ok = true → Matched s.rest))

/-- The caller's side of the pipe is still in use. -/
def State.using (s : State) : Bool :=
  if s.cur.callerWrites then s.writer.isSome else s.reader.isSome

/-- How the caller, its side of the pipe and the goroutine go together. -/
structure Inv (s : State) : Prop where
  working : s.caller = .working → s.using = true
  waiting : s.caller = .waiting → s.using = false
  returned : s.caller = .returned → s.using = true ∨ s.sent = true
  sent : s.sent = true → s.idle = true

theorem fine_enter (s : Session) (rest : List Session) :
    Fine (enter s rest) ↔ Matched (s :: rest) := by
  change _ ↔ s.Matched ∧ (s.leaves = false → s.ok = true → Matched rest)
  cases hl : s.leaves with
  | true =>
    have hret : (enter s rest).caller = .returned := if_pos hl
    unfold Fine Session.Matched Alone
    rw [hret, hl]
    cases hc : s.callerWrites with
    | true => simp [enter, hc]
    | false => simp [enter, hc]
  | false =>
    have hret : (enter s rest).caller = .working := if_neg (by simp [hl])
    unfold Fine Session.Matched
    rw [hret, hl]
    simp [enter, Fits]

theorem inv_enter (s : Session) (rest : List Session) : Inv (enter s rest) := by
  have husing : (enter s rest).using = true := by
    unfold State.using
    cases hc : (enter s rest).cur.callerWrites <;> rfl
  refine ⟨fun _ => husing, fun hw => ?_, fun _ => Or.inl husing,
    fun h => absurd h (by simp [enter])⟩
  cases hl : s.leaves <;> simp [enter, hl] at hw

theorem fits_take {n left : Nat} {t t' : Option Nat} (hn : n ≤ left) (h : take n t = some t') :
    Fits (some left) (some t) ↔ Fits (some (left - n)) (some t') := by
  cases t with
  | none =>
    obtain rfl : none = t' := Option.some.inj h
    simp [Fits, Covers]
  | some t =>
    obtain ⟨hle, h⟩ := Option.ite_none_right_eq_some.mp h
    obtain rfl := Option.some.inj h
    simp only [Fits, Covers, Option.some.injEq, forall_eq']
    omega

/-- A pipe that has been written is as good as a closed one. -/
theorem fits_zero (r : Option (Option Nat)) : Fits (some 0) r := by
  cases r with
  | none => rfl
  | some t => exact fun t _ => Nat.zero_le t

/-- A reader that stops for a reason leaves things as they are. -/
theorem fits_stop {w : Option Nat} {t : Option Nat} (hwhy : w = none ∨ t = some 0) :
    Fits w (some t) ↔ Fits w none := by
  cases w with
  | none => exact Iff.rfl
  | some n =>
    rcases hwhy with hw | rfl
    · simp at hw
    · simp [Fits, Covers]

theorem inv_step {s s' : State} (h : Inv s) (hs : step s e = some s') : Inv s' := by
  cases stepped hs with
  | transfer hworks hw hr hn ht =>
    have husing : ∀ w r, State.using { s with writer := some w, reader := some r } = true := by
      intro w r
      unfold State.using
      cases s.cur.callerWrites <;> rfl
    refine ⟨fun _ => husing _ _, fun hw' => ?_, fun _ => Or.inl (husing _ _), fun hsent => ?_⟩
    · exact absurd (hworks.symm.trans hw') (by simp)
    · -- while bytes go through the pipe the goroutine is not done
      have hidle := h.sent hsent
      unfold State.idle at hidle
      rw [hw, hr] at hidle
      simp at hidle
  | close hside hw =>
    cases hc : s.cur.callerWrites with
    | true =>
      rw [State.closeWriter, if_pos hc]
      refine ⟨fun h' => absurd h' (by simp), fun _ => by simp [State.using, hc],
        fun h' => absurd h' (by simp), fun hsent => ?_⟩
      simpa [State.idle, hc] using h.sent hsent
    | false =>
      have husing : State.using { s with writer := none } = s.using := by
        simp [State.using, hc]
      rw [State.closeWriter, if_neg (by simp [hc])]
      exact ⟨fun h' => husing ▸ h.working h', fun h' => husing ▸ h.waiting h',
        fun h' => husing ▸ h.returned h', fun _ => by simp [State.idle, hc]⟩
  | stop hside hr hwhy =>
    cases hc : s.cur.callerWrites with
    | true =>
      have husing : State.using { s with reader := none } = s.using := by
        simp [State.using, hc]
      rw [State.stopReader, if_pos hc]
      exact ⟨fun h' => husing ▸ h.working h', fun h' => husing ▸ h.waiting h',
        fun h' => husing ▸ h.returned h', fun _ => by simp [State.idle, hc]⟩
    | false =>
      rw [State.stopReader, if_neg (by simp [hc])]
      refine ⟨fun h' => absurd h' (by simp), fun _ => by simp [State.using, hc],
        fun h' => absurd h' (by simp), fun hsent => ?_⟩
      simpa [State.idle, hc] using h.sent hsent
  | send hidle hsent => exact ⟨h.working, h.waiting, fun _ => Or.inr rfl, fun _ => hidle⟩
  | collect hwait hsent =>
    unfold State.proceed
    split
    next next rest _ _ => exact inv_enter next rest
    next =>
      exact ⟨fun h' => absurd h' (by simp), fun h' => absurd h' (by simp), fun _ => Or.inr hsent,
        h.sent⟩

/-- What the goroutine does on its own. -/
theorem fine_congr (s : State) {writer : Option Nat} {reader : Option (Option Nat)}
    (halone : s.caller = .returned →
      (Alone s ↔ Alone { s with writer := writer, reader := reader }))
    (hfits : Fits s.writer s.reader ↔ Fits writer reader) :
    Fine s ↔ Fine { s with writer := writer, reader := reader } := by
  constructor
  · intro h
    exact ⟨fun hret => (halone hret).mp (h.1 hret), fun hne => ⟨hfits.mp (h.2 hne).1, (h.2 hne).2⟩⟩
  · intro h
    exact ⟨fun hret => (halone hret).mpr (h.1 hret),
      fun hne => ⟨hfits.mpr (h.2 hne).1, (h.2 hne).2⟩⟩

/-- **Whether a call will finish does not change on the way.** -/
theorem fine_step {s s' : State} (h : Inv s) (hs : step s e = some s') :
    Fine s ↔ Fine s' := by
  cases stepped hs with
  | transfer hworks hw hr hn ht =>
    unfold Fine
    rw [hworks, hw, hr]
    simp only [reduceCtorEq, false_implies, true_and, ne_eq, not_false_eq_true, true_implies]
    rw [fits_take hn ht]
  | close hside hw =>
    have hfits : ∀ r, Fits s.writer r ↔ Fits none r := fun r => by
      rw [hw]
      exact ⟨fun _ => trivial, fun _ => fits_zero r⟩
    cases hc : s.cur.callerWrites with
    | true =>
      rw [State.closeWriter, if_pos hc]
      unfold Fine
      simp [hside hc, hfits]
    | false =>
      rw [State.closeWriter, if_neg (by simp [hc])]
      exact fine_congr s (fun _ => by simp [Alone, hc, hw]) (hfits _)
  | stop hside hr hwhy =>
    have hfits : Fits s.writer s.reader ↔ Fits s.writer none := by
      rw [hr]
      exact fits_stop hwhy
    cases hc : s.cur.callerWrites with
    | false =>
      rw [State.stopReader, if_neg (by simp [hc])]
      unfold Fine
      simp [hside hc, hfits]
    | true =>
      rw [State.stopReader, if_pos hc]
      -- a caller that has returned either has left its end open or has had the result
      have halone : s.caller = .returned → Alone s := by
        intro hret
        rcases hwhy with hw | rfl
        · rcases h.returned hret with hu | hsent
          · simp [State.using, hc, hw] at hu
          · have := h.sent hsent
            simp [State.idle, hc, hr] at this
        · simp [Alone, hc, hr]
      have halone' : Alone { s with reader := none } := by simp [Alone, hc]
      exact fine_congr s (fun hret => ⟨fun _ => halone', fun _ => halone hret⟩) hfits
  | send hidle hsent => exact Iff.rfl
  | collect hwait hsent =>
    have hidle := h.sent hsent
    have husing := h.waiting hwait
    have hnone : s.writer = none ∧ s.reader = none := by
      cases hc : s.cur.callerWrites with
      | true => simpa [State.idle, State.using, hc, and_comm] using And.intro hidle husing
      | false => simpa [State.idle, State.using, hc] using And.intro hidle husing
    have hfine : Fine s ↔ (s.cur.ok = true → Matched s.rest) := by
      unfold Fine
      simp [hwait, hnone.1, Fits]
    rw [hfine]
    unfold State.proceed
    split
    next next rest hok hrest =>
      rw [fine_enter, hok, hrest]
      simp
    next hnot =>
      have halone : Alone { s with caller := .returned } := by simp [Alone, hnone]
      have hlast : s.cur.ok = true → Matched s.rest := by
        intro hok
        cases hrest : s.rest with
        | nil => trivial
        | cons next rest => exact absurd hrest (hnot next rest hok)
      exact ⟨fun _ => ⟨fun _ => halone, fun hne => absurd rfl hne⟩, fun _ => hlast⟩

/-- Before the call has returned, whoever has to do with the pipe is there. -/
theorem there {s : State} (h : Inv s) (hne : s.caller ≠ .returned) :
    (s.writer.isSome = true → s.writing = true) ∧ (s.reader.isSome = true → s.reading = true) := by
  have hworks : s.using = true → s.caller = .working := by
    intro husing
    cases hcaller : s.caller with
    | working => rfl
    | waiting => exact absurd (husing.symm.trans (h.waiting hcaller)) (by simp)
    | returned => exact absurd hcaller hne
  constructor
  · intro hsome
    exact writing_iff.mpr (fun hc => hworks (by simpa [State.using, hc] using hsome))
  · intro hsome
    exact reading_iff.mpr (fun hc => hworks (by simpa [State.using, hc] using hsome))

/-- As long as the call has not returned, and will finish, there is something to do. -/
theorem exists_step (h : Inv s) (hf : Fine s) (hne : s.caller ≠ .returned) :
    ∃ e, (step s e).isSome = true := by
  obtain ⟨hwrites, hreads⟩ := there h hne
  have hfits := (hf.2 hne).1
  cases hw : s.writer with
  | some n =>
    have hwriting := hwrites (by rw [hw]; rfl)
    cases n with
    | zero => exact ⟨.close, by simp [step, hwriting, hw]⟩
    | succ n =>
      cases hr : s.reader with
      | none =>
        rw [hw, hr] at hfits
        exact absurd hfits (by simp [Fits])
      | some t =>
        -- one byte can be read, as the reader takes all of them
        have hreading := hreads (by rw [hr]; rfl)
        have htake : (take 1 t).isSome = true := by
          cases t with
          | none => rfl
          | some t =>
            rw [hw, hr] at hfits
            have hle : 1 ≤ t := le_trans (by omega) (hfits t rfl)
            simp [take, hle]
        refine ⟨.transfer 0, ?_⟩
        simp [step, hw, hr, hwriting, hreading, htake]
  | none =>
    cases hr : s.reader with
    | some t =>
      have hreading := hreads (by rw [hr]; rfl)
      by_cases ht : t = some 0
      · exact ⟨.stop, by simp [step, hreading, hr, ht]⟩
      · exact ⟨.eof, by simp [step, hreading, hw, hr, ht]⟩
    | none =>
      have hidle : s.idle = true := by simp [State.idle, hw, hr]
      cases hsent : s.sent with
      | false => exact ⟨.send, by simp [step, hidle, hsent]⟩
      | true =>
        have hwait : s.caller = .waiting := by
          cases hcaller : s.caller with
          | waiting => rfl
          | returned => exact absurd hcaller hne
          | working =>
            have := h.working hcaller
            simp [State.using, hw, hr] at this
        exact ⟨.collect, by simp [step, hwait, hsent]⟩

/-- Where no step is left, the call has finished if it was to. -/
theorem fine_iff_done (h : Inv s) (hstuck : ∀ e, step s e = none) :
    Fine s ↔ Done s := by
  constructor
  · intro hf
    have hret : s.caller = .returned := by
      by_contra hne
      obtain ⟨e, he⟩ := exists_step h hf hne
      rw [hstuck e] at he
      simp at he
    refine ⟨hret, ?_⟩
    have hidle : s.idle = true := by
      have halone := hf.1 hret
      cases hc : s.cur.callerWrites with
      | true =>
        rw [Alone, if_pos hc] at halone
        rcases halone with hr | hr
        · simp [State.idle, hc, hr]
        · have := hstuck .stop
          simp [step, State.reading, hc, hr] at this
      | false =>
        rw [Alone, if_neg (by simp [hc])] at halone
        rcases halone with hw | hw
        · simp [State.idle, hc, hw]
        · have := hstuck .close
          simp [step, State.writing, hc, hw] at this
    by_contra hsent
    have := hstuck .send
    simp [step, hidle, hsent] at this
  · intro hdone
    obtain ⟨hret, hsent⟩ := hdone
    refine ⟨fun _ => ?_, fun hne => absurd hret hne⟩
    have hidle := h.sent hsent
    cases hc : s.cur.callerWrites with
    | true => simpa [Alone, hc, State.idle] using Or.inl hidle
    | false => simpa [Alone, hc, State.idle] using Or.inl hidle

theorem fine_enterAll (l : List Session) : Fine (enterAll l) ↔ Matched l := by
  cases l with
  | nil =>
    refine ⟨fun _ => trivial, fun _ => ⟨fun _ => Or.inl rfl, fun hne => absurd rfl hne⟩⟩
  | cons s rest => exact fine_enter s rest

theorem inv_enterAll (l : List Session) : Inv (enterAll l) := by
  cases l with
  | nil =>
    exact ⟨fun h => absurd h (by simp [enterAll, ended]),
      fun h => absurd h (by simp [enterAll, ended]), fun _ => Or.inr rfl, fun _ => rfl⟩
  | cons s rest => exact inv_enter s rest

theorem finishes_enterAll_iff (l : List Session) :
    Runs.Finishes step Done (enterAll l) ↔ Matched l :=
  (Runs.finishes_iff (fun _ _ _ hs => step_weight hs) (fun _ _ _ h hs => inv_step h hs)
    (fun _ _ _ h hs => fine_step h hs) (fun _ h hstuck => fine_iff_done h hstuck)
    (inv_enterAll l)).trans (fine_enterAll l)

/--
**A backup and a restore finish** exactly if `Push` reads all that is written to the pipe and
the import all that is pulled, and nobody is left behind who wants to.
-/
theorem call_finishes_iff (c : Call) : c.Finishes ↔ c.Matched := finishes_enterAll_iff c.sessions

/--
`Push` fails before it has read its body; the metadata of the parent can not be read, while the
upload waits; the import stops with bytes left; there is no decoder, while the download waits.
-/
theorem calls_not_finishing :
    ¬ (Call.createBackup ⟨false, 1, some 0, false⟩).Finishes
    ∧ ¬ (Call.createBackup ⟨true, 0, none, false⟩).Finishes
    ∧ ¬ (Call.restoreBackup [⟨false, 2, some 1, false⟩]).Finishes
    ∧ ¬ (Call.restoreBackup [⟨true, 1, none, false⟩]).Finishes := by
  refine ⟨fun h => ?_, fun h => ?_, fun h => ?_, fun h => ?_⟩
  · have hle : 1 ≤ 0 := ((finishes_enterAll_iff _).mp h).1 0 rfl
    omega
  · exact absurd ((finishes_enterAll_iff _).mp h).1 (by simp [Session.Matched])
  · have hle : 2 ≤ 1 := ((finishes_enterAll_iff _).mp h).1 1 rfl
    omega
  · exact absurd ((finishes_enterAll_iff _).mp h).1 (by simp [Session.Matched])

end Backup.Pipe

end WeftBlock
