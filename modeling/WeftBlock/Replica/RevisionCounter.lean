import WeftBlock.Lib.Decimal
import WeftBlock.Lib.Runs
import WeftBlock.Lib.Slice

/-!
# The revision counter file

A replica keeps its revision counter in a file of one block: the digits of the number,
padded with zeros. `writeRevisionCounter` puts the digits into a buffer and writes the
buffer out. The buffer is a variable of the package, so all the replicas of a process
put their digits into the same one.

Whatever the buffer held before, the digits of a counter and the padding behind them
overwrite it (`putDigits_eq`), so no trace of an earlier and longer number is left. What
can go wrong is that another replica puts its own digits there before the buffer is
written out.
-/

namespace WeftBlock.RevisionCounter

open Decimal Slice

def revisionBlockSize : Nat := 4096

/-- `readRevisionCounter`, of a file with these bytes. -/
def readRevisionCounter (file : List UInt8) : Option Int64 :=
  parseInt (trimZeros (copyAt (List.replicate revisionBlockSize 0) 0 (file.take revisionBlockSize)))

/-- The first half of `writeRevisionCounter`: the digits, and zeros up to the twentieth byte. -/
def putDigits (revisionCounterBuf : List UInt8) (counter : Int64) : List UInt8 :=
  let counterBytes := formatInt counter
  copyAt (copyAt revisionCounterBuf 0 counterBytes) counterBytes.length
    (List.replicate (20 - counterBytes.length) 0)

/-- The second half: the buffer is written at the start of the file. -/
def flush (file revisionCounterBuf : List UInt8) : List UInt8 :=
  revisionCounterBuf ++ file.drop revisionCounterBuf.length

/-! ## One replica -/

/-- A whole block that holds a counter. -/
def block (counter : Int64) : List UInt8 :=
  formatInt counter ++ List.replicate (revisionBlockSize - (formatInt counter).length) 0

/-- A buffer of one block in which nothing but the first twenty bytes was ever used. -/
structure Clean (buf : List UInt8) : Prop where
  length : buf.length = revisionBlockSize
  rest : ∀ i, 20 ≤ i → i < revisionBlockSize → buf[i]? = some 0

theorem length_block (counter : Int64) : (block counter).length = revisionBlockSize := by
  have hle := length_formatInt_le counter
  rw [block, List.length_append, List.length_replicate]
  show _ + (4096 - _) = 4096
  omega

theorem getElem?_block (counter : Int64) {i : Nat} (hi : i < revisionBlockSize) :
    (block counter)[i]?
    = if i < (formatInt counter).length then (formatInt counter)[i]? else some 0 := by
  rw [block]
  split
  · rename_i hlt
    rw [List.getElem?_append_left hlt]
  · rename_i hge
    rw [List.getElem?_append_right (Nat.not_lt.mp hge), List.getElem?_replicate, if_pos (by omega)]

theorem clean_block (counter : Int64) : Clean (block counter) := by
  have hle := length_formatInt_le counter
  refine ⟨length_block counter, fun i h20 hi => ?_⟩
  rw [getElem?_block counter hi, if_neg (by omega)]

/-- **The digits and their padding overwrite all that was in use.** -/
theorem putDigits_eq {buf : List UInt8} (h : Clean buf) (counter : Int64) :
    putDigits buf counter = block counter := by
  have hle := length_formatInt_le counter
  have hlen : buf.length = 4096 := h.length
  have hlen1 : (copyAt buf 0 (formatInt counter)).length = 4096 := by
    rw [length_copyAt (Nat.zero_le _), hlen]
  have hlen2 : (putDigits buf counter).length = revisionBlockSize := by
    rw [putDigits, length_copyAt (by omega), hlen1]
    rfl
  refine ext_of_lt hlen2 (length_block counter) (fun i hi => ?_)
  rw [getElem?_block counter hi, putDigits,
    getElem?_copyAt (by rw [hlen1, List.length_replicate]; omega), List.length_replicate]
  by_cases hdig : i < (formatInt counter).length
  · rw [if_neg (by omega), if_pos hdig, getElem?_copyAt (by omega), if_pos (by omega), Nat.sub_zero]
  · rw [if_neg hdig]
    by_cases h20 : i < 20
    · rw [if_pos (by omega), List.getElem?_replicate, if_pos (by omega)]
    · rw [if_neg (by omega), getElem?_copyAt (by omega), if_neg (by omega)]
      exact h.rest i (by omega) hi

/-- **What was written is read back.** -/
theorem readRevisionCounter_flush (file : List UInt8) (counter : Int64) :
    readRevisionCounter (flush file (block counter)) = some counter := by
  have htake : (flush file (block counter)).take revisionBlockSize = block counter := by
    rw [flush, ← length_block counter, List.take_left]
  have hcopy : copyAt (List.replicate revisionBlockSize 0) 0 (block counter) = block counter := by
    refine ext_of_lt (n := revisionBlockSize) ?_ (length_block counter) (fun i hi => ?_)
    · rw [length_copyAt (Nat.zero_le _), List.length_replicate]
    · rw [getElem?_copyAt (by rw [length_block, List.length_replicate]; omega), length_block,
        if_pos (by omega), Nat.sub_zero]
  rw [readRevisionCounter, htake, hcopy, block,
    trimZeros_append (zero_not_mem_formatInt counter) (formatInt_ne_nil counter), parseInt_formatInt]

/-! ## The replicas of a process -/

/-- The replicas `ι` of a process, their counter files and the buffer they share. -/
structure Process (ι : Type) where
  revisionCounterBuf : List UInt8
  file : ι → List UInt8
  /-- The value of the call that has put its digits and not written them yet. -/
  writing : ι → Option Int64
  /-- The value of the last call, once it has returned nil and until the next one starts. -/
  written : ι → Option Int64

/-- The two steps of a call; the second may fail and leave anything in the file. -/
inductive Event (ι : Type)
  | put (i : ι) (counter : Int64)
  | flush (i : ι)
  | fail (i : ι) (file : List UInt8)

namespace Process

variable {ι : Type}

/-- The process before the first call. -/
def start (file : ι → List UInt8) : Process ι :=
  ⟨List.replicate revisionBlockSize 0, file, fun _ => none, fun _ => none⟩

/-- The buffer is clean, and holds some counter once a call has put its digits. -/
structure Base (s : Process ι) : Prop where
  clean : Clean s.revisionCounterBuf
  writing : ∀ i counter, s.writing i = some counter → ∃ c, s.revisionCounterBuf = block c

theorem base_start (file : ι → List UInt8) : Base (start file) := by
  refine ⟨⟨List.length_replicate, fun i _ hi => ?_⟩, fun i counter h => absurd h (by simp [start])⟩
  exact (List.getElem?_replicate).trans (if_pos hi)

variable [DecidableEq ι]

/-- The digits of a call of replica `i` are in the buffer. -/
def putting (s : Process ι) (i : ι) (counter : Int64) : Process ι :=
  { s with
    revisionCounterBuf := putDigits s.revisionCounterBuf counter
    writing := Function.update s.writing i (some counter)
    written := Function.update s.written i none }

/-- The call of replica `i` is over. -/
def returning (s : Process ι) (i : ι) (file : List UInt8) (written : Option Int64) : Process ι :=
  { s with
    file := Function.update s.file i file
    writing := Function.update s.writing i none
    written := Function.update s.written i written }

/-- A replica makes one call at a time. -/
def step (s : Process ι) : Event ι → Option (Process ι)
  | .put i counter => if (s.writing i).isSome then none else some (s.putting i counter)
  | .flush i => (s.writing i).map (fun counter =>
    s.returning i (flush (s.file i) s.revisionCounterBuf) (some counter))
  | .fail i file => (s.writing i).map (fun _ => s.returning i file none)

/-- Each counter file gives the value its replica's last call was given. -/
def Faithful (s : Process ι) : Prop :=
  ∀ i counter, s.written i = some counter → readRevisionCounter (s.file i) = some counter

/-- A call that writes the buffer out finds its own value in it. -/
def Undisturbed (s : Process ι) : Event ι → Prop
  | .flush i => ∀ counter, s.writing i = some counter → s.revisionCounterBuf = block counter
  | _ => True

/-- The other replicas' files are as they were. -/
theorem Faithful.returning {s : Process ι} (h : s.Faithful) {i : ι} {file : List UInt8}
    {written : Option Int64} (hi : ∀ counter, written = some counter →
      readRevisionCounter file = some counter) : (s.returning i file written).Faithful := by
  intro j counter hj
  change Function.update s.written i written j = some counter at hj
  show readRevisionCounter (Function.update s.file i file j) = some counter
  rw [Function.update_apply] at hj ⊢
  by_cases hji : j = i
  · rw [if_pos hji] at hj ⊢
    exact hi counter hj
  · rw [if_neg hji] at hj ⊢
    exact h j counter hj

theorem Base.returning {s : Process ι} (h : Base s) {i : ι} {counter : Int64}
    (hw : s.writing i = some counter) (file : List UInt8) (written : Option Int64) :
    Base (s.returning i file written) :=
  ⟨h.clean, fun _ _ _ => h.writing i counter hw⟩

/-- **A step ends well exactly when it is undisturbed.** -/
theorem step_faithful_iff {s : Process ι} (h : Base s) (hf : s.Faithful) (e : Event ι) :
    (s.step e = none ∧ s.Undisturbed e)
      ∨ ∃ s', s.step e = some s' ∧ Base s' ∧ (s.Undisturbed e ↔ s'.Faithful) := by
  cases e with
  | put i counter =>
    by_cases hw : (s.writing i).isSome
    · exact Or.inl ⟨if_pos hw, trivial⟩
    · have hbuf : (s.putting i counter).revisionCounterBuf = block counter :=
        putDigits_eq h.clean counter
      refine Or.inr ⟨s.putting i counter, if_neg hw, ⟨?_, fun _ _ _ => ⟨counter, hbuf⟩⟩,
        fun _ j c hj => ?_, fun _ => trivial⟩
      · rw [hbuf]
        exact clean_block counter
      · change Function.update s.written i none j = some c at hj
        rw [Function.update_apply] at hj
        split at hj
        · simp at hj
        · exact hf j c hj
  | flush i =>
    cases hw : s.writing i with
    | none =>
      refine Or.inl ⟨by rw [step, hw]; rfl, fun c hc => ?_⟩
      exact absurd (hw.symm.trans hc) (by simp)
    | some counter =>
      obtain ⟨c, hc⟩ := h.writing i counter hw
      refine Or.inr ⟨s.returning i (flush (s.file i) s.revisionCounterBuf) (some counter),
        by rw [step, hw]; rfl, h.returning hw _ _, fun hu => ?_, fun hf' c' hc' => ?_⟩
      · refine hf.returning (fun c' hc' => ?_)
        rw [hu counter hw, ← Option.some.inj hc']
        exact readRevisionCounter_flush _ _
      · -- the file gives what the buffer held
        obtain rfl : counter = c' := Option.some.inj (hw.symm.trans hc')
        have hread := hf' i counter (Function.update_self _ _ _)
        change readRevisionCounter (Function.update s.file i _ i) = _ at hread
        rw [Function.update_self, hc, readRevisionCounter_flush] at hread
        rw [hc, Option.some.inj hread]
  | fail i file =>
    cases hw : s.writing i with
    | none => exact Or.inl ⟨by rw [step, hw]; rfl, trivial⟩
    | some counter =>
      refine Or.inr ⟨s.returning i file none, by rw [step, hw]; rfl, h.returning hw _ _,
        fun _ => hf.returning (fun c hc => absurd hc (by simp)), fun _ => trivial⟩

/--
**Counters of one process stay apart exactly in undisturbed runs.** In every run of the
replicas' calls, each counter file gives the value of its replica's last call in every
state, if and only if no call writes the buffer out after another replica put a
different value there.
-/
theorem run_faithful_iff (file : ι → List UInt8) (events : List (Event ι)) :
    (∀ k s, Runs.run step (start file) (events.take k) = some s → s.Faithful)
      ↔ Runs.Steady step Undisturbed (start file) events :=
  (Runs.steady_iff Base (fun _ e hb hf => step_faithful_iff hb hf e) (base_start file)
    (fun i counter h => absurd h (by simp [start]))).symm

/-- The second replica puts its digits before the first has written its own. -/
theorem run_mixes_counters :
    ∃ s, Runs.run step (start (fun _ : Bool => [])) [.put false 1, .put true 2, .flush false] = some s
      ∧ s.written false = some 1 ∧ readRevisionCounter (s.file false) = some 2 := by
  have hclean := (base_start (fun _ : Bool => [])).clean
  have hbuf : (((start (fun _ : Bool => [])).putting false 1).putting true 2).revisionCounterBuf
      = block 2 := by
    rw [putting, putting]
    rw [putDigits_eq hclean, putDigits_eq (clean_block 1)]
  let s := ((start (fun _ : Bool => [])).putting false 1).putting true 2
  refine ⟨s.returning false (flush [] s.revisionCounterBuf) (some 1),
    (Runs.run_cons rfl _).trans ((Runs.run_cons rfl _).trans (Runs.run_cons rfl _)), rfl, ?_⟩
  rw [returning]
  dsimp only
  rw [Function.update_self, hbuf, readRevisionCounter_flush]

end Process

end WeftBlock.RevisionCounter
