import WeftBlock.Controller.UnmapBlame

/-!
# Writes with faults

Replicas behind data connections, a controller that writes to all of them, and for
each write and each replica a free choice of what goes wrong. The controller must
keep in RW only replicas with the same content, and for that it has to know who
failed and, when all are out of space, how much each has written.

Both travel over the data connection, and neither always arrives: the sentinel
error for a full disk is reported as success, and any other error comes with a
count of zero. Where no such answer is given (`Sound`), the RW replicas agree after
every write.
-/

namespace WeftBlock

open DataConn Maps

/-! ## The error of a fan-out write, address by address -/

namespace Replicator

variable {β : Type}

/-- The slots are booked on the addresses of the writers. -/
theorem errors_blame {index : AList (fun _ : Nat => String)} (call : β → Nat × Option Err)
    (wb : Nat × Option Err → Nat) (ts : List (String × β)) (i : Nat)
    (hidx : ∀ k (hk : k < ts.length), addressOf index (i + k) = ts[k].1)
    (hnd : (ts.map (fun t => t.1)).Nodup) (acc : Controller.BackendError) (a : String) (e : Err) :
    (blame index i (ts.map (fun t => ((call t.2).2, wb (call t.2)))) acc).errors.lookup a = some e
      ↔ (∃ t ∈ ts, t.1 = a ∧ (call t.2).2 = some e)
        ∨ (∀ t ∈ ts, t.1 = a → (call t.2).2 = none) ∧ acc.errors.lookup a = some e := by
  induction ts generalizing i acc with
  | nil => simp [blame]
  | cons t ts ih =>
    obtain ⟨hnot, hnd⟩ := List.nodup_cons.mp hnd
    have hhead : addressOf index i = t.1 := hidx 0 (Nat.zero_lt_succ _)
    have hidx' : ∀ k (hk : k < ts.length), addressOf index (i + 1 + k) = ts[k].1 := by
      intro k hk
      rw [show i + 1 + k = i + (k + 1) by omega]
      exact hidx (k + 1) (Nat.succ_lt_succ hk)
    rw [List.map_cons]
    cases hc : (call t.2).2 with
    | none =>
      rw [blame, ih (i + 1) hidx' hnd acc]
      simp [hc]
    | some e₀ =>
      rw [blame, ih (i + 1) hidx' hnd, hhead, lookup_insert_eq]
      by_cases ha : a = t.1
      · -- the address is this slot's, and no later slot's
        have hrest : ∀ u ∈ ts, u.1 ≠ a := fun u hu hh =>
          hnot (List.mem_map.mpr ⟨u, hu, hh.trans ha⟩)
        rw [if_pos ha]
        constructor
        · intro hh
          rcases hh with ⟨u, hu, hua, _⟩ | ⟨_, he⟩
          · exact absurd hua (hrest u hu)
          · exact Or.inl ⟨t, List.mem_cons_self, ha.symm, by rw [hc, he]⟩
        · intro hh
          refine Or.inr ⟨fun u hu hua => absurd hua (hrest u hu), ?_⟩
          rcases hh with ⟨u, hu, hua, he⟩ | ⟨hall, _⟩
          · rcases List.mem_cons.mp hu with rfl | hu
            · rw [← hc, he]
            · exact absurd hua (hrest u hu)
          · exact absurd (hall t List.mem_cons_self ha.symm) (by rw [hc]; simp)
      · rw [if_neg ha]
        have hne : t.1 ≠ a := fun hh => ha hh.symm
        simp [hne]

/-- What `WriteAt` of the replicator returns: the errors of exactly the writers that failed. -/
theorem writeAt_spec {r : Replicator β} (hav : r.backendsAvailable = true)
    {ts : List (String × β)} (hnum : Numbers r.writerIndex (ts.map (fun t => t.1)))
    (hnd : (ts.map (fun t => t.1)).Nodup) (hts : r.writers = ts.map (fun t => some t.2))
    (write : β → Nat × Option Err) (length : Nat) :
    ∃ n e, r.writeAt write length = some (n,
        if ∀ t ∈ ts, (write t.2).2 = none then none else some (.backend e))
      ∧ ∀ a x, e.errors.lookup a = some x ↔ ∃ t ∈ ts, t.1 = a ∧ (write t.2).2 = some x := by
  have hall : (∀ e ∈ (ts.map (fun t => write t.2)).map (fun a => a.2), e = none)
      ↔ ∀ t ∈ ts, (write t.2).2 = none := by
    rw [List.map_map]
    exact List.forall_mem_map
  have hidx : ∀ k (hk : k < ts.length), addressOf r.writerIndex (0 + k) = ts[k].1 := by
    intro k hk
    rw [Nat.zero_add, addressOf, hnum k, List.getElem?_map, List.getElem?_eq_getElem hk]
    rfl
  have hzip : ((ts.map (fun t => write t.2)).map (fun a => a.2)).zip
      ((ts.map (fun t => write t.2)).map (fun a => if a.2 = none then 0 else a.1))
      = ts.map (fun t => ((write t.2).2, (fun a => if a.2 = none then 0 else a.1) (write t.2))) := by
    rw [List.map_map, List.map_map, List.zip_map']
    rfl
  refine ⟨if none ∈ (ts.map (fun t => write t.2)).map (fun a => a.2) then length else 0,
    blame r.writerIndex 0 (ts.map (fun t => ((write t.2).2,
      (fun a => if a.2 = none then 0 else a.1) (write t.2)))) ⟨∅, ∅⟩, ?_, fun a x => ?_⟩
  · unfold writeAt multiWriteAt
    rw [if_neg (by rw [hav]; simp), hts, callAll_some]
    dsimp only
    by_cases hok : ∀ t ∈ ts, (write t.2).2 = none
    · rw [if_pos hok, if_pos (hall.mpr hok)]
    · rw [if_neg hok, if_neg (fun hh => hok (hall.mp hh)), ← hzip]
  · rw [errors_blame write (fun a => if a.2 = none then 0 else a.1) ts 0 hidx hnd ⟨∅, ∅⟩ a x]
    simp

end Replicator

/-! ## A write as seen through the connection -/

/-- What becomes of one write at one replica. -/
inductive Outcome
  /-- It succeeds. -/
  | done
  /-- It fails with an error, and leaves whatever content it leaves. -/
  | failed (err : Err) (left : Nat → UInt8)
  /-- It runs out of space with part of the buffer written. -/
  | noSpace (err : Err) (persisted : Nat)

namespace Outcome

/-- The error the replica returns. -/
def err : Outcome → Option Err
  | .done => none
  | .failed e _ => some e
  | .noSpace e _ => some e

/-- What the replica's server is given to send back. -/
def result (length : Nat) : Outcome → Result
  | .done => ⟨[], length, none⟩
  | .failed e _ => ⟨[], 0, some e⟩
  | .noSpace e persisted => ⟨[], persisted, some e⟩

/-- Data written over old content. -/
def overlay (old : Nat → UInt8) (off : Nat) (data : List UInt8) (p : Nat) : UInt8 :=
  if off ≤ p ∧ p < off + data.length then data.getD (p - off) 0 else old p

/-- The content of the replica afterwards. -/
def after (o : Outcome) (old : Nat → UInt8) (off : Nat) (data : List UInt8) : Nat → UInt8 :=
  match o with
  | .done => overlay old off data
  | .failed _ left => left
  | .noSpace _ persisted => overlay old off (data.take persisted)

end Outcome

/-- What the client hands the replicator; a handler that panics takes the connection with it. -/
def clientWrite (seq : UInt32) (data : List UInt8) (off : Nat) (o : Outcome) : Nat × Option Err :=
  match operation .write data (UInt32.ofNat data.length) (Int64.ofNat off) seq
    (o.result data.length) with
  | some (_, n, err) => (n, err)
  | none => (0, some .eof)

/-- The client does not see the sentinel, and sees every other error. -/
theorem clientWrite_err (seq : UInt32) (data : List UInt8) (off : Nat) (o : Outcome) :
    (clientWrite seq data off o).2
      = if o.err = some .noSpaceLeftOnDevice then none else o.err := by
  unfold clientWrite
  rw [operation_eq]
  cases o with
  | done => simp [handle, request, Op.type, pushResponse, complete, Outcome.result, Outcome.err]
  | failed e left =>
    cases e <;>
      simp [handle, request, Op.type, pushResponse, complete, Outcome.result, Outcome.err]
  | noSpace e k =>
    cases e with
    | eof =>
      by_cases hk : k = 0
      · simp [handle, request, Op.type, pushResponse, complete, Outcome.result, Outcome.err, hk]
      · simp [handle, request, Op.type, pushResponse, Outcome.result, Outcome.err, hk]
    | noSpaceLeftOnDevice =>
      simp [handle, request, Op.type, pushResponse, complete, Outcome.result, Outcome.err]
    | other t =>
      simp [handle, request, Op.type, pushResponse, complete, Outcome.result, Outcome.err]

/-! ## The system -/

/-- The controller and what its replicas hold. -/
structure World (β : Type) where
  ctl : Controller β
  disk : β → Nat → UInt8

/-- One call of `WriteAt`, with what it meets. -/
structure Write (β : Type) where
  order : MapOrder
  buf : List UInt8
  off : Int
  seq : UInt32
  outcome : β → Outcome

namespace World

variable {β : Type}

/-- The client of this backend reports an error. -/
def Reports (x : Write β) (b : β) (e : Err) : Prop :=
  (x.outcome b).err = some e ∧ e ≠ .noSpaceLeftOnDevice

variable {x : Write β} {c : Controller β} {p : Nat}

theorem clientWrite_eq_some {b : β} {off : Nat} {e : Err} :
    (clientWrite x.seq x.buf off (x.outcome b)).2 = some e ↔ Reports x b e := by
  rw [clientWrite_err]
  unfold Reports
  by_cases h : (x.outcome b).err = some .noSpaceLeftOnDevice
  · rw [if_pos h, h]
    simp [eq_comm]
  · rw [if_neg h]
    exact ⟨fun hh => ⟨hh, fun he => h (he ▸ hh)⟩, fun hh => hh.1⟩

/-- **A write that is sent demotes by what the clients report.** -/
theorem writeAt_demotes (hc : c.Consistent) (hwo : c.hasWOReplica = false) (x : Write β)
    (read : β → Nat → Replicator.ReadAnswer) (hin : ¬ c.beyond x.buf.length x.off)
    (hav : c.backend.backendsAvailable = true) :
    ∃ c' n err e marked, c.writeAt x.order read
        (fun b data off => clientWrite x.seq data off (x.outcome b)) x.buf x.off = some (c', n, err)
      ∧ Controller.Moded c c' (Controller.markErr marked) ∧ Controller.Demotes c e marked
      ∧ ∀ a y, e.errors.lookup a = some y ↔ ∃ b, c.handle a = some b
        ∧ (∃ m, ⟨a, m⟩ ∈ c.replicas ∧ m ≠ .ERR) ∧ Reports x b y := by
  obtain ⟨ts, ht⟩ := hc.writers
  obtain ⟨n, e, hw, he⟩ := Replicator.writeAt_spec hav ht.numbers ht.nodup ht.handles_eq
    (fun b => clientWrite x.seq x.buf x.off.toNat (x.outcome b)) x.buf.length
  have hlook : ∀ a y, e.errors.lookup a = some y ↔ ∃ b, c.handle a = some b
      ∧ (∃ m, ⟨a, m⟩ ∈ c.replicas ∧ m ≠ .ERR) ∧ Reports x b y := by
    intro a y
    rw [he]
    constructor
    · intro hh
      obtain ⟨t, hin, rfl, hy⟩ := hh
      obtain ⟨hb, hm⟩ := (ht.mem_iff t.1 t.2).mp hin
      exact ⟨t.2, hb, hm, clientWrite_eq_some.mp hy⟩
    · intro hh
      obtain ⟨b, hb, hm, hy⟩ := hh
      exact ⟨(a, b), (ht.mem_iff _ _).mpr ⟨hb, hm⟩, rfl, clientWrite_eq_some.mpr hy⟩
  unfold Controller.writeAt
  rw [if_neg hin, hwo, if_neg Bool.false_ne_true, Controller.writeInNormalMode, hw]
  dsimp only [Option.map_some]
  by_cases hok : ∀ t ∈ ts, (clientWrite x.seq x.buf x.off.toNat (x.outcome t.2)).2 = none
  · -- nobody reports anything
    have hnone : ∀ a y, e.errors.lookup a ≠ some y := by
      intro a y hh
      obtain ⟨t, hin, _, hy⟩ := (he a y).mp hh
      rw [hok t hin] at hy
      simp at hy
    rw [if_pos hok]
    exact ⟨c, n, none, e, [], rfl, Controller.Moded.refl hc,
      ⟨by simp, fun a y hh => absurd hh (hnone a y), fun a y hh => absurd hh (hnone a y)⟩, hlook⟩
  · rw [if_neg hok]
    have hsome : ∃ a, a ∈ e.errors := by
      by_contra hno
      refine hok (fun t hin => ?_)
      by_contra hne
      obtain ⟨y, hy⟩ := Option.ne_none_iff_exists'.mp hne
      exact hno ⟨t.1, (mem_iff_lookup _ _).mpr ⟨y, (he _ _).mpr ⟨t, hin, rfl, hy⟩⟩⟩
    obtain ⟨c', err, marked, heq, hm, hh⟩ := Controller.handleErrorNoLock_spec hc x.order e hsome
    exact ⟨c', n, err, e, marked, by rw [Controller.finish, heq]; rfl, hm, hh.toDemotes, hlook⟩

theorem writeAt_unsent (hwo : c.hasWOReplica = false) (x : Write β)
    (read : β → Nat → Replicator.ReadAnswer) (write : β → List UInt8 → Nat → Nat × Option Err)
    (h : c.beyond x.buf.length x.off ∨ c.backend.backendsAvailable = false) :
    ∃ n err, c.writeAt x.order read write x.buf x.off = some (c, n, err) := by
  unfold Controller.writeAt
  by_cases hb : c.beyond x.buf.length x.off
  · rw [if_pos hb]; exact ⟨_, _, rfl⟩
  · rw [if_neg hb, hwo, if_neg Bool.false_ne_true, Controller.writeInNormalMode,
      Replicator.writeAt, if_pos (h.resolve_left hb)]
    refine ⟨0, some .noBackend, ?_⟩
    dsimp only [Option.map_some]
    rw [Controller.finish, Controller.handleErrorNoLock_other x.order
      (fun e he => absurd he (by simp))]
    rfl

variable [DecidableEq β]

/-- The write reaches this backend. -/
def Reaches (w : World β) (x : Write β) (b : β) : Prop :=
  ¬ w.ctl.beyond x.buf.length x.off ∧ w.ctl.backend.backendsAvailable = true
    ∧ some b ∈ w.ctl.backend.writers

instance (w : World β) (x : Write β) (b : β) : Decidable (w.Reaches x b) :=
  inferInstanceAs (Decidable (_ ∧ _))

/-- `WriteAt` of a controller none of whose replicas is being rebuilt. -/
def write (w : World β) (x : Write β) : Option (World β × Nat × Option Controller.IOErr) :=
  match w.ctl.writeAt x.order (fun _ _ => ⟨id, 0, some .eof⟩)
    (fun b data off => clientWrite x.seq data off (x.outcome b)) x.buf x.off with
  | none => none
  | some (c, n, err) =>
    some (⟨c, fun b => if w.Reaches x b then (x.outcome b).after (w.disk b) x.off.toNat x.buf
      else w.disk b⟩, n, err)

/-- All RW replicas hold the same bytes over the whole volume. -/
def Agree (w : World β) : Prop :=
  ∀ r ∈ w.ctl.replicas, ∀ s ∈ w.ctl.replicas, r.mode = .RW → s.mode = .RW →
    ∀ b d, w.ctl.handle r.address = some b → w.ctl.handle s.address = some d →
      ∀ p : Nat, (p : Int) < w.ctl.size → w.disk b p = w.disk d p

/-- The backend of an RW replica. -/
def Current (w : World β) (b : β) : Prop :=
  ∃ r ∈ w.ctl.replicas, r.mode = .RW ∧ w.ctl.handle r.address = some b

/--
A write whose failures the controller can tell apart. The error of an RW replica is
never the sentinel and never looks like a snapshot that exists already, and if no
RW replica succeeds, those that ran out of space got equally far.
-/
structure Sound (w : World β) (x : Write β) : Prop where
  reported : ∀ b, w.Current b → (x.outcome b).err ≠ some .noSpaceLeftOnDevice
  noticed : ∀ b e, w.Current b → (x.outcome b).err = some e →
    Controller.isSnapshotDiskExist e = false
  together : (∃ b, w.Current b ∧ (x.outcome b).err = none)
    ∨ ∀ b d e f, w.Current b → w.Current d → (x.outcome b).err = some e →
        (x.outcome d).err = some f → Controller.isNoSpace e = true →
        Controller.isNoSpace f = true → ∀ p : Nat, (p : Int) < w.ctl.size →
        (x.outcome b).after (w.disk b) x.off.toNat x.buf p
          = (x.outcome d).after (w.disk d) x.off.toNat x.buf p

theorem Agree.current {w : World β} (h : w.Agree) {b d : β} (hb : w.Current b) (hd : w.Current d)
    (hp : (p : Int) < w.ctl.size) : w.disk b p = w.disk d p := by
  obtain ⟨r, hr, hrm, hrb⟩ := hb
  obtain ⟨s, hs, hsm, hsd⟩ := hd
  exact h r hr s hs hrm hsm b d hrb hsd p hp

/-- Writing the same data over the same bytes gives the same bytes. -/
theorem overlay_congr {old old' : Nat → UInt8} {off : Nat} {data : List UInt8} (h : old p = old' p) :
    Outcome.overlay old off data p = Outcome.overlay old' off data p := by
  unfold Outcome.overlay
  rw [h]

section

variable {w : World β} (hc : w.ctl.Consistent)
include hc

/-- An RW replica is written to whenever a write is sent. -/
theorem Current.reaches {b : β} (hb : w.Current b) (hin : ¬ w.ctl.beyond x.buf.length x.off) :
    w.Reaches x b := by
  obtain ⟨r, hr, hm, hh⟩ := hb
  obtain ⟨ts, ht⟩ := hc.writers
  refine ⟨hin, hc.available_iff.mpr ⟨r, hr, hm⟩, ?_⟩
  rw [ht.handles_eq]
  exact List.mem_map.mpr ⟨(r.address, b),
    (ht.mem_iff _ _).mpr ⟨hh, r.mode, hr, by rw [hm]; simp⟩, rfl⟩

/--
After a sound write, the replicas that are still RW either all succeeded, or all ran
out of space together.
-/
theorem Sound.after_eq (ha : w.Agree) (hs : w.Sound x) {e : Controller.BackendError}
    {marked : List String} (hd : Controller.Demotes w.ctl e marked)
    (he : ∀ a y, e.errors.lookup a = some y ↔ ∃ b, w.ctl.handle a = some b
        ∧ (∃ m, ⟨a, m⟩ ∈ w.ctl.replicas ∧ m ≠ .ERR) ∧ Reports x b y) {r s : Controller.Replica}
    (hr : r ∈ w.ctl.replicas) (hsr : s ∈ w.ctl.replicas) (hrm : r.mode = .RW) (hsm : s.mode = .RW)
    (hr' : r.address ∉ marked) (hs' : s.address ∉ marked) {b d : β}
    (hb : w.ctl.handle r.address = some b) (hd' : w.ctl.handle s.address = some d)
    (hp : (p : Int) < w.ctl.size) :
    (x.outcome b).after (w.disk b) x.off.toNat x.buf p
      = (x.outcome d).after (w.disk d) x.off.toNat x.buf p := by
  -- an RW replica that failed and was not demoted is out of space, and nobody succeeded
  have hkey : ∀ {r : Controller.Replica} {b : β} {y : Err}, r ∈ w.ctl.replicas → r.mode = .RW →
      r.address ∉ marked → w.ctl.handle r.address = some b → (x.outcome b).err = some y →
      Controller.isNoSpace y = true
        ∧ ¬ ∃ b, w.Current b ∧ (x.outcome b).err = none := by
    intro r b y hr hrm hout hb hy
    have hcur : w.Current b := ⟨r, hr, hrm, hb⟩
    have hlook : e.errors.lookup r.address = some y := (he _ _).mpr ⟨b, hb,
      ⟨r.mode, hr, by rw [hrm]; simp⟩, hy, fun hh => hs.reported b hcur (hh ▸ hy)⟩
    rcases Controller.isPlain_or_isFull (hs.noticed b y hcur hy) with hplain | hfull
    · exact absurd (hd.plain _ _ hlook hplain) hout
    · have hspace : Controller.isNoSpace y = true := by
        unfold Controller.isFull at hfull
        exact (Bool.and_eq_true_iff.mp hfull).2
      refine ⟨hspace, fun hh => ?_⟩
      obtain ⟨b', ⟨r', hr'', hrm', hb'⟩, hnone⟩ := hh
      refine hout (hd.full _ _ hlook hfull (hrm ▸ hr) ⟨r', hr'', hrm', fun hin => ?_⟩)
      obtain ⟨y', hy'⟩ := (mem_iff_lookup _ _).mp hin
      obtain ⟨b'', hb'', _, hrep⟩ := (he _ _).mp hy'
      rw [hb'] at hb''
      rw [← Option.some.inj hb'', Reports, hnone] at hrep
      exact absurd hrep.1 (by simp)
  have hcb : w.Current b := ⟨r, hr, hrm, hb⟩
  have hcd : w.Current d := ⟨s, hsr, hsm, hd'⟩
  cases hob : (x.outcome b).err with
  | some y =>
    obtain ⟨hspace, hno⟩ := hkey hr hrm hr' hb hob
    cases hod : (x.outcome d).err with
    | none => exact absurd ⟨d, hcd, hod⟩ hno
    | some z =>
      obtain ⟨hspace', _⟩ := hkey hsr hsm hs' hd' hod
      rcases hs.together with hdone | htog
      · exact absurd hdone hno
      · exact htog b d y z hcb hcd hob hod hspace hspace' p hp
  | none =>
    cases hod : (x.outcome d).err with
    | some z => exact absurd ⟨b, hcb, hob⟩ (hkey hsr hsm hs' hd' hod).2
    | none =>
      have hdone : ∀ {o : Outcome}, o.err = none → o = .done := by
        intro o ho
        cases o with
        | done => rfl
        | failed e left => exact absurd ho (by simp [Outcome.err])
        | noSpace e k => exact absurd ho (by simp [Outcome.err])
      rw [hdone hob, hdone hod]
      exact overlay_congr (ha.current hcb hcd hp)

/-- **One write.** If it is sound, the RW replicas still agree when it has returned. -/
theorem write_agrees (hwo : w.ctl.hasWOReplica = false) (ha : w.Agree) (hs : w.Sound x) :
    ∃ w' n err, w.write x = some (w', n, err) ∧ w'.ctl.Consistent
      ∧ w'.ctl.hasWOReplica = false ∧ w'.Agree := by
  unfold write
  by_cases hsent : ¬ w.ctl.beyond x.buf.length x.off ∧ w.ctl.backend.backendsAvailable = true
  · obtain ⟨c', n, err, e, marked, heq, hm, hd, he⟩ := writeAt_demotes hc hwo x
      (fun _ _ => ⟨id, 0, some .eof⟩) hsent.1 hsent.2
    rw [heq]
    refine ⟨_, n, err, rfl, hm.consistent, ?_, ?_⟩
    · -- demotion makes no replica WO
      rw [← Bool.not_eq_true, Controller.hasWOReplica_iff]
      intro hh
      obtain ⟨⟨a, m⟩, hr, hmode⟩ := hh
      obtain rfl : m = .WO := hmode
      rw [hm.replicas, Controller.mem_map_markErr (by simp)] at hr
      rw [(Controller.hasWOReplica_iff w.ctl).mpr ⟨_, hr.1, rfl⟩] at hwo
      simp at hwo
    · intro r hr s hsr hrm hsm b d hb hd' p hp
      obtain ⟨ra, rm⟩ := r
      obtain ⟨sa, sm⟩ := s
      obtain rfl : rm = .RW := hrm
      obtain rfl : sm = .RW := hsm
      rw [hm.replicas, Controller.mem_map_markErr (by simp)] at hr hsr
      rw [hm.handle] at hb hd'
      have hsize : c'.size = w.ctl.size := by rw [hm.rest]
      rw [hsize] at hp
      have hcb : w.Current b := ⟨_, hr.1, rfl, hb⟩
      have hcd : w.Current d := ⟨_, hsr.1, rfl, hd'⟩
      dsimp only
      rw [if_pos (hcb.reaches hc hsent.1), if_pos (hcd.reaches hc hsent.1)]
      exact hs.after_eq hc ha hd he hr.1 hsr.1 rfl rfl hr.2 hsr.2 hb hd' hp
  · obtain ⟨n, err, heq⟩ := writeAt_unsent hwo x (fun _ _ => ⟨id, 0, some .eof⟩)
      (fun b data off => clientWrite x.seq data off (x.outcome b)) (by
        by_contra hno
        rw [not_or] at hno
        exact hsent ⟨hno.1, Bool.eq_true_of_not_eq_false hno.2⟩)
    rw [heq]
    refine ⟨_, n, err, rfl, hc, hwo, ?_⟩
    have hdisk : (fun b => if w.Reaches x b then
        (x.outcome b).after (w.disk b) x.off.toNat x.buf else w.disk b) = w.disk := by
      funext b
      exact if_neg (fun hh => hsent ⟨hh.1, hh.2.1⟩)
    rw [hdisk]
    exact ha

end

/-! ## Runs -/

/-- The world after a write, whatever it returned. -/
def step (w : World β) (x : Write β) : Option (World β) := (w.write x).map (fun y => y.1)

/-- Writes one after the other. -/
def run (w : World β) (xs : List (Write β)) : Option (World β) := Runs.run step w xs

/-- Every write of the run is sound when its turn comes. -/
def Steady : World β → List (Write β) → Prop
  | _, [] => True
  | w, x :: xs => w.Sound x ∧ ∀ w' n err, w.write x = some (w', n, err) → w'.Steady xs

/--
**Every run.** If replicas agree at first and all writes are sound, then the RW
replicas agree after each of the writes.
-/
theorem run_agrees {w : World β} (hc : w.ctl.Consistent) (hwo : w.ctl.hasWOReplica = false)
    (ha : w.Agree) {xs : List (Write β)} (hs : w.Steady xs) (k : Nat) :
    ∃ w', w.run (xs.take k) = some w' ∧ w'.Agree := by
  induction xs generalizing w k with
  | nil => exact ⟨w, by rw [List.take_nil]; rfl, ha⟩
  | cons x xs ih =>
    cases k with
    | zero => exact ⟨w, rfl, ha⟩
    | succ k =>
      obtain ⟨w', n, err, heq, hc', hwo', ha'⟩ := write_agrees hc hwo ha hs.1
      obtain ⟨w'', heq', ha''⟩ := ih hc' hwo' ha' (hs.2 w' n err heq) k
      refine ⟨w'', ?_, ha''⟩
      rw [List.take_succ_cons, run, Runs.run_cons (by rw [step, heq]; rfl)]
      exact heq'

/-! ## Two replicas -/

/-- The two replicas of `pair`, both empty. -/
def twoEmpty : World Nat := ⟨Controller.pair, fun _ _ => 0⟩

/-- A write that the second replica does not answer in time. -/
def timesOut : Write Nat where
  order := .listed
  buf := [1, 1]
  off := 0
  seq := 1
  outcome b := if b = 2 then .failed (.other (text "r/w timeout")) (fun _ => 9) else .done

theorem sound_timesOut : twoEmpty.Sound timesOut := by
  have herr : ∀ b e, (timesOut.outcome b).err = some e → e = .other (text "r/w timeout") := by
    intro b e he
    unfold timesOut at he
    dsimp only at he
    split at he
    · exact (Option.some.inj he).symm
    · exact absurd he (by simp [Outcome.err])
  refine ⟨fun b _ he => ?_, fun b e _ he => ?_, Or.inl ⟨1, ?_, rfl⟩⟩
  · exact absurd (herr b _ he) (by simp)
  · rw [herr b e he]; decide
  · exact ⟨⟨"a", .RW⟩, by decide, rfl, by decide⟩

theorem run_agrees_timesOut :
    Controller.pair.Consistent ∧ Controller.pair.hasWOReplica = false ∧ twoEmpty.Agree
      ∧ twoEmpty.Steady [timesOut] ∧ ∃ w', twoEmpty.run ([timesOut].take 1) = some w' ∧ w'.Agree :=
  have hwo : Controller.pair.hasWOReplica = false := by decide
  have ha : twoEmpty.Agree := fun _ _ _ _ _ _ _ _ _ _ _ _ => rfl
  have hs : twoEmpty.Steady [timesOut] := ⟨sound_timesOut, fun _ _ _ _ => trivial⟩
  ⟨Controller.consistent_pair, hwo, ha, hs, run_agrees Controller.consistent_pair hwo ha hs 1⟩

/-- A write for which the first replica has room for one byte and the second for none. -/
def outOfSpace : Write Nat where
  order := .listed
  buf := [1, 1]
  off := 0
  seq := 1
  outcome b := .noSpace (.other (text "write volume-head-000.img: no space left on device"))
    (if b = 1 then 1 else 0)

/--
Both replicas run out of space, one of them a byte later than the other. The counts
do not arrive, so both stay RW, and from then on they differ.
-/
theorem run_diverges :
    twoEmpty.Agree ∧ ∃ w', twoEmpty.run [outOfSpace] = some w'
      ∧ w'.ctl.replicas = [⟨"a", .RW⟩, ⟨"b", .RW⟩] ∧ ¬ w'.Agree := by
  have hrun : (twoEmpty.run [outOfSpace]).map (fun w => (w.ctl.replicas, w.ctl.handle "a",
      w.ctl.handle "b", w.ctl.size, w.disk 1 0, w.disk 2 0))
      = some ([⟨"a", .RW⟩, ⟨"b", .RW⟩], some 1, some 2, 8192, 1, 0) := by
    decide
  obtain ⟨w', hw, hval⟩ := Option.map_eq_some_iff.mp hrun
  simp only [Prod.mk.injEq] at hval
  obtain ⟨hrep, h1, h2, hsize, hd1, hd2⟩ := hval
  refine ⟨fun _ _ _ _ _ _ _ _ _ _ _ _ => rfl, w', hw, hrep, fun hag => ?_⟩
  have h := hag ⟨"a", .RW⟩ (by rw [hrep]; simp) ⟨"b", .RW⟩ (by rw [hrep]; simp) rfl rfl 1 2 h1 h2 0
    (by rw [hsize]; decide)
  rw [hd1, hd2] at h
  exact absurd h (by decide)

end World

end WeftBlock
