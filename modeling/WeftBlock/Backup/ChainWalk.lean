import WeftBlock.Backup.Driver

/-!
# Walking a chain of backups

`walkBackupChain` of `cmd/weft-block/driver.go` reads sidecars from a backup to the full one that
it goes back to, at most 256 of them. Having read 256 it takes the chain for an endless one,
**also when the last of them was the root**.
-/

namespace WeftBlock.Backup

variable {κ : Type}

/-- `maxChain`. -/
def maxChain : Nat := 256

/-- `chainLink`. -/
abbrev ChainLink (κ : Type) := String × BackupMeta κ

inductive WalkErr
  /-- "walk chain at %s: %w" -/
  | read (url : String)
  /-- "backup chain at %s exceeds %d links" -/
  | exceeds (leafURL : String)

/-- The loop of `walkBackupChain`, for so many more rounds, and how many sidecars it reads. -/
def walkLoop (t : Target κ) : Nat → String → List (ChainLink κ) →
    Nat × Except WalkErr (List (ChainLink κ))
  | 0, _, chain => (0, .ok chain)
  | n + 1, current, chain =>
      if current = "" then (0, .ok chain)
      else
        match readBackupMetaSibling t current with
        | none => (1, .error (.read current))
        | some m =>
          if m.parentURL = "" then (1, .ok (chain ++ [(current, m)]))
          else
            let rest := walkLoop t n m.parentURL (chain ++ [(current, m)])
            (rest.1 + 1, rest.2)

/-- `walkBackupChain`, and how many sidecars it reads. -/
def walkBackupChain (t : Target κ) (leafURL : String) :
    Nat × Except WalkErr (List (ChainLink κ)) :=
  match walkLoop t maxChain leafURL [] with
  | (reads, .error e) => (reads, .error e)
  | (reads, .ok chain) =>
      (reads, if chain.length = maxChain then .error (.exceeds leafURL) else .ok chain.reverse)

/-- The links from a backup to the full one, that one last. -/
inductive Links (t : Target κ) : String → List (ChainLink κ) → Prop
  | root {url : String} {m : BackupMeta κ} (hne : url ≠ "")
      (hread : readBackupMetaSibling t url = some m) (hp : m.parentURL = "") : Links t url [(url, m)]
  | link {url : String} {m : BackupMeta κ} {l : List (ChainLink κ)} (hne : url ≠ "")
      (hread : readBackupMetaSibling t url = some m) (hp : m.parentURL ≠ "")
      (hl : Links t m.parentURL l) : Links t url ((url, m) :: l)

/-- What a walk is to do: a chain that ends in time is returned whole, the root first, any other
one is refused, and no more than 256 sidecars are read. -/
structure WalksWell (t : Target κ) (leafURL : String) : Prop where
  whole : ∀ l, Links t leafURL l → l.length ≤ maxChain →
    (walkBackupChain t leafURL).2 = .ok l.reverse
  refused : leafURL ≠ "" → (∀ l, Links t leafURL l → maxChain < l.length) →
    ∃ e, (walkBackupChain t leafURL).2 = .error e
  reads : (walkBackupChain t leafURL).1 ≤ maxChain

variable {t : Target κ}

theorem walkLoop_links {url : String} {l : List (ChainLink κ)} (h : Links t url l) :
    ∀ n chain, l.length ≤ n → (walkLoop t n url chain).2 = .ok (chain ++ l) := by
  induction h with
  | root hne hread hp =>
    intro n chain hn
    obtain ⟨n, rfl⟩ := Nat.exists_eq_add_of_le' (show 1 ≤ n from hn)
    rw [walkLoop, if_neg hne, hread]
    simp [hp]
  | link hne hread hp hl ih =>
    intro n chain hn
    obtain ⟨n, rfl⟩ := Nat.exists_eq_add_of_le' (Nat.le_trans (Nat.le_add_left 1 _) hn)
    rw [walkLoop, if_neg hne, hread]
    simp only [hp, if_false]
    rw [ih _ _ (Nat.le_of_succ_le_succ hn), List.append_assoc, List.singleton_append]

/-- What the loop returns ends with the root, or is as long as the loop. -/
theorem walkLoop_cases (n : Nat) {url : String} (chain : List (ChainLink κ)) (hne : url ≠ "") :
    (walkLoop t n url chain).1 ≤ n ∧ ∀ c, (walkLoop t n url chain).2 = .ok c →
      (∃ l, Links t url l ∧ l.length ≤ n) ∨ c.length = chain.length + n := by
  induction n generalizing url chain with
  | zero =>
    refine ⟨Nat.le_refl 0, fun c hc => Or.inr ?_⟩
    rw [← Except.ok.inj hc, Nat.add_zero]
  | succ n ih =>
    rw [walkLoop, if_neg hne]
    cases hread : readBackupMetaSibling t url with
    | none => exact ⟨Nat.le_add_left 1 n, fun c hc => by simp at hc⟩
    | some m =>
      by_cases hp : m.parentURL = ""
      · simp only [hp, if_true]
        exact ⟨Nat.le_add_left 1 n, fun c _ => Or.inl ⟨_, .root hne hread hp, Nat.le_add_left 1 n⟩⟩
      · obtain ⟨hreads, hc⟩ := ih (chain ++ [(url, m)]) hp
        simp only [hp, if_false]
        refine ⟨Nat.succ_le_succ hreads, fun c hok => ?_⟩
        rcases hc c hok with ⟨l, hl, hlen⟩ | hlen
        · exact Or.inl ⟨_, .link hne hread hp hl, Nat.succ_le_succ hlen⟩
        · right
          rw [hlen, List.length_append, List.length_singleton]
          omega

/-- What is returned of a chain that ends in time. -/
theorem walkBackupChain_links {leafURL : String} {l : List (ChainLink κ)} (hl : Links t leafURL l)
    (hlen : l.length ≤ maxChain) : (walkBackupChain t leafURL).2
      = if l.length = maxChain then .error (.exceeds leafURL) else .ok l.reverse := by
  have h := walkLoop_links hl maxChain [] hlen
  unfold walkBackupChain
  split <;> simp_all

/-- **Chains are walked well unless they have exactly 256 links.** -/
theorem walkBackupChain_well_iff (t : Target κ) (leafURL : String) :
    WalksWell t leafURL ↔ ∀ l, Links t leafURL l → l.length ≠ maxChain := by
  constructor
  · intro h l hl hlen
    have hok := h.whole l hl (Nat.le_of_eq hlen)
    rw [walkBackupChain_links hl (Nat.le_of_eq hlen), if_pos hlen] at hok
    simp at hok
  · intro h
    refine ⟨fun l hl hlen => by rw [walkBackupChain_links hl hlen, if_neg (h l hl)],
      fun hne hlong => ?_, ?_⟩
    · obtain ⟨-, hc⟩ := walkLoop_cases (t := t) maxChain [] hne
      unfold walkBackupChain
      split
      · exact ⟨_, rfl⟩
      · rename_i reads chain hloop
        rcases hc chain (by rw [hloop]) with ⟨l, hl, hlen⟩ | hlen
        · exact absurd (hlong l hl) (Nat.not_lt.mpr hlen)
        · exact ⟨_, if_pos (by rw [hlen]; exact Nat.zero_add _)⟩
    · have hfst : (walkBackupChain t leafURL).1 = (walkLoop t maxChain leafURL []).1 := by
        unfold walkBackupChain
        split <;> simp_all
      rw [hfst]
      by_cases hne : leafURL = ""
      · rw [hne, maxChain, walkLoop, if_pos rfl]
        exact Nat.zero_le _
      · exact (walkLoop_cases _ _ hne).1

/-! ## A chain of 256 links -/

/-- The key of the backup with so many others below it. -/
def nthKey (n : Nat) : String := String.ofList (List.replicate n 'b')

def nthMeta (n : Nat) : BackupMeta Unit :=
  ⟨"s", 0, 0, "", if n = 0 then "" else nthKey (n - 1) ++ ".bin", none, []⟩

/-- A full backup and incremental ones on top of it. -/
def incrementals : Nat → Target Unit
  | 0 => ∅
  | n + 1 => (incrementals n).insert (nthKey n ++ ".json") (.sidecar (nthMeta n))

theorem read_incrementals {i n : Nat} (h : i < n) :
    readBackupMetaSibling (incrementals n) (nthKey i ++ ".bin") = some (nthMeta i) := by
  rw [readBackupMetaSibling_bin]
  induction n with
  | zero => omega
  | succ n ih =>
    rw [incrementals, Maps.lookup_insert_eq]
    by_cases hi : i = n
    · rw [if_pos (by rw [hi]), hi]
    · rw [if_neg (fun he => hi ?_), ih (by omega)]
      have hlen := congrArg (fun s => s.toList.length) (append_inj_left he)
      simpa [nthKey] using hlen

theorem links_incrementals {n : Nat} : ∀ {i}, i < n →
    ∃ l, Links (incrementals n) (nthKey i ++ ".bin") l ∧ l.length = i + 1
  | 0, h => ⟨_, .root (bin_ne_empty _) (read_incrementals h) rfl, rfl⟩
  | i + 1, h => by
    obtain ⟨l, hl, hlen⟩ := links_incrementals (Nat.lt_of_succ_lt h)
    exact ⟨_, .link (bin_ne_empty _) (read_incrementals h) (bin_ne_empty _) hl,
      congrArg Nat.succ hlen⟩

/-- One full backup and 255 incremental ones are refused. -/
theorem incrementals_refused : ∃ t : Target Unit, ∃ leafURL l, Links t leafURL l
    ∧ l.length ≤ maxChain ∧ (walkBackupChain t leafURL).2 ≠ .ok l.reverse := by
  obtain ⟨l, hl, hlen⟩ := links_incrementals (n := maxChain) (i := 255) (by decide)
  refine ⟨_, _, l, hl, Nat.le_of_eq hlen, ?_⟩
  rw [walkBackupChain_links hl (Nat.le_of_eq hlen), if_pos (show l.length = maxChain from hlen)]
  simp

end WeftBlock.Backup
