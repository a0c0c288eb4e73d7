import Mathlib.Data.List.Nodup
import Mathlib.Data.Finset.Card
import Mathlib.Logic.Function.Basic

/-!
# Forests given by parents

A forest is a partial map from a node to its parent, where the parents of the top
nodes are one value `root` that is no node. `Path root par x l` says that following
the parents from `x` to the root visits `l`, and a map is `Rooted` if there is such a
path from every node. Three edits keep a forest rooted, and each says what becomes of
the paths: a new leaf, a leaf less, and a node taken out with its children handed to
its parent.
-/

namespace WeftBlock

namespace Forest

variable {κ : Type} {root : κ} {par par' : κ → Option κ}

/-- Following the parents from a node to the root visits `l`. -/
inductive Path (root : κ) (par : κ → Option κ) : κ → List κ → Prop
  | nil : Path root par root []
  | cons {x y : κ} {l : List κ} : x ≠ root → par x = some y → Path root par y l →
      Path root par x (x :: l)

/-- Every node has a path to the root, and the root is no node. -/
structure Rooted (root : κ) (par : κ → Option κ) : Prop where
  root_none : par root = none
  path : ∀ {x y}, par x = some y → ∃ l, Path root par x l

/-! ## Paths -/

namespace Path

variable {x z : κ} {l l' : List κ}

section

variable (h : Path root par x l)
include h

theorem unique : ∀ {l'}, Path root par x l' → l = l' := by
  induction h with
  | nil =>
    intro l' h'
    cases h' with
    | nil => rfl
    | cons hne _ _ => exact absurd rfl hne
  | cons hne hp _ ih =>
    intro l' h'
    cases h' with
    | nil => exact absurd rfl hne
    | cons _ hp' ht =>
      rw [hp] at hp'
      cases Option.some.inj hp'
      rw [ih ht]

theorem congr (hpar : ∀ y ∈ l, par' y = par y) : Path root par' x l := by
  induction h with
  | nil => exact .nil
  | cons hne hp _ ih =>
    exact .cons hne (by rw [hpar _ List.mem_cons_self]; exact hp)
      (ih (fun y hy => hpar y (List.mem_cons_of_mem _ hy)))

/-- Every node of a path has a path of its own, the rest of this one. -/
theorem suffix {y : κ} (hy : y ∈ l) : ∃ u v, l = u ++ y :: v ∧ Path root par y (y :: v) := by
  induction h with
  | nil => simp at hy
  | cons hne hp ht ih =>
    rcases List.mem_cons.mp hy with rfl | hy
    · exact ⟨[], _, rfl, .cons hne hp ht⟩
    · obtain ⟨u, v, rfl, hv⟩ := ih hy
      exact ⟨_ :: u, v, rfl, hv⟩

/-- A path comes back to none of its nodes. -/
theorem nodup : l.Nodup := by
  induction h with
  | nil => exact List.nodup_nil
  | cons hne hp ht ih =>
    refine List.nodup_cons.mpr ⟨fun hmem => ?_, ih⟩
    obtain ⟨u, v, rfl, hv⟩ := ht.suffix hmem
    -- the path would be longer than itself
    have hlen := congrArg List.length (hv.unique (.cons hne hp ht))
    simp only [List.length_cons, List.length_append] at hlen
    omega

theorem mem_node {y : κ} (hy : y ∈ l) : ∃ z, par y = some z := by
  obtain ⟨_, _, _, hv⟩ := h.suffix hy
  cases hv with
  | cons _ hp _ => exact ⟨_, hp⟩

/-- What follows a node on a path is the path of its parent. -/
theorem parent (hp : par x = some z) (hne : x ≠ root) :
    ∃ v, l = x :: v ∧ Path root par z v := by
  cases h with
  | nil => exact absurd rfl hne
  | cons _ hp' ht =>
    rw [hp] at hp'
    cases Option.some.inj hp'
    exact ⟨_, rfl, ht⟩

/-- With a node, its parent is on the path. -/
theorem mem_parent {y : κ} (hy : y ∈ l) (hp : par y = some z) (hz : z ≠ root) : z ∈ l := by
  induction h with
  | nil => simp at hy
  | cons hne hpx ht ih =>
    rcases List.mem_cons.mp hy with rfl | hy
    · rw [hp] at hpx
      cases Option.some.inj hpx
      cases ht with
      | nil => exact absurd rfl hz
      | cons _ _ _ => simp
    · exact List.mem_cons_of_mem _ (ih hy)

/-- A path that starts elsewhere comes to a node from a child of it. -/
theorem from_child (hz : z ∈ l) (hx : x ≠ z) :
    ∃ u c v, l = u ++ c :: z :: v ∧ par c = some z ∧ Path root par z (z :: v) := by
  induction h with
  | nil => simp at hz
  | @cons x y l hne hp ht ih =>
    have hz' : z ∈ l := (List.mem_cons.mp hz).resolve_left hx.symm
    by_cases hy : y = z
    · subst hy
      cases ht with
      | nil => simp at hz'
      | cons h1 h2 h3 => exact ⟨[], x, _, rfl, hp, .cons h1 h2 h3⟩
    · obtain ⟨u, c, v, rfl, hc, hv⟩ := ih hz' hy
      exact ⟨x :: u, c, v, rfl, hc, hv⟩

/-- So it does not meet a leaf. -/
theorem not_mem_leaf (hleaf : ∀ y, par y ≠ some z) (hx : x ≠ z) : z ∉ l := by
  intro hz
  obtain ⟨_, c, _, _, hc, _⟩ := h.from_child hz hx
  exact hleaf c hc

end

end Path

theorem ne_of_node {x y z : κ} (hx : par x = some y) (hz : par z = none) : x ≠ z := by
  rintro rfl
  rw [hx] at hz
  simp at hz

namespace Rooted

variable {x y z : κ} (h : Rooted root par)
include h

theorem ne_root (hx : par x = some y) : x ≠ root := ne_of_node hx h.root_none

theorem path_parent (hx : par x = some y) : ∃ l, Path root par x (x :: l) ∧ Path root par y l := by
  obtain ⟨l, hl⟩ := h.path hx
  obtain ⟨v, rfl, hv⟩ := hl.parent hx (h.ne_root hx)
  exact ⟨v, hl, hv⟩

theorem parent_ne_self : par x ≠ some x := by
  intro hx
  obtain ⟨l, hl, hl'⟩ := h.path_parent hx
  exact absurd (congrArg List.length (hl.unique hl')) (by simp)

/-- What is no node is no node's parent. -/
theorem parent_ne_of_none (hz : par z = none) (hne : z ≠ root) : par x ≠ some z := by
  intro hx
  obtain ⟨l, -, hl⟩ := h.path_parent hx
  cases hl with
  | nil => exact hne rfl
  | cons _ hq _ => exact absurd (hz.symm.trans hq) (by simp)

end Rooted

/-! ## Edits -/

variable [DecidableEq κ]

/-- A new leaf. -/
def insertLeaf (par : κ → Option κ) (z y : κ) : κ → Option κ := Function.update par z (some y)

/-- A leaf less. -/
def dropLeaf (par : κ → Option κ) (z : κ) : κ → Option κ := Function.update par z none

/-- A node less, whose children go to its parent. -/
def splice (par : κ → Option κ) (z : κ) : κ → Option κ := fun x =>
  if x = z then none else if par x = some z then par z else par x

variable {x z y w : κ} {l : List κ}

theorem insertLeaf_eq_some :
    insertLeaf par z y x = some w ↔ x = z ∧ y = w ∨ x ≠ z ∧ par x = some w := by
  rw [insertLeaf, Function.update_apply]
  split <;> simp [*]

theorem dropLeaf_eq_some : dropLeaf par z x = some w ↔ x ≠ z ∧ par x = some w := by
  rw [dropLeaf, Function.update_apply]
  split <;> simp [*]

theorem splice_eq_some : splice par z x = some w
    ↔ x ≠ z ∧ (par x = some z ∧ par z = some w ∨ par x ≠ some z ∧ par x = some w) := by
  rw [splice]
  split_ifs <;> simp [*]

theorem Path.insertLeaf (h : Path root par x l) (hz : par z = none) :
    Path root (insertLeaf par z y) x l := by
  refine h.congr (fun w hw => Function.update_of_ne ?_ _ _)
  rintro rfl
  obtain ⟨v, hv⟩ := h.mem_node hw
  exact absurd (hz.symm.trans hv) (by simp)

theorem Path.insertLeaf_self (h : Path root par y l) (hz : par z = none) (hne : z ≠ root) :
    Path root (Forest.insertLeaf par z y) z (z :: l) :=
  .cons hne (Function.update_self _ _ _) (h.insertLeaf hz)

theorem Path.dropLeaf (h : Path root par x l) (hleaf : ∀ y, par y ≠ some z) (hx : x ≠ z) :
    Path root (dropLeaf par z) x l := by
  refine h.congr (fun w hw => Function.update_of_ne ?_ _ _)
  rintro rfl
  exact h.not_mem_leaf hleaf hx hw

/-- A spliced node leaves every path it was on. -/
theorem Path.splice (h : Path root par x l) (hz : par z = some y) (hne : z ≠ root)
    (hx : x ≠ z) : Path root (splice par z) x (l.erase z) := by
  induction h with
  | nil => exact .nil
  | @cons x p l hxne hp ht ih =>
    rw [List.erase_cons_tail (by simpa using hx)]
    by_cases hpz : p = z
    · -- a child of the node: its path goes on with the node's parent
      subst hpz
      obtain ⟨v, rfl, hv⟩ := ht.parent hz hne
      rw [List.erase_cons_head]
      refine .cons hxne (show Forest.splice par p x = some y from ?_) (hv.congr (fun w hw => ?_))
      · rw [Forest.splice, if_neg hx, if_pos hp, hz]
      · have hnodup := List.nodup_cons.mp ht.nodup
        rw [Forest.splice, if_neg (by rintro rfl; exact hnodup.1 hw),
          if_neg (fun hpw => hnodup.1 (hv.mem_parent hw hpw hne))]
    · refine .cons hxne (show Forest.splice par z x = some p from ?_) (ih hpz)
      rw [Forest.splice, if_neg hx, if_neg (by rw [hp]; simpa using hpz), hp]

namespace Rooted

theorem insertLeaf (h : Rooted root par) (hz : par z = none) (hne : z ≠ root)
    (hy : ∃ l, Path root par y l) : Rooted root (insertLeaf par z y) where
  root_none := by rw [Forest.insertLeaf, Function.update_of_ne (Ne.symm hne), h.root_none]
  path := by
    intro x w hw
    rcases insertLeaf_eq_some.mp hw with ⟨rfl, -⟩ | ⟨-, hw⟩
    · obtain ⟨l, hl⟩ := hy
      exact ⟨_, hl.insertLeaf_self hz hne⟩
    · obtain ⟨l, hl⟩ := h.path hw
      exact ⟨l, hl.insertLeaf hz⟩

theorem dropLeaf (h : Rooted root par) (hleaf : ∀ y, par y ≠ some z) :
    Rooted root (dropLeaf par z) where
  root_none := by simp [Forest.dropLeaf, Function.update_apply, h.root_none]
  path := by
    intro x w hw
    obtain ⟨hx, hw⟩ := dropLeaf_eq_some.mp hw
    obtain ⟨l, hl⟩ := h.path hw
    exact ⟨l, hl.dropLeaf hleaf hx⟩

theorem splice (h : Rooted root par) (hz : par z = some y) : Rooted root (splice par z) where
  root_none := by
    rw [Forest.splice, if_neg (h.ne_root hz).symm, h.root_none]
    exact if_neg (by simp)
  path := by
    intro x w hw
    obtain ⟨hx, hor⟩ := splice_eq_some.mp hw
    obtain ⟨l, hl⟩ := hor.elim (fun hp => h.path hp.1) (fun hp => h.path hp.2)
    exact ⟨l.erase z, hl.splice hz (h.ne_root hz) hx⟩

end Rooted

/-! ## Children -/

/-- The children of `x` are among those it had, but for one in the place of another. -/
def Regrafts (par par' : κ → Option κ) (x : κ) : Prop :=
  (∀ y, par' y = some x → par y = some x) ∨
    ∃ c c₀, par c₀ = some x ∧ par' c₀ ≠ some x ∧ ∀ y, par' y = some x → y = c ∨ par y = some x

theorem Regrafts.dropLeaf (par : κ → Option κ) (z x : κ) : Regrafts par (dropLeaf par z) x :=
  Or.inl (fun _ hy => (dropLeaf_eq_some.mp hy).2)

/-- Only the parent of a spliced node gets a child, and loses the node. -/
theorem Regrafts.splice {c : κ} (honly : ∀ y, par y = some z → y = c) (x : κ) :
    Regrafts par (splice par z) x := by
  have hcases : ∀ y, Forest.splice par z y = some x → (y = c ∧ par z = some x) ∨ par y = some x := by
    intro y hy
    rcases (splice_eq_some.mp hy).2 with ⟨hyz, hz⟩ | ⟨-, hy⟩
    · exact Or.inl ⟨honly y hyz, hz⟩
    · exact Or.inr hy
  by_cases hz : par z = some x
  · refine Or.inr ⟨c, z, hz, ?_, fun y hy => (hcases y hy).imp_left And.left⟩
    rw [Forest.splice, if_pos rfl]
    simp
  · exact Or.inl (fun y hy => (hcases y hy).resolve_left (fun h => hz h.2))

/-- So there are no more of them, and a new one stands for one that is gone. -/
theorem Regrafts.children {par' : κ → Option κ} (h : Regrafts par par' x) {s s' : Finset κ}
    (hs : ∀ y, y ∈ s ↔ par y = some x) (hs' : ∀ y, y ∈ s' ↔ par' y = some x) :
    s'.card ≤ s.card ∧ ∀ c ∈ s', c ∉ s → ∃ c₀ ∈ s, c₀ ∉ s' := by
  rcases h with hsub | ⟨c, c₀, hold, hgone, hnew⟩
  · have hle : s' ⊆ s := fun y hy => (hs y).mpr (hsub y ((hs' y).mp hy))
    exact ⟨Finset.card_le_card hle, fun c hc hnc => absurd (hle hc) hnc⟩
  · have hc₀ : c₀ ∈ s := (hs c₀).mpr hold
    have hc₀' : c₀ ∉ s' := fun hmem => hgone ((hs' c₀).mp hmem)
    refine ⟨?_, fun _ _ _ => ⟨c₀, hc₀, hc₀'⟩⟩
    have hle : s' ⊆ insert c (s.erase c₀) := by
      intro y hy
      rcases hnew y ((hs' y).mp hy) with rfl | hp
      · exact Finset.mem_insert_self _ _
      · refine Finset.mem_insert_of_mem (Finset.mem_erase.mpr ⟨?_, (hs y).mpr hp⟩)
        rintro rfl
        exact hc₀' hy
    calc s'.card ≤ (insert c (s.erase c₀)).card := Finset.card_le_card hle
      _ ≤ (s.erase c₀).card + 1 := Finset.card_insert_le _ _
      _ = s.card := Finset.card_erase_add_one hc₀

end Forest

end WeftBlock
