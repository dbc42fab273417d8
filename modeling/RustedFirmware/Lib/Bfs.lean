import Mathlib

set_option autoImplicit false

/-! Forests numbered in breadth-first order, given by the number of children of each node.

    A list `t` describes a forest level by level: `t[0]` counts the roots and `t[n + 1]` the
    children of node `n`, the nodes being numbered in breadth-first order. Entry `k` then counts
    the nodes `start t k ..< start t (k + 1)`, where `start t k` sums the first `k` entries: the
    parent of a node is the node before the entry that counts it. Children of consecutive nodes
    are consecutive, so the children of the nodes `a ..< b` are the nodes
    `start t (a + 1) ..< start t (b + 1)`; level `j` holds the nodes
    `levelStart t j ..< levelStart t (j + 1)`, and the nodes `d` levels below a node form an
    interval of level `j + d` (`below`). -/

namespace Bfs

variable (t : List Nat)

/-- The number of nodes the first `k` entries count: the first node that entry `k` counts. -/
def start (k : Nat) : Nat := (t.take k).sum

/-- Node `g` is counted by entry `k`: a root for `k = 0`, else a child of node `k - 1`. -/
def CountedBy (g k : Nat) : Prop := start t k ≤ g ∧ g < start t (k + 1)

/-- The first node of each level; level 0 holds the roots. -/
def levelStart : Nat → Nat
  | 0 => 0
  | j + 1 => start t (levelStart j + 1)

/-- The nodes of level `j`. -/
def level (j : Nat) : Set Nat := Set.Ico (levelStart t j) (levelStart t (j + 1))

/-- The first entry that counts nodes of level `j`: entry 0 counts the roots, the entries after
    node `n` the children of the nodes up to `n`. -/
def levelEntry : Nat → Nat
  | 0 => 0
  | j + 1 => levelStart t j + 1

/-- The node whose children entry `k` counts; none for the roots. -/
def entryParent : Nat → Option Nat
  | 0 => none
  | k + 1 => some k

/-- The children of the nodes `r.1 ..< r.2`. -/
def children (r : Nat × Nat) : Nat × Nat := (start t (r.1 + 1), start t (r.2 + 1))

/-- The nodes `d` levels below the nodes `r.1 ..< r.2`. -/
def below : Nat → Nat × Nat → Nat × Nat
  | 0, r => r
  | d + 1, r => children t (below d r)

variable {t}

/-! ### Prefix sums -/

theorem start_le_succ (k : Nat) : start t k ≤ start t (k + 1) := by
  simp only [start, List.take_add_one, List.sum_append]
  omega

theorem start_mono : Monotone (start t) := monotone_nat_of_le_succ start_le_succ

theorem lt_of_start_lt {a b : Nat} (h : start t a < start t b) : a < b := by
  by_contra hba
  exact absurd (start_mono (not_lt.mp hba)) (not_le.mpr h)

theorem start_le_sum (k : Nat) : start t k ≤ t.sum := by
  have h := List.sum_take_add_sum_drop t k
  unfold start
  omega

theorem start_length : start t t.length = t.sum := by
  rw [start, List.take_length]

theorem start_succ {k : Nat} (hk : k < t.length) : start t (k + 1) = start t k + t[k] := by
  simp only [start, List.take_add_one, List.getElem?_eq_getElem hk, Option.toList_some,
    List.sum_append, List.sum_singleton]

/-! ### The entry that counts a node -/

theorem CountedBy.unique {g k k' : Nat} (h : CountedBy t g k) (h' : CountedBy t g k') :
    k = k' := by
  obtain ⟨hlo, hhi⟩ := h
  obtain ⟨hlo', hhi'⟩ := h'
  have h₁ : k < k' + 1 := lt_of_start_lt (lt_of_le_of_lt hlo hhi')
  have h₂ : k' < k + 1 := lt_of_start_lt (lt_of_le_of_lt hlo' hhi)
  omega

/-- Every node of the forest is counted by some entry. -/
theorem exists_countedBy {g : Nat} (hg : g < t.sum) : ∃ k, CountedBy t g k := by
  have hall : start t (t.length + 1) = t.sum := by
    rw [start, List.take_of_length_le (Nat.le_succ t.length)]
  have hex : ∃ k, g < start t (k + 1) := ⟨t.length, hall ▸ hg⟩
  refine ⟨Nat.find hex, ?_, Nat.find_spec hex⟩
  cases hfind : Nat.find hex with
  | zero => exact Nat.zero_le g
  | succ k =>
    have hmin := Nat.find_min hex (m := k) (by omega)
    exact not_lt.mp hmin

/-- The nodes counted by the entries `a ..< b` are the nodes `start t a ..< start t b`. -/
theorem start_le_lt_iff {a b g : Nat} (hb : start t b ≤ t.sum) :
    start t a ≤ g ∧ g < start t b ↔ ∃ k, a ≤ k ∧ k < b ∧ CountedBy t g k := by
  constructor
  · rintro ⟨hlo, hhi⟩
    obtain ⟨k, hk⟩ := exists_countedBy (lt_of_lt_of_le hhi hb)
    have h₁ : a < k + 1 := lt_of_start_lt (lt_of_le_of_lt hlo hk.2)
    have h₂ : k < b := lt_of_start_lt (lt_of_le_of_lt hk.1 hhi)
    exact ⟨k, by omega, h₂, hk⟩
  · rintro ⟨k, hak, hkb, hlo, hhi⟩
    exact ⟨(start_mono hak).trans hlo, lt_of_lt_of_le hhi (start_mono (by omega))⟩

/-- The children of the nodes `r.1 ..< r.2` are the nodes counted by their entries. -/
theorem mem_children_iff {r : Nat × Nat} {g : Nat} :
    g ∈ Set.Ico (children t r).1 (children t r).2 ↔
      ∃ k ∈ Set.Ico r.1 r.2, CountedBy t g (k + 1) := by
  rw [Set.mem_Ico, children, start_le_lt_iff (start_le_sum _)]
  constructor
  · rintro ⟨q, hq, hqb, hcount⟩
    obtain ⟨k, rfl⟩ : ∃ k, q = k + 1 := ⟨q - 1, by omega⟩
    exact ⟨k, ⟨by omega, by omega⟩, hcount⟩
  · rintro ⟨k, ⟨hk, hkb⟩, hcount⟩
    exact ⟨k + 1, by omega, by omega, hcount⟩

theorem mem_below_succ_iff {d : Nat} {r : Nat × Nat} {g : Nat} :
    g ∈ Set.Ico (below t (d + 1) r).1 (below t (d + 1) r).2 ↔
      ∃ k ∈ Set.Ico (below t d r).1 (below t d r).2, CountedBy t g (k + 1) :=
  mem_children_iff

/-! ### Levels -/

theorem levelStart_le_succ (j : Nat) : levelStart t j ≤ levelStart t (j + 1) := by
  induction j with
  | zero => exact Nat.zero_le _
  | succ j ih => exact start_mono (Nat.succ_le_succ ih)

theorem levelStart_mono : Monotone (levelStart t) := monotone_nat_of_le_succ levelStart_le_succ

/-- The entries from `levelEntry j` on count the nodes from `levelStart j` on. -/
theorem start_levelEntry : ∀ j, start t (levelEntry t j) = levelStart t j
  | 0 => rfl
  | _ + 1 => rfl

theorem levelEntry_le_succ : ∀ j, levelEntry t j ≤ levelEntry t (j + 1)
  | 0 => Nat.zero_le _
  | j + 1 => Nat.succ_le_succ (levelStart_le_succ j)

theorem levelEntry_mono : Monotone (levelEntry t) := monotone_nat_of_le_succ levelEntry_le_succ

/-- The entries that count level `j + 1` are as many as the nodes of level `j`. -/
theorem levelEntry_succ_sub (j : Nat) :
    levelEntry t (j + 2) - levelEntry t (j + 1) = levelStart t (j + 1) - levelStart t j := by
  cases j with
  | zero => simp [levelEntry, levelStart, start]
  | succ j => exact Nat.add_sub_add_right _ 1 _

/-- A node lies in one level at most. -/
theorem level_unique {g i j : Nat} (hi : g ∈ level t i) (hj : g ∈ level t j) : i = j := by
  rcases Nat.lt_trichotomy i j with hij | rfl | hij
  · exact absurd (lt_of_lt_of_le hi.2 ((levelStart_mono hij).trans hj.1)) (lt_irrefl g)
  · rfl
  · exact absurd (lt_of_lt_of_le hj.2 ((levelStart_mono hij).trans hi.1)) (lt_irrefl g)

/-- The nodes before the start of level `J` lie in the levels before it. -/
theorem exists_level {J g : Nat} (hg : g < levelStart t J) : ∃ j < J, g ∈ level t j := by
  induction J with
  | zero => exact absurd hg (Nat.not_lt_zero g)
  | succ J ih =>
    by_cases hlow : g < levelStart t J
    · obtain ⟨j, hj, hmem⟩ := ih hlow
      exact ⟨j, by omega, hmem⟩
    · exact ⟨J, by omega, not_lt.mp hlow, hg⟩

theorem countedBy_zero_iff {g : Nat} : CountedBy t g 0 ↔ g ∈ level t 0 := by
  simp [CountedBy, level, levelStart, start]

/-- The parent of a node of level `j + 1` is a node of level `j`. -/
theorem CountedBy.parent_mem_level {g k j : Nat} (hg : g ∈ level t (j + 1))
    (hk : CountedBy t g (k + 1)) : k ∈ level t j := by
  obtain ⟨hlo, hhi⟩ := hg
  obtain ⟨hklo, hkhi⟩ := hk
  have h₁ : levelStart t j + 1 < k + 2 := lt_of_start_lt (lt_of_le_of_lt hlo hkhi)
  have h₂ : k + 1 < levelStart t (j + 1) + 1 := lt_of_start_lt (lt_of_le_of_lt hklo hhi)
  exact ⟨by omega, by omega⟩

/-- A node with a parent is not a root: its parent lies one level above it. -/
theorem CountedBy.mem_level_pred {g k j : Nat} (hg : g ∈ level t j) (hk : CountedBy t g (k + 1)) :
    ∃ j', j = j' + 1 ∧ k ∈ level t j' := by
  cases j with
  | zero => exact absurd (hk.unique (countedBy_zero_iff.mpr hg)) (Nat.succ_ne_zero k)
  | succ j => exact ⟨j, rfl, hk.parent_mem_level hg⟩

/-- The children of a node of level `j` are nodes of level `j + 1`. -/
theorem CountedBy.mem_level_succ {g k j : Nat} (hk : k ∈ level t j)
    (hcount : CountedBy t g (k + 1)) : g ∈ level t (j + 1) :=
  ⟨(start_mono (Nat.succ_le_succ hk.1)).trans hcount.1,
    lt_of_lt_of_le hcount.2 (start_mono (Nat.succ_le_succ hk.2))⟩

/-- A parent comes before its children. -/
theorem CountedBy.lt_of_mem_level {g k j : Nat} (hg : g ∈ level t (j + 1))
    (hk : CountedBy t g (k + 1)) : k < g :=
  lt_of_lt_of_le (hk.parent_mem_level hg).2 hg.1

/-- The nodes of a level are nodes of the forest. -/
theorem lt_sum_of_mem_level {g j : Nat} (hg : g ∈ level t j) : g < t.sum :=
  lt_of_lt_of_le hg.2 (start_le_sum _)

/-- A node past the roots has a parent. -/
theorem exists_parent {g j : Nat} (hg : g ∈ level t (j + 1)) : ∃ k, CountedBy t g (k + 1) := by
  obtain ⟨q, hq⟩ := exists_countedBy (lt_sum_of_mem_level hg)
  cases q with
  | zero =>
    have h0 := level_unique (countedBy_zero_iff.mp hq) hg
    omega
  | succ k => exact ⟨k, hq⟩

/-- A node of level `j` has an ancestor in each level above it, all with smaller indices. -/
theorem le_of_mem_level : ∀ {j g : Nat}, g ∈ level t j → j ≤ g
  | 0, _, _ => Nat.zero_le _
  | j + 1, g, hg => by
    obtain ⟨k, hk⟩ := exists_parent hg
    have hj : j ≤ k := le_of_mem_level (hk.parent_mem_level hg)
    have hkg : k < g := hk.lt_of_mem_level hg
    omega

/-- A node lies `d + 1` levels below `r` exactly when its parent lies `d` levels below. -/
theorem mem_below_succ_iff_parent {d g k : Nat} {r : Nat × Nat} (hk : CountedBy t g (k + 1)) :
    g ∈ Set.Ico (below t (d + 1) r).1 (below t (d + 1) r).2 ↔
      k ∈ Set.Ico (below t d r).1 (below t d r).2 := by
  rw [mem_below_succ_iff]
  constructor
  · rintro ⟨k', hk', hcount⟩
    obtain rfl : k' = k := Nat.succ_injective (hcount.unique hk)
    exact hk'
  · intro hmem
    exact ⟨k, hmem, hk⟩

/-- The nodes `d` levels below a node of level `j` lie in level `j + d`. -/
theorem below_subset_level {n j : Nat} (hn : n ∈ level t j) :
    ∀ (d g : Nat), g ∈ Set.Ico (below t d (n, n + 1)).1 (below t d (n, n + 1)).2 →
      g ∈ level t (j + d)
  | 0, g, hg => by
    obtain ⟨hlo, hhi⟩ := hg
    obtain rfl : g = n := by simp [below] at hlo hhi; omega
    exact hn
  | d + 1, g, hg => by
    obtain ⟨k, hk, hcount⟩ := mem_below_succ_iff.mp hg
    exact hcount.mem_level_succ (below_subset_level hn d k hk)

end Bfs
