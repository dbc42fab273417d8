import RustedFirmware.Lib.Bfs
import RustedFirmware.Lib.Fold
import RustedFirmware.Psci.Fvp

set_option autoImplicit false

/-! The tree `PowerDomainTree::new` builds (`src/services/psci/power_domain_tree.rs`).

    A well-formed BFS topology describes a forest (`Bfs`): its first entry counts the top nodes
    and each further entry the children of the next non-CPU node, so that the non-CPU nodes fill
    levels `0 ..< MAX_POWER_LEVEL` of the forest from the top and the CPUs its level
    `MAX_POWER_LEVEL`, CPU `c` being the node `NON_CPU_DOMAIN_COUNT + c`.

    The non-CPU loops create the nodes in order; once the nodes `..< g` exist, each has the parent
    its entry names and each `non_cpu_range` holds its children among them (`Created`). The CPU
    loop then assigns the CPUs in order, each to the `cpu_range` of every node of its ancestor
    chain (`CpusAssigned`); as the CPUs below a node are an interval of the forest's last level,
    each range only ever grows at its end. -/

namespace RustedFirmware.Psci

open Rust Bfs

namespace Topology

/-- A topology for `PowerDomainTree::new` with `MAX_POWER_LEVEL` levels of non-CPU nodes (at
    least one: a CPU node is created with its parent), `NON_CPU_DOMAIN_COUNT` of them and
    `CPU_DOMAIN_COUNT` CPUs: the entry of the top level and one entry per non-CPU node, the
    entries that count non-CPU nodes summing to `NON_CPU_DOMAIN_COUNT` and those of the last
    level, which count the CPUs, to `CPU_DOMAIN_COUNT`. -/
structure BfsWellFormed (maxPowerLevel cpuDomainCount nonCpuDomainCount : Nat)
    (topology : List Nat) : Prop where
  maxPowerLevel_pos : 0 < maxPowerLevel
  length_eq : topology.length = nonCpuDomainCount + 1
  nonCpu_sum : (topology.take (levelEntry topology maxPowerLevel)).sum = nonCpuDomainCount
  cpu_sum : (topology.drop (levelEntry topology maxPowerLevel)).sum = cpuDomainCount

/-- The links of a tree that has the shape its BFS topology gives: parents have smaller indices,
    every CPU reaches a top node through exactly `maxPowerLevel` non-CPU nodes, a `cpu_range` holds
    exactly the CPUs below its node and a `non_cpu_range` exactly its node's children, and each
    state array has one entry per index of its range. -/
structure Shaped (T : Topology) : Prop where
  parent_lt : ∀ m < T.nonCpuCount, ∀ n, T.parent m = some n → n < m
  chain_length : ∀ c < T.cpuCount,
    (T.chain (T.maxPowerLevel + 1) (some (T.cpuParent c))).length = T.maxPowerLevel
  ancestor_lt : ∀ c < T.cpuCount, ∀ n ∈ T.ancestors c, n < T.nonCpuCount
  cpuRange_iff : ∀ n < T.nonCpuCount, ∀ c,
    inRange (T.cpuRange n) c = true ↔ c < T.cpuCount ∧ n ∈ T.ancestors c
  nonCpuRange_iff : ∀ n < T.nonCpuCount, ∀ m,
    inRange (T.nonCpuRange n) m = true ↔ m < T.nonCpuCount ∧ T.parent m = some n
  cpuStatesLength_eq : ∀ n < T.nonCpuCount,
    T.cpuStatesLength n = (T.cpuRange n).2 - (T.cpuRange n).1
  nonCpuStatesLength_eq : ∀ n < T.nonCpuCount,
    T.nonCpuStatesLength n = (T.nonCpuRange n).2 - (T.nonCpuRange n).1

theorem inRange_eq_true {r : Nat × Nat} {x : Nat} : inRange r x = true ↔ r.1 ≤ x ∧ x < r.2 := by
  simp [inRange]

/-- `assign_cpu` and `assign_non_cpu` add the next index to a range that holds `lo ..< i`. -/
theorem extendRange_spec {r : Nat × Nat} {lo i : Nat}
    (hr : ∀ m, inRange r m = true ↔ lo ≤ m ∧ m < i) (hlo : lo ≤ i) :
    ∀ m, inRange (extendRange r i) m = true ↔ lo ≤ m ∧ m < i + 1 := by
  intro m
  unfold extendRange
  split_ifs with hne
  -- case nonempty: the range is `lo..i` itself, and grows at its end
  · have h₁ := (hr r.1).mp (inRange_eq_true.mpr ⟨le_rfl, hne⟩)
    have h₂ := (hr (r.2 - 1)).mp (inRange_eq_true.mpr ⟨by omega, by omega⟩)
    have h₃ := inRange_eq_true.mp ((hr lo).mpr ⟨le_rfl, by omega⟩)
    have h₄ := inRange_eq_true.mp ((hr (i - 1)).mpr ⟨by omega, by omega⟩)
    rw [inRange_eq_true]
    omega
  -- case empty: nothing was below `i`, so `lo = i`
  · have hloi : lo = i := by
      by_contra hne'
      have h₁ := inRange_eq_true.mp ((hr lo).mpr ⟨le_rfl, by omega⟩)
      omega
    rw [inRange_eq_true]
    omega

/-! ### What every run of the loops keeps

    Whatever the topology, `assign_cpu` and `assign_non_cpu` push one entry to a node's state
    arrays each time they extend its range, and every `+=` on the parent index stays within
    `NodeIndexInterface::MAX`. -/

/-- Each state array of a node has one entry per index of its range. -/
structure StatesFit (T : Topology) : Prop where
  cpuStatesLength_eq : ∀ n, T.cpuStatesLength n = (T.cpuRange n).2 - (T.cpuRange n).1
  nonCpuStatesLength_eq : ∀ n, T.nonCpuStatesLength n = (T.nonCpuRange n).2 - (T.nonCpuRange n).1

theorem extendRange_size (r : Nat × Nat) (index : Nat) :
    (extendRange r index).2 - (extendRange r index).1 = r.2 - r.1 + 1 := by
  unfold extendRange
  split_ifs <;> dsimp only <;> omega

namespace StatesFit

variable {T : Topology} (h : StatesFit T)
include h

/-- `assign_cpu` of one node. -/
theorem extendCpu (index cpu : Nat) :
    StatesFit { T with
      cpuRange := Function.update T.cpuRange index (extendRange (T.cpuRange index) cpu)
      cpuStatesLength := Function.update T.cpuStatesLength index (T.cpuStatesLength index + 1) } where
  cpuStatesLength_eq n := by
    by_cases hn : n = index
    · subst hn
      simp [extendRange_size, h.cpuStatesLength_eq]
    · simp [hn, h.cpuStatesLength_eq]
  nonCpuStatesLength_eq := h.nonCpuStatesLength_eq

/-- `assign_non_cpu` of one node. -/
theorem extendNonCpu (index child : Nat) :
    StatesFit { T with
      nonCpuRange := Function.update T.nonCpuRange index (extendRange (T.nonCpuRange index) child)
      nonCpuStatesLength :=
        Function.update T.nonCpuStatesLength index (T.nonCpuStatesLength index + 1) } where
  cpuStatesLength_eq := h.cpuStatesLength_eq
  nonCpuStatesLength_eq n := by
    by_cases hn : n = index
    · subst hn
      simp [extendRange_size, h.nonCpuStatesLength_eq]
    · simp [hn, h.nonCpuStatesLength_eq]

end StatesFit

/-- `assign_cpu` of `PowerDomainTree` extends the ranges of the nodes it walks up through. -/
theorem assignCpu_keeps (cpu : Nat) : ∀ (fuel index : Nat) (T T' : Topology),
    T.assignCpu cpu fuel index = .ok T' → StatesFit T → StatesFit T'
  | 0, _, T, T', h, hT => by
    cases h
    exact hT
  | fuel + 1, index, T, T', h, hT => by
    by_cases hindex : index < T.nonCpuCount
    · cases hpar : T.parent index with
      | none =>
        simp only [assignCpu, hindex, if_true, hpar] at h
        cases h
        exact hT.extendCpu index cpu
      | some p =>
        simp only [assignCpu, hindex, if_true, hpar] at h
        exact assignCpu_keeps cpu fuel p _ T' h (hT.extendCpu index cpu)
    · rw [assignCpu, if_neg hindex] at h
      cases h

section Runs

variable {topology : List Nat} {nonCpuDomainCount nodeIndexMax : Nat}

theorem createChildren_keeps {T T' : Topology} {nodeIndex parentNodeIndex nodeIndex' childCount : Nat}
    {parentNode : Option Nat}
    (h : createChildren topology nonCpuDomainCount T nodeIndex parentNodeIndex parentNode =
      .ok (T', nodeIndex', childCount))
    (hT : StatesFit T) : StatesFit T' := by
  unfold createChildren at h
  obtain ⟨_, -, h⟩ := bind_eq_ok.mp h
  cases h
  -- each created node gets its parent, which extends its range of children
  cases parentNode with
  | none =>
    exact Loop.foldl_range'_inv (fun _ T => StatesFit T)
      (fun _ _ T hT => ⟨hT.cpuStatesLength_eq, hT.nonCpuStatesLength_eq⟩) hT
  | some p =>
    refine Loop.foldl_range'_inv (fun _ T => StatesFit T) (fun i _ T hT => ?_) hT
    have hparent : StatesFit { T with parent := Function.update T.parent (nodeIndex + i) (some p) } :=
      ⟨hT.cpuStatesLength_eq, hT.nonCpuStatesLength_eq⟩
    exact hparent.extendNonCpu p (nodeIndex + i)

theorem levelLoop_keeps : ∀ {k : Nat} {T T' : Topology} {nodeIndex parentNodeIndex nodeIndex'
    parentNodeIndex' next next' : Nat} {parentNode parentNode' : Option Nat},
    levelLoop topology nonCpuDomainCount nodeIndexMax k T nodeIndex parentNodeIndex parentNode next =
      .ok (T', nodeIndex', parentNodeIndex', parentNode', next') →
    StatesFit T → parentNodeIndex ≤ nodeIndexMax →
    StatesFit T' ∧ parentNodeIndex' ≤ nodeIndexMax
  | 0, _, _, _, _, _, _, _, _, _, _, h, hT, hp => by
    cases h
    exact ⟨hT, hp⟩
  | k + 1, _, _, _, _, _, _, _, _, _, _, h, hT, _ => by
    obtain ⟨⟨T₁, _, _⟩, hcreate, h⟩ := bind_eq_ok.mp h
    obtain ⟨_, -, h⟩ := bind_eq_ok.mp h
    obtain ⟨_, hadd, h⟩ := bind_eq_ok.mp h
    obtain ⟨hle, rfl⟩ := NodeIndex.add_eq_ok.mp hadd
    exact levelLoop_keeps h (createChildren_keeps hcreate hT) hle

theorem nonCpuLoop_keeps : ∀ {levels : Nat} {T T' : Topology} {nodeIndex nodeCount
    parentNodeIndex nodeIndex' parentNodeIndex' : Nat} {parentNode : Option Nat},
    nonCpuLoop topology nonCpuDomainCount nodeIndexMax levels T nodeIndex nodeCount parentNodeIndex
      parentNode = .ok (T', nodeIndex', parentNodeIndex') →
    StatesFit T → parentNodeIndex ≤ nodeIndexMax →
    StatesFit T' ∧ parentNodeIndex' ≤ nodeIndexMax
  | 0, _, _, _, _, _, _, _, _, h, hT, hp => by
    cases h
    exact ⟨hT, hp⟩
  | levels + 1, _, _, _, _, _, _, _, _, h, hT, hp => by
    obtain ⟨⟨T₁, _, _, _, _⟩, hlevel, h⟩ := bind_eq_ok.mp h
    obtain ⟨hT₁, hp₁⟩ := levelLoop_keeps hlevel hT hp
    exact nonCpuLoop_keeps h hT₁ hp₁

/-- Every entry the CPU loop reads moves the parent index by one. -/
theorem cpuLoop_keeps {cpuDomainCount : Nat} : ∀ {l : List Nat} {T T' : Topology}
    {parentNodeIndex nextCpu cpuCount : Nat},
    cpuLoop cpuDomainCount nodeIndexMax l T parentNodeIndex nextCpu = .ok (T', cpuCount) →
    StatesFit T → parentNodeIndex ≤ nodeIndexMax →
    StatesFit T' ∧ parentNodeIndex + l.length ≤ nodeIndexMax
  | [], _, _, _, _, _, h, hT, hp => by
    cases h
    exact ⟨hT, hp⟩
  | _ :: rest, _, _, _, _, _, h, hT, _ => by
    obtain ⟨T₁, hfold, h⟩ := bind_eq_ok.mp h
    obtain ⟨_, hadd, h⟩ := bind_eq_ok.mp h
    obtain ⟨hle, rfl⟩ := NodeIndex.add_eq_ok.mp hadd
    have hT₁ : StatesFit T₁ := Loop.foldlM_inv StatesFit (fun T cpu T' hstep hT => by
      obtain ⟨parent, -, hstep⟩ := bind_eq_ok.mp hstep
      exact assignCpu_keeps cpu _ _ _ _ hstep ⟨hT.cpuStatesLength_eq, hT.nonCpuStatesLength_eq⟩)
      hfold hT
    obtain ⟨hT', hlen⟩ := cpuLoop_keeps h hT₁ hle
    refine ⟨hT', ?_⟩
    rw [List.length_cons]
    omega

/-- `PowerDomainTree::new` returns only when the parent index, which ends one past the last entry
    of the topology, stays within `NodeIndexInterface::MAX`; the tree it returns has one state
    array entry per index of each range. -/
theorem ofBfs_keeps {maxPowerLevel cpuDomainCount : Nat} {T : Topology}
    (h : ofBfs maxPowerLevel cpuDomainCount nonCpuDomainCount nodeIndexMax topology = .ok T) :
    StatesFit T ∧ topology.length ≤ nodeIndexMax := by
  unfold ofBfs at h
  obtain ⟨⟨T₁, _, p⟩, hnonCpu, h⟩ := bind_eq_ok.mp h
  obtain ⟨hT₁, hp⟩ := nonCpuLoop_keeps hnonCpu ⟨fun _ => rfl, fun _ => rfl⟩ (Nat.zero_le _)
  dsimp only at h
  -- the topology is sliced from the parent index on, which the slice check bounds
  split_ifs at h with hlen
  obtain ⟨⟨T₂, _⟩, hcpu, h⟩ := bind_eq_ok.mp h
  cases h
  obtain ⟨hT₂, hp₂⟩ := cpuLoop_keeps hcpu ⟨hT₁.cpuStatesLength_eq, hT₁.nonCpuStatesLength_eq⟩ hp
  refine ⟨⟨hT₂.cpuStatesLength_eq, hT₂.nonCpuStatesLength_eq⟩, ?_⟩
  rw [List.length_drop] at hp₂
  omega

end Runs

/-! ### The non-CPU loops -/

section NonCpu

variable (topology : List Nat)

/-- The links of the non-CPU nodes `..< g`, once the loops have created them: each has the
    parent its entry names, and each `non_cpu_range` holds its node's children among them. -/
structure Created (g : Nat) (T : Topology) : Prop where
  parent_eq : ∀ m < g, ∀ k, CountedBy topology m k → T.parent m = entryParent k
  nonCpuRange_iff : ∀ n m,
    inRange (T.nonCpuRange n) m = true ↔ m < g ∧ CountedBy topology m (n + 1)

/-- What the non-CPU loops keep besides the links: the level count, and empty CPU ranges. -/
structure NonCpuBuilt (maxPowerLevel g : Nat) (T : Topology) : Prop
    extends Created topology g T where
  maxPowerLevel_eq : T.maxPowerLevel = maxPowerLevel
  cpuRange_eq : ∀ n, T.cpuRange n = (0, 0)

variable {topology} {maxPowerLevel : Nat}

/-- Creating the root `g`. -/
theorem NonCpuBuilt.addRoot {g : Nat} {T : Topology} (h : NonCpuBuilt topology maxPowerLevel g T)
    (hg : CountedBy topology g 0) :
    NonCpuBuilt topology maxPowerLevel (g + 1) { T with parent := Function.update T.parent g none } where
  parent_eq m hm k hk := by
    by_cases hmg : m = g
    · subst hmg
      dsimp only
      rw [hk.unique hg, Function.update_self]
      rfl
    · dsimp only
      rw [Function.update_of_ne hmg]
      exact h.parent_eq m (by omega) k hk
  nonCpuRange_iff n m := by
    dsimp only
    rw [h.nonCpuRange_iff n m]
    constructor
    · rintro ⟨hm, hcount⟩
      exact ⟨by omega, hcount⟩
    · rintro ⟨hm, hcount⟩
      have hmg : m ≠ g := fun hmg => by
        subst hmg
        exact absurd (hcount.unique hg) (Nat.succ_ne_zero n)
      exact ⟨by omega, hcount⟩
  maxPowerLevel_eq := h.maxPowerLevel_eq
  cpuRange_eq := h.cpuRange_eq

/-- Creating the node `g`, a child of `n`: `assign_non_cpu` adds it to the range of `n`. -/
theorem NonCpuBuilt.addChild {g n : Nat} {T : Topology}
    (h : NonCpuBuilt topology maxPowerLevel g T) (hg : CountedBy topology g (n + 1)) :
    NonCpuBuilt topology maxPowerLevel (g + 1)
      { T with parent := Function.update T.parent g (some n),
               nonCpuRange := Function.update T.nonCpuRange n (extendRange (T.nonCpuRange n) g),
               nonCpuStatesLength :=
                 Function.update T.nonCpuStatesLength n (T.nonCpuStatesLength n + 1) } where
  parent_eq m hm k hk := by
    by_cases hmg : m = g
    · subst hmg
      dsimp only
      rw [hk.unique hg, Function.update_self]
      rfl
    · dsimp only
      rw [Function.update_of_ne hmg]
      exact h.parent_eq m (by omega) k hk
  nonCpuRange_iff n' m := by
    dsimp only
    by_cases hn : n' = n
    -- the children of `n` created so far are the nodes from its entry's start up to `g`
    · subst hn
      rw [Function.update_self]
      have hbefore : ∀ m, inRange (T.nonCpuRange n') m = true ↔ start topology (n' + 1) ≤ m ∧ m < g := by
        intro m
        rw [h.nonCpuRange_iff n' m]
        constructor
        · rintro ⟨hm, hcount⟩
          exact ⟨hcount.1, hm⟩
        · rintro ⟨hlo, hm⟩
          exact ⟨hm, hlo, by have := hg.2; omega⟩
      rw [extendRange_spec hbefore hg.1 m]
      constructor
      · rintro ⟨hlo, hm⟩
        exact ⟨hm, hlo, by have := hg.2; omega⟩
      · rintro ⟨hm, hcount⟩
        exact ⟨hcount.1, hm⟩
    · rw [Function.update_of_ne hn, h.nonCpuRange_iff n' m]
      constructor
      · rintro ⟨hm, hcount⟩
        exact ⟨by omega, hcount⟩
      · rintro ⟨hm, hcount⟩
        have hmg : m ≠ g := fun hmg => by
          subst hmg
          exact hn (Nat.succ_injective (hcount.unique hg))
        exact ⟨by omega, hcount⟩
  maxPowerLevel_eq := h.maxPowerLevel_eq
  cpuRange_eq := h.cpuRange_eq

variable {nonCpuDomainCount nodeIndexMax : Nat}

/-- One node of the non-CPU loop reads entry `p` and creates the nodes it counts. -/
theorem createChildren_eq {T : Topology} {p : Nat}
    (h : NonCpuBuilt topology maxPowerLevel (start topology p) T) (hp : p < topology.length)
    (hN : start topology (p + 1) ≤ nonCpuDomainCount) :
    ∃ T', createChildren topology nonCpuDomainCount T (start topology p) p (entryParent p) =
        .ok (T', start topology (p + 1), topology[p]) ∧
      NonCpuBuilt topology maxPowerLevel (start topology (p + 1)) T' := by
  have hsucc := start_succ hp
  have hcreated : min topology[p] (nonCpuDomainCount - start topology p) = topology[p] := by
    omega
  simp only [createChildren, index_of_lt topology p hp, ok_bind, hcreated, hsucc]
  refine ⟨_, rfl, ?_⟩
  -- the fold creates the nodes `start p + i` one by one, each counted by entry `p`
  apply Loop.foldl_range'_inv (fun i T => NonCpuBuilt topology maxPowerLevel (start topology p + i) T)
    _ h
  intro i hi T hT
  have hcount : CountedBy topology (start topology p + i) p := ⟨by omega, by omega⟩
  cases p with
  | zero => exact hT.addRoot hcount
  | succ n => exact hT.addChild hcount

/-- The loop over one level reads the next `k` entries, its parent index staying within the
    topology and its count of the next level within a `usize`. -/
theorem levelLoop_eq (hmax : topology.length ≤ nodeIndexMax) : ∀ (k p : Nat) (T : Topology) (next : Nat),
    NonCpuBuilt topology maxPowerLevel (start topology p) T → p + k ≤ topology.length →
    start topology (p + k) ≤ nonCpuDomainCount →
    next + (start topology (p + k) - start topology p) < 2 ^ 64 →
    ∃ T', levelLoop topology nonCpuDomainCount nodeIndexMax k T (start topology p) p
        (entryParent p) next =
        .ok (T', start topology (p + k), p + k, entryParent (p + k),
          next + (start topology (p + k) - start topology p)) ∧
      NonCpuBuilt topology maxPowerLevel (start topology (p + k)) T'
  | 0, p, T, next, h, _, _, _ => ⟨T, by simp [levelLoop], h⟩
  | k + 1, p, T, next, h, hlen, hN, hnext => by
    rw [show p + (k + 1) = p + 1 + k by omega] at hlen hN hnext ⊢
    have hsucc := start_succ (t := topology) (k := p) (by omega)
    have hmono : start topology (p + 1) ≤ start topology (p + 1 + k) := start_mono (by omega)
    obtain ⟨T₁, hcreate, h₁⟩ := createChildren_eq h (by omega) (hmono.trans hN)
    obtain ⟨T', hloop, h'⟩ :=
      levelLoop_eq hmax k (p + 1) T₁ (next + topology[p]) h₁ hlen hN (by omega)
    refine ⟨T', ?_, h'⟩
    have hadd : Usize.add next topology[p] = .ok (next + topology[p]) :=
      Usize.add_of_lt (by omega)
    simp only [levelLoop, hcreate, ok_bind, hadd, NodeIndex.add_of_le (by omega : p + 1 ≤ nodeIndexMax)]
    rw [show (some p : Option Nat) = entryParent (p + 1) from rfl, hloop]
    congr 5
    omega

/-- The loop over the levels creates the nodes of `levels` more levels from level `j` on. -/
theorem nonCpuLoop_eq (hmax : topology.length ≤ nodeIndexMax) (hN64 : nonCpuDomainCount < 2 ^ 64) :
    ∀ (levels j : Nat) (T : Topology),
    NonCpuBuilt topology maxPowerLevel (levelStart topology j) T →
    levelEntry topology (j + levels) ≤ topology.length →
    levelStart topology (j + levels) ≤ nonCpuDomainCount →
    ∃ T', nonCpuLoop topology nonCpuDomainCount nodeIndexMax levels T (levelStart topology j)
        (levelEntry topology (j + 1) - levelEntry topology j) (levelEntry topology j)
        (entryParent (levelEntry topology j)) =
        .ok (T', levelStart topology (j + levels), levelEntry topology (j + levels)) ∧
      NonCpuBuilt topology maxPowerLevel (levelStart topology (j + levels)) T'
  | 0, j, T, h, _, _ => ⟨T, by simp [nonCpuLoop], h⟩
  | levels + 1, j, T, h, hlen, hN => by
    rw [show j + (levels + 1) = j + 1 + levels by omega] at hlen hN ⊢
    have hentry : levelEntry topology j ≤ levelEntry topology (j + 1) := levelEntry_le_succ j
    have hentry' : levelEntry topology (j + 1) ≤ levelEntry topology (j + 1 + levels) :=
      levelEntry_mono (by omega)
    have hlevel : levelStart topology (j + 1) ≤ levelStart topology (j + 1 + levels) :=
      levelStart_mono (by omega)
    have hk : levelEntry topology j + (levelEntry topology (j + 1) - levelEntry topology j) =
        levelEntry topology (j + 1) := Nat.add_sub_cancel' hentry
    -- the level's entries are those of the nodes of the level above
    obtain ⟨T₁, hlevelLoop, h₁⟩ := @levelLoop_eq topology maxPowerLevel nonCpuDomainCount
      nodeIndexMax hmax (levelEntry topology (j + 1) - levelEntry topology j)
      (levelEntry topology j) T 0 (by rw [start_levelEntry]; exact h) (by omega)
      (by rw [hk, start_levelEntry]; omega) (by rw [hk, start_levelEntry]; omega)
    rw [hk] at hlevelLoop h₁
    simp only [start_levelEntry, Nat.zero_add] at hlevelLoop h₁
    obtain ⟨T', hloop, h'⟩ := nonCpuLoop_eq hmax hN64 levels (j + 1) T₁ h₁ hlen hN
    refine ⟨T', ?_, h'⟩
    simp only [nonCpuLoop, hlevelLoop, ok_bind]
    rw [← levelEntry_succ_sub]
    exact hloop

end NonCpu

/-! ### Chains of parents -/

/-- A chain depends on the parent links alone. -/
theorem chain_congr {T T' : Topology} (h : T'.parent = T.parent) :
    ∀ (fuel : Nat) (start : Option Nat), T'.chain fuel start = T.chain fuel start
  | 0, _ => rfl
  | _ + 1, none => rfl
  | fuel + 1, some i => by rw [chain_succ_some, chain_succ_some, h, chain_congr h fuel]

section Chain

variable {topology : List Nat} {J : Nat} {T : Topology}

/-- The parent of a created node of level `j`: none for a root. -/
theorem Created.parent_of_mem_level_zero (hT : Created topology (levelStart topology J) T)
    (hJ : 0 < J) {n : Nat} (hn : n ∈ level topology 0) : T.parent n = none :=
  hT.parent_eq n (lt_of_lt_of_le hn.2 (levelStart_mono hJ)) 0 (countedBy_zero_iff.mpr hn)

/-- The parent of a created node past the roots: the node of the level above that counts it. -/
theorem Created.parent_of_mem_level_succ (hT : Created topology (levelStart topology J) T)
    {n j : Nat} (hj : j + 1 < J) (hn : n ∈ level topology (j + 1)) :
    ∃ k, CountedBy topology n (k + 1) ∧ k ∈ level topology j ∧ T.parent n = some k := by
  obtain ⟨k, hk⟩ := exists_parent hn
  exact ⟨k, hk, hk.parent_mem_level hn,
    hT.parent_eq n (lt_of_lt_of_le hn.2 (levelStart_mono hj)) (k + 1) hk⟩

variable (hT : Created topology (levelStart topology J) T)
include hT

/-- The chain from a node of level `j` has one node on each level up to the roots. -/
theorem Created.length_chain : ∀ {j n fuel : Nat}, j < J → n ∈ level topology j → j + 1 ≤ fuel →
    (T.chain fuel (some n)).length = j + 1
  | 0, n, fuel + 1, hj, hn, _ => by
    rw [chain_succ_some, hT.parent_of_mem_level_zero hj hn, chain_none, List.length_singleton]
  | j + 1, n, fuel + 1, hj, hn, hfuel => by
    obtain ⟨k, -, hk, hpar⟩ := hT.parent_of_mem_level_succ hj hn
    rw [chain_succ_some, hpar, List.length_cons, Created.length_chain (by omega) hk (by omega)]

/-- The nodes of a chain are at most its first one. -/
theorem Created.le_of_mem_chain : ∀ {j n fuel m : Nat}, j < J → n ∈ level topology j →
    m ∈ T.chain fuel (some n) → m ≤ n
  | _, _, 0, _, _, _, hm => absurd hm List.not_mem_nil
  | 0, n, fuel + 1, m, hj, hn, hm => by
    rw [chain_succ_some, hT.parent_of_mem_level_zero hj hn, chain_none] at hm
    exact le_of_eq (List.mem_singleton.mp hm)
  | j + 1, n, fuel + 1, m, hj, hn, hm => by
    obtain ⟨k, hcount, hk, hpar⟩ := hT.parent_of_mem_level_succ hj hn
    rw [chain_succ_some, hpar] at hm
    rcases List.mem_cons.mp hm with rfl | hm
    · exact le_rfl
    · exact (Created.le_of_mem_chain (by omega) hk hm).trans (hcount.lt_of_mem_level hn).le

/-- A chain visits each node once. -/
theorem Created.nodup_chain : ∀ {j n fuel : Nat}, j < J → n ∈ level topology j →
    (T.chain fuel (some n)).Nodup
  | _, _, 0, _, _ => List.nodup_nil
  | 0, n, fuel + 1, hj, hn => by
    rw [chain_succ_some, hT.parent_of_mem_level_zero hj hn, chain_none]
    exact List.nodup_singleton n
  | j + 1, n, fuel + 1, hj, hn => by
    obtain ⟨k, hcount, hk, hpar⟩ := hT.parent_of_mem_level_succ hj hn
    rw [chain_succ_some, hpar]
    refine List.nodup_cons.mpr ⟨fun hmem => ?_, Created.nodup_chain (by omega) hk⟩
    exact absurd (hT.le_of_mem_chain (by omega) hk hmem) (not_le.mpr (hcount.lt_of_mem_level hn))

/-- The chain from a node of level `j` holds the nodes it lies at most `j` levels below. -/
theorem Created.mem_chain_iff : ∀ {j n fuel : Nat}, j < J → n ∈ level topology j → j + 1 ≤ fuel →
    ∀ m, m ∈ T.chain fuel (some n) ↔
      ∃ d ≤ j, n ∈ Set.Ico (below topology d (m, m + 1)).1 (below topology d (m, m + 1)).2
  | 0, n, fuel + 1, hj, hn, _, m => by
    rw [chain_succ_some, hT.parent_of_mem_level_zero hj hn, chain_none, List.mem_singleton]
    constructor
    · rintro rfl
      exact ⟨0, le_rfl, by simp [below]⟩
    · rintro ⟨d, hd, hmem⟩
      obtain rfl : d = 0 := by omega
      simp [below] at hmem
      omega
  | j + 1, n, fuel + 1, hj, hn, hfuel, m => by
    obtain ⟨k, hcount, hk, hpar⟩ := hT.parent_of_mem_level_succ hj hn
    rw [chain_succ_some, hpar, List.mem_cons, Created.mem_chain_iff (by omega) hk (by omega) m]
    constructor
    -- case the node itself, at depth 0; case an ancestor of its parent, one level deeper
    · rintro (rfl | ⟨d, hd, hmem⟩)
      · exact ⟨0, Nat.zero_le _, by simp [below]⟩
      · exact ⟨d + 1, by omega, (mem_below_succ_iff_parent hcount).mpr hmem⟩
    · rintro ⟨d, hd, hmem⟩
      cases d with
      | zero =>
        simp [below] at hmem
        exact .inl (by omega)
      | succ d => exact .inr ⟨d, by omega, (mem_below_succ_iff_parent hcount).mp hmem⟩

/-- A node of level `j` is on the chain of the parent `k` of a node `g` of the last level `J`
    exactly when `g` lies `J - j` levels below it. -/
theorem Created.mem_chain_parent_iff {g k n j fuel : Nat} (hg : g ∈ level topology J)
    (hk : CountedBy topology g (k + 1)) (hn : n ∈ level topology j) (hj : j < J)
    (hfuel : J ≤ fuel) :
    n ∈ T.chain fuel (some k) ↔
      g ∈ Set.Ico (below topology (J - j) (n, n + 1)).1 (below topology (J - j) (n, n + 1)).2 := by
  obtain ⟨J, rfl⟩ : ∃ J', J = J' + 1 := ⟨J - 1, by omega⟩
  have hkJ : k ∈ level topology J := hk.parent_mem_level hg
  rw [hT.mem_chain_iff (Nat.lt_succ_self J) hkJ hfuel n]
  constructor
  · rintro ⟨d, hd, hmem⟩
    have hgd := (mem_below_succ_iff_parent (d := d) (r := (n, n + 1)) hk).mpr hmem
    -- `g` lies `d + 1` levels below `n`, so `j + d + 1` is its level
    have hlevel := level_unique (below_subset_level hn (d + 1) g hgd) hg
    rwa [show J + 1 - j = d + 1 by omega]
  · intro hmem
    rw [show J + 1 - j = (J - j) + 1 by omega, mem_below_succ_iff_parent hk] at hmem
    exact ⟨J - j, by omega, hmem⟩

end Chain

/-! ### The CPU loop -/

/-- `assign_cpu` of `PowerDomainTree` adds the CPU to the range of each node of the chain from
    `index`, and an entry to its state arrays, when the chain visits each node once and only
    indices of nodes. -/
theorem assignCpu_eq (cpu : Nat) : ∀ (fuel index : Nat) (T : Topology),
    (∀ n ∈ T.chain fuel (some index), n < T.nonCpuCount) → (T.chain fuel (some index)).Nodup →
    T.assignCpu cpu fuel index =
      .ok { T with
        cpuRange := fun n =>
          if n ∈ T.chain fuel (some index) then extendRange (T.cpuRange n) cpu else T.cpuRange n
        cpuStatesLength := fun n =>
          if n ∈ T.chain fuel (some index) then T.cpuStatesLength n + 1 else T.cpuStatesLength n }
  | 0, _, T, _, _ => by simp [assignCpu]
  | fuel + 1, index, T, hlt, hnodup => by
    rw [chain_succ_some] at hlt hnodup ⊢
    have hindex : index < T.nonCpuCount := hlt index List.mem_cons_self
    obtain ⟨hnotin, hnodup⟩ := List.nodup_cons.mp hnodup
    -- the rest of the chain is the chain of the tree with `index` extended
    cases hpar : T.parent index with
    | none =>
      simp only [assignCpu, hindex, if_true, hpar, chain_none, List.mem_singleton]
      -- both fields change at `index` alone
      congr 2 <;> funext n <;> by_cases hn : n = index <;> simp [hn]
    | some p =>
      rw [hpar] at hlt hnodup hnotin
      obtain ⟨T', hT'⟩ : ∃ T' : Topology, T' = { T with
          cpuRange := Function.update T.cpuRange index (extendRange (T.cpuRange index) cpu)
          cpuStatesLength :=
            Function.update T.cpuStatesLength index (T.cpuStatesLength index + 1) } :=
        ⟨_, rfl⟩
      have hchain : T'.chain fuel (some p) = T.chain fuel (some p) :=
        chain_congr (by rw [hT']) fuel (some p)
      have hstep : T.assignCpu cpu (fuel + 1) index = T'.assignCpu cpu fuel p := by
        rw [hT']
        simp only [assignCpu, hindex, if_true, hpar]
      have hrest := assignCpu_eq cpu fuel p T'
        (by rw [hchain, hT']; exact fun n hn => hlt n (List.mem_cons_of_mem _ hn))
        (by rw [hchain]; exact hnodup)
      rw [hstep, hrest, hchain, hT']
      congr 2 <;> funext n <;> by_cases hn : n = index <;> simp [hn, hnotin]

section Cpu

variable (topology : List Nat)

/-- The links once the CPU loop has assigned the CPUs `..< k`: the non-CPU links are complete,
    each assigned CPU has the parent its entry names, and each `cpu_range` holds the assigned CPUs
    whose chain passes its node. -/
structure CpusAssigned (maxPowerLevel nonCpuDomainCount k : Nat) (T : Topology) : Prop
    extends Created topology nonCpuDomainCount T where
  maxPowerLevel_eq : T.maxPowerLevel = maxPowerLevel
  nonCpuCount_eq : T.nonCpuCount = nonCpuDomainCount
  cpuParent_count : ∀ c < k, CountedBy topology (nonCpuDomainCount + c) (T.cpuParent c + 1)
  cpuRange_iff : ∀ n < nonCpuDomainCount, ∀ c, inRange (T.cpuRange n) c = true ↔
    c < k ∧ n ∈ T.chain nonCpuDomainCount (some (T.cpuParent c))

variable {topology} {maxPowerLevel nonCpuDomainCount : Nat}

/-- The non-CPU links once complete, with the non-CPU count set and no CPU assigned yet. -/
theorem NonCpuBuilt.cpusAssigned {T : Topology}
    (h : NonCpuBuilt topology maxPowerLevel nonCpuDomainCount T) :
    CpusAssigned topology maxPowerLevel nonCpuDomainCount 0
      { T with nonCpuCount := nonCpuDomainCount } where
  parent_eq := h.parent_eq
  nonCpuRange_iff := h.nonCpuRange_iff
  maxPowerLevel_eq := h.maxPowerLevel_eq
  nonCpuCount_eq := rfl
  cpuParent_count c hc := absurd hc (Nat.not_lt_zero c)
  cpuRange_iff n _ c := by simp [h.cpuRange_eq n, inRange]

variable (hN : levelStart topology maxPowerLevel = nonCpuDomainCount)
include hN

/-- With one entry per non-CPU node, the last level holds the rest of the nodes: the CPUs. -/
theorem levelStart_last {cpuDomainCount : Nat}
    (hsum : topology.sum = nonCpuDomainCount + cpuDomainCount)
    (hlen : topology.length = nonCpuDomainCount + 1) :
    levelStart topology (maxPowerLevel + 1) = nonCpuDomainCount + cpuDomainCount := by
  rw [show levelStart topology (maxPowerLevel + 1) =
    start topology (levelStart topology maxPowerLevel + 1) from rfl, hN, ← hlen, start_length,
    hsum]

/-- The CPUs `..< i` whose chain passes a node on the chain of CPU `i` are those from the first
    CPU below that node on. -/
theorem CpusAssigned.chain_interval {i p n : Nat} {T : Topology}
    (h : CpusAssigned topology maxPowerLevel nonCpuDomainCount i T)
    (hi : nonCpuDomainCount + i ∈ level topology maxPowerLevel)
    (hp : CountedBy topology (nonCpuDomainCount + i) (p + 1)) (hn : n < nonCpuDomainCount)
    (hch : n ∈ T.chain nonCpuDomainCount (some p)) :
    ∃ lo ≤ i, ∀ c < i, n ∈ T.chain nonCpuDomainCount (some (T.cpuParent c)) ↔ lo ≤ c := by
  subst hN
  have hT : Created topology (levelStart topology maxPowerLevel) T := h.toCreated
  obtain ⟨J, rfl, hpJ⟩ := hp.mem_level_pred hi
  obtain ⟨j, hj, hnj⟩ := exists_level hn
  have hfuel : J + 1 ≤ levelStart topology (J + 1) := by
    have := le_of_mem_level hpJ
    have := hpJ.2
    omega
  -- CPU `i` lies below the node, so the node's CPUs are an interval of the last level
  have hmem := (hT.mem_chain_parent_iff hi hp hnj hj hfuel).mp hch
  have hlo : levelStart topology (J + 1) ≤ (below topology (J + 1 - j) (n, n + 1)).1 := by
    have hlevel := below_subset_level hnj (J + 1 - j) _ ⟨le_rfl, lt_of_le_of_lt hmem.1 hmem.2⟩
    rw [Nat.add_sub_cancel' hj.le] at hlevel
    exact hlevel.1
  refine ⟨(below topology (J + 1 - j) (n, n + 1)).1 - levelStart topology (J + 1),
    by have := hmem.1; omega, fun c hc => ?_⟩
  have hc' : levelStart topology (J + 1) + c ∈ level topology (J + 1) :=
    ⟨Nat.le_add_right _ _, by have := hi.2; omega⟩
  rw [hT.mem_chain_parent_iff hc' (h.cpuParent_count c hc) hnj hj hfuel, Set.mem_Ico]
  have := hmem.2
  omega

/-- One step of the CPU fold: CPU `i`, counted by the entry after node `p`, gets `p` as its
    parent and joins the range of every node of its chain. -/
theorem CpusAssigned.assign {i p : Nat} {T : Topology}
    (h : CpusAssigned topology maxPowerLevel nonCpuDomainCount i T)
    (hi : nonCpuDomainCount + i ∈ level topology maxPowerLevel)
    (hp : CountedBy topology (nonCpuDomainCount + i) (p + 1)) :
    ∃ T', ({ T with cpuParent := Function.update T.cpuParent i p } : Topology).assignCpu i
        T.nonCpuCount p = .ok T' ∧
      CpusAssigned topology maxPowerLevel nonCpuDomainCount (i + 1) T' := by
  have hT : Created topology (levelStart topology maxPowerLevel) T := hN ▸ h.toCreated
  obtain ⟨J, hJ, hpJ⟩ := hp.mem_level_pred hi
  subst hJ
  have hlt : ∀ n ∈ T.chain nonCpuDomainCount (some p), n < nonCpuDomainCount := fun n hn =>
    lt_of_le_of_lt (hT.le_of_mem_chain (Nat.lt_succ_self J) hpJ hn) (hN ▸ hpJ.2)
  have hnodup : (T.chain nonCpuDomainCount (some p)).Nodup :=
    hT.nodup_chain (Nat.lt_succ_self J) hpJ
  obtain ⟨T₀, hT₀⟩ : ∃ T₀ : Topology,
      T₀ = { T with cpuParent := Function.update T.cpuParent i p } := ⟨_, rfl⟩
  have hch : ∀ fuel start, T₀.chain fuel start = T.chain fuel start :=
    chain_congr (by rw [hT₀])
  have hcount : T₀.nonCpuCount = nonCpuDomainCount := by rw [hT₀, h.nonCpuCount_eq]
  rw [← hT₀, h.nonCpuCount_eq, assignCpu_eq i _ p T₀ (by rw [hch, hcount]; exact hlt)
    (by rw [hch]; exact hnodup), hch]
  -- the CPUs whose chain passes a node are those before, and CPU `i` if its chain does
  have hparent : ∀ c < i + 1, CountedBy topology (nonCpuDomainCount + c)
      (Function.update T.cpuParent i p c + 1) := by
    intro c hc
    by_cases hci : c = i
    · subst hci
      rw [Function.update_self]
      exact hp
    · rw [Function.update_of_ne hci]
      exact h.cpuParent_count c (by omega)
  have hrange : ∀ n < nonCpuDomainCount, ∀ c,
      inRange (if n ∈ T.chain nonCpuDomainCount (some p) then extendRange (T.cpuRange n) i
        else T.cpuRange n) c = true ↔
      c < i + 1 ∧ n ∈ T.chain nonCpuDomainCount (some (Function.update T.cpuParent i p c)) := by
    intro n hn c
    by_cases hnch : n ∈ T.chain nonCpuDomainCount (some p)
    -- case on the chain of CPU `i`: the range grows at its end
    · obtain ⟨lo, hlo, hiff⟩ := h.chain_interval hN hi hp hn hnch
      have hbefore : ∀ c, inRange (T.cpuRange n) c = true ↔ lo ≤ c ∧ c < i := by
        intro c
        rw [h.cpuRange_iff n hn c]
        constructor
        · rintro ⟨hc, hmem⟩
          exact ⟨(hiff c hc).mp hmem, hc⟩
        · rintro ⟨hlo', hc⟩
          exact ⟨hc, (hiff c hc).mpr hlo'⟩
      rw [if_pos hnch, extendRange_spec hbefore hlo c]
      by_cases hci : c = i
      · subst hci
        rw [Function.update_self]
        exact ⟨fun _ => ⟨Nat.lt_succ_self c, hnch⟩, fun _ => ⟨hlo, Nat.lt_succ_self c⟩⟩
      · rw [Function.update_of_ne hci]
        constructor
        · rintro ⟨hlo', hc⟩
          exact ⟨hc, (hiff c (by omega)).mpr hlo'⟩
        · rintro ⟨hc, hmem⟩
          exact ⟨(hiff c (by omega)).mp hmem, by omega⟩
    -- case off the chain of CPU `i`: the range stays
    · rw [if_neg hnch, h.cpuRange_iff n hn c]
      by_cases hci : c = i
      · subst hci
        rw [Function.update_self]
        exact ⟨fun hc => absurd hc.1 (Nat.lt_irrefl c), fun hc => absurd hc.2 hnch⟩
      · rw [Function.update_of_ne hci]
        constructor
        · rintro ⟨hc, hmem⟩
          exact ⟨by omega, hmem⟩
        · rintro ⟨hc, hmem⟩
          exact ⟨by omega, hmem⟩
  obtain ⟨T', hT'⟩ : ∃ T' : Topology, T' = { T₀ with
      cpuRange := fun n => if n ∈ T.chain nonCpuDomainCount (some p)
        then extendRange (T₀.cpuRange n) i else T₀.cpuRange n
      cpuStatesLength := fun n => if n ∈ T.chain nonCpuDomainCount (some p)
        then T₀.cpuStatesLength n + 1 else T₀.cpuStatesLength n } := ⟨_, rfl⟩
  have hchain' : ∀ fuel start, T'.chain fuel start = T.chain fuel start :=
    chain_congr (by rw [hT', hT₀])
  subst hT₀
  refine ⟨T', hT' ▸ rfl, ?_⟩
  exact
    { parent_eq := by rw [hT']; exact h.parent_eq
      nonCpuRange_iff := by rw [hT']; exact h.nonCpuRange_iff
      maxPowerLevel_eq := by rw [hT']; exact h.maxPowerLevel_eq
      nonCpuCount_eq := by rw [hT']; exact h.nonCpuCount_eq
      cpuParent_count := by rw [hT']; exact hparent
      cpuRange_iff := fun n hn c => by rw [hchain', hT']; exact hrange n hn c }

/-- The CPU loop reads the entries from `q` on, each counting the CPUs of the node before it,
    and assigns them in order. -/
theorem cpuLoop_eq {cpuDomainCount nodeIndexMax : Nat}
    (hsum : topology.sum = nonCpuDomainCount + cpuDomainCount)
    (hlen : topology.length = nonCpuDomainCount + 1) (hmax : topology.length ≤ nodeIndexMax) :
    ∀ (l : List Nat) (q : Nat) (T : Topology), topology.drop q = l → 0 < q →
      nonCpuDomainCount ≤ start topology q →
      CpusAssigned topology maxPowerLevel nonCpuDomainCount (start topology q - nonCpuDomainCount) T →
      ∃ T', cpuLoop cpuDomainCount nodeIndexMax l T q (start topology q - nonCpuDomainCount) =
          .ok (T', cpuDomainCount) ∧
        CpusAssigned topology maxPowerLevel nonCpuDomainCount cpuDomainCount T'
  | [], q, T, hl, _, _, h => by
    have hq : topology.length ≤ q := List.drop_eq_nil_iff.mp hl
    have hstart : start topology q = topology.sum := by rw [start, List.take_of_length_le hq]
    rw [hstart, hsum, Nat.add_sub_cancel_left] at h ⊢
    exact ⟨T, rfl, h⟩
  | x :: rest, q, T, hl, hq, hqN, h => by
    have hqlen : q < topology.length := by
      by_contra hge
      rw [List.drop_eq_nil_of_le (not_lt.mp hge)] at hl
      cases hl
    rw [List.drop_eq_getElem_cons hqlen] at hl
    obtain ⟨rfl, rfl⟩ := List.cons.inj hl
    obtain ⟨p, rfl⟩ : ∃ p, q = p + 1 := ⟨q - 1, by omega⟩
    have hsucc := start_succ hqlen
    have hle := start_le_sum (t := topology) (p + 1 + 1)
    have hlast := levelStart_last hN hsum hlen
    have hcap : min topology[p + 1] (cpuDomainCount - (start topology (p + 1) - nonCpuDomainCount)) =
        topology[p + 1] := by omega
    obtain ⟨T₁, hfold, h₁⟩ := Loop.foldlM_range'_inv
      (s := start topology (p + 1) - nonCpuDomainCount) (n := topology[p + 1])
      (f := fun (T : Topology) cpu =>
        ({ T with cpuParent := Function.update T.cpuParent cpu p } : Topology).assignCpu cpu
          T.nonCpuCount p)
      (fun k T => CpusAssigned topology maxPowerLevel nonCpuDomainCount
        (start topology (p + 1) - nonCpuDomainCount + k) T)
      (fun k hk T hT => hT.assign hN ⟨by rw [hN]; omega, by rw [hlast]; omega⟩
        ⟨by omega, by omega⟩)
      h
    obtain ⟨T', hloop, h'⟩ := cpuLoop_eq hsum hlen hmax _ (p + 1 + 1) T₁ rfl (by omega) (by omega)
      (by rw [show start topology (p + 1 + 1) - nonCpuDomainCount =
        start topology (p + 1) - nonCpuDomainCount + topology[p + 1] by omega]; exact h₁)
    refine ⟨T', ?_, h'⟩
    simp only [cpuLoop, hcap, NodeIndex.sub_succ_one, ok_bind]
    rw [hfold, ok_bind, NodeIndex.add_of_le (by omega : p + 1 + 1 ≤ nodeIndexMax), ok_bind, show start topology (p + 1) - nonCpuDomainCount + topology[p + 1] =
      start topology (p + 1 + 1) - nonCpuDomainCount by omega]
    exact hloop

/-- Once all CPUs are assigned, the tree with its CPU count has the shape of the forest. -/
theorem CpusAssigned.shaped {cpuDomainCount : Nat} {T : Topology}
    (hsum : topology.sum = nonCpuDomainCount + cpuDomainCount)
    (hlen : topology.length = nonCpuDomainCount + 1)
    (h : CpusAssigned topology maxPowerLevel nonCpuDomainCount cpuDomainCount T)
    (hfit : StatesFit T) :
    Shaped { T with cpuCount := cpuDomainCount } := by
  have hT : Created topology (levelStart topology maxPowerLevel) T := hN ▸ h.toCreated
  have hlast := levelStart_last hN hsum hlen
  have hch : ∀ fuel start,
      ({ T with cpuCount := cpuDomainCount } : Topology).chain fuel start = T.chain fuel start :=
    chain_congr rfl
  -- the parent of a CPU is a node of the lowest non-CPU level
  have hcpu : ∀ c < cpuDomainCount,
      ∃ J, maxPowerLevel = J + 1 ∧ T.cpuParent c ∈ level topology J := fun c hc =>
    (h.cpuParent_count c hc).mem_level_pred ⟨by rw [hN]; omega, by rw [hlast]; omega⟩
  -- a node's parent is the node its entry names
  have hparent : ∀ m < nonCpuDomainCount, ∀ n,
      T.parent m = some n ↔ CountedBy topology m (n + 1) := by
    intro m hm n
    obtain ⟨k, hk⟩ := exists_countedBy (t := topology) (by omega : m < topology.sum)
    rw [h.parent_eq m hm k hk]
    cases k with
    | zero =>
      constructor
      · intro hnone
        cases hnone
      · intro hn
        exact absurd (hk.unique hn) (Nat.succ_ne_zero n).symm
    | succ k =>
      constructor
      · intro hsome
        cases hsome
        exact hk
      · intro hn
        rw [Nat.succ_injective (hk.unique hn)]
        rfl
  -- the chains of a CPU up to `maxPowerLevel` and up to `NON_CPU_DOMAIN_COUNT` nodes agree
  have hsame : ∀ c < cpuDomainCount, ∀ n, n ∈ T.chain nonCpuDomainCount (some (T.cpuParent c)) ↔
      n ∈ T.chain maxPowerLevel (some (T.cpuParent c)) := by
    intro c hc n
    obtain ⟨J, rfl, hk⟩ := hcpu c hc
    have hfuel : J + 1 ≤ nonCpuDomainCount := by
      have := le_of_mem_level hk
      have := hk.2
      omega
    rw [hT.mem_chain_iff (Nat.lt_succ_self J) hk hfuel n,
      hT.mem_chain_iff (Nat.lt_succ_self J) hk le_rfl n]
  refine
    { parent_lt := fun m hm n hpar => ?_
      chain_length := fun c hc => ?_
      ancestor_lt := fun c hc n hn => ?_
      cpuRange_iff := fun n hn c => ?_
      nonCpuRange_iff := fun n hn m => ?_
      cpuStatesLength_eq := fun n _ => hfit.cpuStatesLength_eq n
      nonCpuStatesLength_eq := fun n _ => hfit.nonCpuStatesLength_eq n }
  -- case parent_lt: the parent of a node lies a level above it
  · dsimp only at hm hpar
    rw [h.nonCpuCount_eq] at hm
    have hcount := (hparent m hm n).mp hpar
    obtain ⟨j, -, hmj⟩ := exists_level (hN ▸ hm : m < levelStart topology maxPowerLevel)
    obtain ⟨j', rfl, -⟩ := hcount.mem_level_pred hmj
    exact hcount.lt_of_mem_level hmj
  · obtain ⟨J, hJ, hk⟩ := hcpu c hc
    rw [hch]
    dsimp only
    rw [h.maxPowerLevel_eq, hJ]
    subst hJ
    exact hT.length_chain (Nat.lt_succ_self J) hk (by omega)
  · obtain ⟨J, hJ, hk⟩ := hcpu c hc
    rw [ancestors, hch] at hn
    dsimp only at hn ⊢
    rw [h.maxPowerLevel_eq, hJ] at hn
    rw [h.nonCpuCount_eq, ← hN]
    subst hJ
    exact lt_of_le_of_lt (hT.le_of_mem_chain (Nat.lt_succ_self J) hk hn) hk.2
  · dsimp only at hn ⊢
    rw [h.nonCpuCount_eq] at hn
    rw [ancestors, hch]
    dsimp only
    rw [h.cpuRange_iff n hn c, h.maxPowerLevel_eq]
    constructor
    · rintro ⟨hc, hmem⟩
      exact ⟨hc, (hsame c hc n).mp hmem⟩
    · rintro ⟨hc, hmem⟩
      exact ⟨hc, (hsame c hc n).mpr hmem⟩
  · dsimp only at hn ⊢
    rw [h.nonCpuCount_eq] at hn ⊢
    rw [h.nonCpuRange_iff n m]
    exact and_congr_right fun hm => (hparent m hm n).symm

end Cpu

/-! ### What the shape gives the tree's operations -/

namespace Shaped

variable {T : Topology} (hS : T.Shaped)
include hS

/-- The setters indexed by a CPU pass their assert at every ancestor of the CPU. -/
theorem checkCpu_ancestor {c n : Nat} (hc : c < T.cpuCount) (hn : n ∈ T.ancestors c) :
    NonCpuPowerNode.checkCpu T n c = .ok () := by
  unfold NonCpuPowerNode.checkCpu
  rw [if_pos ((hS.cpuRange_iff n (hS.ancestor_lt c hc n hn) c).mpr ⟨hc, hn⟩)]
  rfl

/-- `set_non_cpu_state` passes its assert at the parent of a node. -/
theorem setNonCpuState_parent {σ : Type} {m n : Nat}
    (hm : m < T.nonCpuCount) (hpar : T.parent m = some n) (node : NonCpuPowerNode σ) (s : σ) :
    NonCpuPowerNode.setNonCpuState T n node m s =
      .ok { node with nonCpuStates := Function.update node.nonCpuStates m s } := by
  have hn : n < T.nonCpuCount := (hS.parent_lt m hm n hpar).trans hm
  unfold NonCpuPowerNode.setNonCpuState
  rw [if_pos ((hS.nonCpuRange_iff n hn m).mpr ⟨hm, hpar⟩)]
  rfl

/-- `new_with_max_level` locks the CPU's ancestors up to the level asked for. -/
theorem newWithMaxLevel_ancestors {c : Nat} (hc : c < T.cpuCount) (maxLevel : Nat) :
    AncestorPowerDomains.newWithMaxLevel T (T.cpuParent c) maxLevel =
      .ok ((T.ancestors c).take maxLevel) := by
  have h := AncestorPowerDomains.lockFrom_eq T maxLevel T.maxPowerLevel (some (T.cpuParent c)) 1
    (by rw [hS.chain_length c hc]) (hS.ancestor_lt c hc)
  simpa [AncestorPowerDomains.newWithMaxLevel, Topology.ancestors] using h

end Shaped

/-! ### The tree `PowerDomainTree::new` builds -/

section OfBfs

variable {maxPowerLevel cpuDomainCount nonCpuDomainCount nodeIndexMax : Nat} {topology : List Nat}

/-- The links before the loops: one level count, and nothing else set. -/
theorem nonCpuBuilt_init : NonCpuBuilt topology maxPowerLevel (levelStart topology 0)
    ⟨maxPowerLevel, 0, 0, fun _ => 0, fun _ => none, fun _ => (0, 0), fun _ => (0, 0),
      fun _ => 0, fun _ => 0⟩ where
  parent_eq m hm := absurd hm (Nat.not_lt_zero m)
  nonCpuRange_iff n m := by simp [inRange, levelStart]
  maxPowerLevel_eq := rfl
  cpuRange_eq _ := rfl

/-- `PowerDomainTree::new` builds the tree a well-formed BFS topology describes when
    `NON_CPU_DOMAIN_COUNT < NodeIndexInterface::MAX`: every node gets the parent its entry names
    and the tree has that forest's shape, with one state array entry per index of each range, so
    the range asserts of the setters along a CPU's ancestors and the level assert of
    `new_with_max_level` never fire. -/
theorem ofBfs_builds (hwf : BfsWellFormed maxPowerLevel cpuDomainCount nonCpuDomainCount topology)
    (hidx : nonCpuDomainCount < nodeIndexMax) (hmax : nodeIndexMax < 2 ^ 64) :
    ∃ T, ofBfs maxPowerLevel cpuDomainCount nonCpuDomainCount nodeIndexMax topology = .ok T ∧
      T.maxPowerLevel = maxPowerLevel ∧ T.cpuCount = cpuDomainCount ∧
      T.nonCpuCount = nonCpuDomainCount ∧
      (∀ m < nonCpuDomainCount, ∀ k, CountedBy topology m k → T.parent m = entryParent k) ∧
      (∀ c < cpuDomainCount, CountedBy topology (nonCpuDomainCount + c) (T.cpuParent c + 1)) ∧
      T.Shaped ∧
      (∀ c < cpuDomainCount, ∀ n ∈ T.ancestors c, NonCpuPowerNode.checkCpu T n c = .ok ()) ∧
      (∀ c < cpuDomainCount, ∀ m ∈ T.ancestors c, ∀ n, T.parent m = some n →
        ∀ {σ : Type} (node : NonCpuPowerNode σ) (s : σ), NonCpuPowerNode.setNonCpuState T n node m s =
          .ok { node with nonCpuStates := Function.update node.nonCpuStates m s }) ∧
      (∀ c < cpuDomainCount, ∀ maxLevel, AncestorPowerDomains.newWithMaxLevel T (T.cpuParent c)
        maxLevel = .ok ((T.ancestors c).take maxLevel)) := by
  obtain ⟨hpos, hlen, hnon, hcpu⟩ := hwf
  have hN : levelStart topology maxPowerLevel = nonCpuDomainCount := by
    rw [← start_levelEntry]
    exact hnon
  have hsum : topology.sum = nonCpuDomainCount + cpuDomainCount := by
    rw [← List.sum_take_add_sum_drop topology (levelEntry topology maxPowerLevel), hnon, hcpu]
  have hfits : topology.length ≤ nodeIndexMax := by omega
  obtain ⟨J, rfl⟩ : ∃ J, maxPowerLevel = J + 1 := ⟨maxPowerLevel - 1, by omega⟩
  have hentry : levelEntry topology (J + 1) ≤ topology.length := by
    have := levelStart_le_succ (t := topology) J
    rw [levelEntry, hlen, ← hN]
    omega
  -- the non-CPU loops create every non-CPU node
  obtain ⟨T₁, hloop, h₁⟩ := @nonCpuLoop_eq topology (J + 1) nonCpuDomainCount nodeIndexMax hfits
    (by omega) (J + 1) 0 _ nonCpuBuilt_init (by rwa [Nat.zero_add]) (by rw [Nat.zero_add, hN])
  simp only [Nat.zero_add] at hloop h₁
  rw [hN] at hloop h₁
  -- the CPU loop assigns every CPU
  have hstart : start topology (levelEntry topology (J + 1)) - nonCpuDomainCount = 0 := by
    rw [start_levelEntry, hN, Nat.sub_self]
  obtain ⟨T₂, hcpuLoop, h₂⟩ := cpuLoop_eq hN hsum hlen hfits _ (levelEntry topology (J + 1))
    { T₁ with nonCpuCount := nonCpuDomainCount } rfl (Nat.succ_pos _)
    (by rw [start_levelEntry, hN]) (hstart ▸ h₁.cpusAssigned)
  rw [hstart] at hcpuLoop
  have hofBfs : ofBfs (J + 1) cpuDomainCount nonCpuDomainCount nodeIndexMax topology =
      .ok { T₂ with cpuCount := cpuDomainCount } := by
    have hloop' : nonCpuLoop topology nonCpuDomainCount nodeIndexMax (J + 1)
        ⟨J + 1, 0, 0, fun _ => 0, fun _ => none, fun _ => (0, 0), fun _ => (0, 0),
          fun _ => 0, fun _ => 0⟩ 0 1 0 none =
        .ok (T₁, nonCpuDomainCount, levelEntry topology (J + 1)) := hloop
    simp only [ofBfs, hloop', ok_bind, if_pos hentry, hcpuLoop]
    rfl
  -- every array has the length of its range, whatever the topology
  have hfit := (ofBfs_keeps hofBfs).1
  have hS := h₂.shaped hN hsum hlen ⟨hfit.cpuStatesLength_eq, hfit.nonCpuStatesLength_eq⟩
  exact ⟨{ T₂ with cpuCount := cpuDomainCount }, hofBfs, h₂.maxPowerLevel_eq, rfl,
    h₂.nonCpuCount_eq, h₂.parent_eq, h₂.cpuParent_count, hS,
    fun c hc n hn => hS.checkCpu_ancestor hc hn,
    fun c hc m hm n hpar _ node s => hS.setNonCpuState_parent (hS.ancestor_lt c hc m hm) hpar node s,
    fun c hc maxLevel => hS.newWithMaxLevel_ancestors hc maxLevel⟩

theorem ofBfs_builds_fvp :
    BfsWellFormed Fvp.psciMaxPowerLevel Fvp.coreCount Fvp.psciNonCpuDomainCount Fvp.topology ∧
      Fvp.psciNonCpuDomainCount < Fvp.nodeIndexMax ∧ Fvp.nodeIndexMax < 2 ^ 64 ∧
      Fvp.tree.Shaped := by
  have hwf : BfsWellFormed Fvp.psciMaxPowerLevel Fvp.coreCount Fvp.psciNonCpuDomainCount
      Fvp.topology := ⟨by decide, by decide, by decide, by decide⟩
  obtain ⟨T, hT, -, -, -, -, -, hS, -⟩ := ofBfs_builds hwf
    (by decide : Fvp.psciNonCpuDomainCount < Fvp.nodeIndexMax) (by decide)
  rw [Fvp.ofBfs_topology] at hT
  cases hT
  exact ⟨hwf, by decide, by decide, hS⟩

/-- With `NodeIndex = u8` and `u8::MAX` non-CPU nodes, which the constant asserts of `new` allow,
    a well-formed topology of one level of 255 nodes with one CPU each makes `new` panic: the
    parent index moves past the last of its 256 entries, to 256. -/
theorem ofBfs_panics_at_nodeIndex_max :
    BfsWellFormed 1 255 255 (255 :: List.replicate 255 1) ∧
      ∀ T, ofBfs 1 255 255 255 (255 :: List.replicate 255 1) ≠ .ok T := by
  have hentry : levelEntry (255 :: List.replicate 255 1) 1 = 1 := rfl
  refine ⟨⟨Nat.one_pos, by rw [List.length_cons, List.length_replicate], ?_, ?_⟩, fun T h => ?_⟩
  · rw [hentry, List.take_succ_cons, List.take_zero, List.sum_singleton]
  · rw [hentry, List.drop_succ_cons, List.drop_zero, List.sum_replicate, smul_eq_mul]
  · have hlen := (ofBfs_keeps h).2
    rw [List.length_cons, List.length_replicate] at hlen
    omega

end OfBfs

end Topology

end RustedFirmware.Psci
