import RustedFirmware.Psci.Walk

set_option autoImplicit false

/-! The OS-initiated side of the coordination, and reading the tree back
    (`PsciCompositePowerState` in `src/services/psci.rs`).

    Once an OS-initiated request passes `validate_state_coordination`,
    `apply_coordinated_state_to_power_domain_tree` records the caller's votes as its suspend
    states at every locked ancestor, and `set_nodes_from_local_states` writes the request's
    states into the CPU node and into the ancestors up to the highest affected level, each
    ancestor also recording the new state of its child on the CPU's path, as does the ancestor
    just above that level. The source calls `set_local_states_from_nodes` its opposite: reading
    the composite back from the CPU node and its ancestors, as `handle_cpu_boot` does, gives the
    request up to the highest affected level, and above it what the tree held before. -/

namespace RustedFirmware.Psci

open Rust PlatformPowerState

/-! ### Levels of the ancestors -/

namespace Topology

variable {T : Topology} {cpu : Nat}

section Levels

variable (hwf : T.WellFormed) (hcpu : cpu < T.cpuCount)
include hwf hcpu

theorem getElem?_ancestors {p : Nat} (hp : p < T.maxPowerLevel) :
    (T.ancestors cpu)[p]? = some (T.levelAncestor cpu (p + 1)) := by
  rw [levelAncestor, Nat.add_sub_cancel, List.getD_eq_getElem?_getD,
    List.getElem?_eq_getElem (by rw [hwf.length_ancestors hcpu]; exact hp)]
  rfl

theorem levelAncestor_mem {l : Nat} (hl : 1 ≤ l) (hlM : l ≤ T.maxPowerLevel) :
    T.levelAncestor cpu l ∈ T.ancestors cpu := by
  have h := getElem?_ancestors hwf hcpu (p := l - 1) (by omega)
  rw [Nat.sub_add_cancel hl] at h
  exact List.mem_of_getElem? h

/-- The ancestors of a CPU at different levels are different nodes. -/
theorem levelAncestor_inj {l l' : Nat} (hl : 1 ≤ l) (hlM : l ≤ T.maxPowerLevel) (hl' : 1 ≤ l')
    (hl'M : l' ≤ T.maxPowerLevel) : T.levelAncestor cpu l = T.levelAncestor cpu l' ↔ l = l' := by
  have hlen := hwf.length_ancestors hcpu
  unfold levelAncestor
  rw [List.getD_eq_getElem _ _ (by omega), List.getD_eq_getElem _ _ (by omega),
    (hwf.ancestors_nodup cpu hcpu).getElem_inj_iff]
  omega

/-- A CPU's ancestor at a level above 1 has the one below as a child. -/
theorem levelAncestor_linked {l : Nat} (hl : 2 ≤ l) (hlM : l ≤ T.maxPowerLevel) :
    inRange (T.nonCpuRange (T.levelAncestor cpu l)) (T.levelAncestor cpu (l - 1)) = true := by
  have hA := (hwf.lockedPath hcpu l).linked
  have hlen : ((T.ancestors cpu).take l).length = l := by
    rw [List.length_take, hwf.length_ancestors hcpu]
    omega
  have h := List.isChain_iff_getElem.mp hA (l - 2) (by omega)
  rw [getElem_take_ancestors, getElem_take_ancestors, show l - 2 + 1 = l - 1 by omega,
    Nat.sub_add_cancel (by omega : 1 ≤ l)] at h
  exact h

/-- A node among the ancestors up to level `k` is the ancestor at one of those levels. -/
theorem exists_level_of_mem_take {k n : Nat} (hn : n ∈ (T.ancestors cpu).take k) :
    ∃ l, 1 ≤ l ∧ l ≤ min k T.maxPowerLevel ∧ n = T.levelAncestor cpu l := by
  obtain ⟨p, hp, rfl⟩ := List.getElem_of_mem hn
  have hp' := hp
  rw [List.length_take, hwf.length_ancestors hcpu] at hp'
  exact ⟨p + 1, by omega, by omega, getElem_take_ancestors hp⟩

end Levels

end Topology

namespace CompositePowerState

variable {σ ε : Type} [PlatformPowerState σ] {T : Topology} {cpu : Nat}

open NonCpuPowerNode

/-! ### The walks -/

/-- The walk of `apply_coordinated_state_to_power_domain_tree` up a locked path records the
    CPU's vote at each node as its suspend state. -/
theorem setSuspendStatesLoop_eq : ∀ (A : List Nat) (S : List σ) (t : PowerDomainTree σ ε),
    T.LockedPath cpu A → A.length ≤ S.length →
    ∃ t', setSuspendStatesLoop T cpu A S t = .ok t' ∧ t'.cpuPowerNodes = t.cpuPowerNodes ∧
      (∀ n, n ∉ A → t'.nonCpuPowerNodes n = t.nonCpuPowerNodes n) ∧
      ∀ p (hp : p < A.length), t'.nonCpuPowerNodes A[p] = { t.nonCpuPowerNodes A[p] with
        suspendStates :=
          Function.update (t.nonCpuPowerNodes A[p]).suspendStates cpu (some (S.getD p run)) }
  | [], _, t, _, _ => ⟨t, rfl, rfl, fun _ _ => rfl, fun p hp => absurd hp (Nat.not_lt_zero p)⟩
  | _ :: _, [], _, _, hlen => absurd hlen (by simp)
  | i :: A, s :: S, t, hA, hlen => by
    have hiA : i ∉ A := (List.nodup_cons.mp hA.nodup).1
    obtain ⟨t', hloop, hcpus, hframe, hpos⟩ := setSuspendStatesLoop_eq A S
      (t.setNode i { t.nonCpuPowerNodes i with
        suspendStates := Function.update (t.nonCpuPowerNodes i).suspendStates cpu (some s) })
      hA.tail (by simpa using hlen)
    obtain ⟨hhead, hoff⟩ := Loop.update_cons_frame hiA hframe
    refine ⟨t', ?_, hcpus, hoff, fun p hp => ?_⟩
    · simp only [setSuspendStatesLoop, setSuspendState_eq (hA.cpu_mem i List.mem_cons_self),
        ok_bind]
      exact hloop
    · cases p with
      | zero => exact hhead
      | succ q =>
        have hq : q < A.length := by simpa using hp
        have hne : A[q] ≠ i := fun h => hiA (h ▸ List.getElem_mem hq)
        rw [List.getElem_cons_succ, hpos q hq, PowerDomainTree.nonCpuPowerNodes_setNode,
          Function.update_of_ne hne]
        rfl

omit [PlatformPowerState σ] in
/-- One step of `set_nodes_from_local_states` at a node that holds the child: the node takes the
    state of its level and records the child's. -/
theorem setNodesLoop_cons {i : Nat} {A : List Nat} {s : σ} {S : List σ}
    {child : Option (Nat × σ)} {t : PowerDomainTree σ ε}
    (hchild : ∀ c ∈ child, inRange (T.nonCpuRange i) c.1 = true) :
    setNodesLoop T child (i :: A) (s :: S) t = setNodesLoop T (some (i, s)) A S
      (t.setNode i { t.nonCpuPowerNodes i with
        localState := s
        nonCpuStates := child.elim (t.nonCpuPowerNodes i).nonCpuStates
          fun c => Function.update (t.nonCpuPowerNodes i).nonCpuStates c.1 c.2 }) := by
  cases child with
  | none =>
    simp only [setNodesLoop, pure_eq_ok, ok_bind]
    rfl
  | some c =>
    simp only [setNodesLoop, setNonCpuState_eq (hchild c rfl), ok_bind]
    rfl

/-- The walk of `set_nodes_from_local_states` up a locked path: each node takes the state of its
    level and records the state of the node below, and the walk returns the last node with its
    state. -/
theorem setNodesLoop_eq : ∀ (A : List Nat) (S : List σ) (child : Option (Nat × σ))
    (t : PowerDomainTree σ ε), T.LockedPath cpu A → A.length ≤ S.length →
    (∀ c ∈ child, ∀ i ∈ A.head?, inRange (T.nonCpuRange i) c.1 = true) →
    ∃ t', setNodesLoop T child A S t = .ok ((child :: (A.zip S).map some).getD A.length none, t') ∧
      t'.cpuPowerNodes = t.cpuPowerNodes ∧
      (∀ n, n ∉ A → t'.nonCpuPowerNodes n = t.nonCpuPowerNodes n) ∧
      ∀ p (hp : p < A.length), t'.nonCpuPowerNodes A[p] = { t.nonCpuPowerNodes A[p] with
        localState := S.getD p run
        nonCpuStates := ((child :: (A.zip S).map some).getD p none).elim
          (t.nonCpuPowerNodes A[p]).nonCpuStates
          fun c => Function.update (t.nonCpuPowerNodes A[p]).nonCpuStates c.1 c.2 }
  | [], _, _, t, _, _, _ =>
    ⟨t, rfl, rfl, fun _ _ => rfl, fun p hp => absurd hp (Nat.not_lt_zero p)⟩
  | _ :: _, [], _, _, _, hlen, _ => absurd hlen (by simp)
  | i :: A, s :: S, child, t, hA, hlen, hchild => by
    have hiA : i ∉ A := (List.nodup_cons.mp hA.nodup).1
    obtain ⟨t', hloop, hcpus, hframe, hpos⟩ := setNodesLoop_eq A S (some (i, s))
      (t.setNode i { t.nonCpuPowerNodes i with
        localState := s
        nonCpuStates := child.elim (t.nonCpuPowerNodes i).nonCpuStates
          fun c => Function.update (t.nonCpuPowerNodes i).nonCpuStates c.1 c.2 })
      hA.tail (by simpa using hlen) (fun c hc j hj => by cases hc; exact hA.head_linked j hj)
    obtain ⟨hhead, hoff⟩ := Loop.update_cons_frame hiA hframe
    refine ⟨t', by rw [setNodesLoop_cons fun c hc => hchild c hc i rfl, hloop]; rfl, hcpus, hoff,
      fun p hp => ?_⟩
    cases p with
    | zero => exact hhead
    | succ q =>
      have hq : q < A.length := by simpa using hp
      have hne : A[q] ≠ i := fun h => hiA (h ▸ List.getElem_mem hq)
      rw [List.getElem_cons_succ, hpos q hq, PowerDomainTree.nonCpuPowerNodes_setNode,
        Function.update_of_ne hne]
      rfl

/-! ### By power level -/

section Levels

variable (hwf : T.WellFormed) (hcpu : cpu < T.cpuCount) {c : CompositePowerState σ}
  (hlen : c.states.length = T.maxPowerLevel + 1)
include hwf hcpu hlen

/-- The walk of `set_nodes_from_local_states` over the levels `1..=h`: the ancestor at each of
    them takes the composite's state and records the state of its child on the CPU's path, and
    the walk returns the ancestor at level `h` with its state. -/
theorem setNodesLoop_levels {h : Nat} (hh : h ≤ T.maxPowerLevel) (h0 : 0 < h)
    (t : PowerDomainTree σ ε) :
    ∃ t', setNodesLoop T none ((T.ancestors cpu).take h) ((c.states.drop 1).take h) t =
        .ok (some (T.levelAncestor cpu h, c.states.getD h run), t') ∧
      t'.cpuPowerNodes = t.cpuPowerNodes ∧
      (∀ n, n ∉ (T.ancestors cpu).take h → t'.nonCpuPowerNodes n = t.nonCpuPowerNodes n) ∧
      ∀ l, 1 ≤ l → l ≤ h → t'.nonCpuPowerNodes (T.levelAncestor cpu l) =
        { t.nonCpuPowerNodes (T.levelAncestor cpu l) with
          localState := c.states.getD l run
          nonCpuStates := (T.pathChild cpu l).elim (t.nonCpuPowerNodes (T.levelAncestor cpu l)).nonCpuStates
            fun m => Function.update (t.nonCpuPowerNodes (T.levelAncestor cpu l)).nonCpuStates m
              (c.states.getD (l - 1) run) } := by
  have hA : ((T.ancestors cpu).take h).length = h := by
    rw [List.length_take, hwf.length_ancestors hcpu]
    omega
  have hS : ((c.states.drop 1).take h).length = h := by
    rw [List.length_take, List.length_drop, hlen]
    omega
  -- the states the walk reads are the composite's, one level up
  have hSget : ∀ p < h, ((c.states.drop 1).take h).getD p run = c.states.getD (p + 1) run := by
    intro p hp
    rw [List.getD_eq_getElem?_getD, List.getElem?_take, if_pos hp, List.getElem?_drop,
      Nat.add_comm, ← List.getD_eq_getElem?_getD]
  -- the child the walk passes to position `p` is the one on the CPU's path at level `p + 1`
  have hchild : ∀ p ≤ h, (none :: (((T.ancestors cpu).take h).zip
      ((c.states.drop 1).take h)).map some).getD p none =
      (T.pathChild cpu (p + 1)).map fun m => (m, c.states.getD p run) := by
    intro p hp
    cases p with
    | zero => rfl
    | succ q =>
      have hq : q < ((T.ancestors cpu).take h).length := by omega
      have hAS : ((T.ancestors cpu).take h).length ≤ ((c.states.drop 1).take h).length := by
        omega
      rw [List.getD_cons_succ, getD_zip_map_some hq hAS, Topology.getElem_take_ancestors hq,
        hSget q (by omega), Topology.pathChild, if_pos (by omega), Nat.add_sub_cancel]
      rfl
  obtain ⟨t', hloop, hcpus, hframe, hpos⟩ := setNodesLoop_eq ((T.ancestors cpu).take h)
    ((c.states.drop 1).take h) none t (hwf.lockedPath hcpu h) (by omega) (fun c hc => by cases hc)
  rw [hA, hchild h le_rfl, Topology.pathChild, if_pos (by omega)] at hloop
  refine ⟨t', by rw [hloop, Nat.add_sub_cancel]; rfl, hcpus, hframe, fun l hl hlh => ?_⟩
  obtain ⟨p, rfl⟩ : ∃ p, l = p + 1 := ⟨l - 1, by omega⟩
  have hp : p < ((T.ancestors cpu).take h).length := by omega
  rw [← Topology.getElem_take_ancestors hp, hpos p hp, hchild p (by omega),
    hSget p (by omega), Topology.getElem_take_ancestors hp, Nat.add_sub_cancel]
  cases T.pathChild cpu (p + 1) <;> rfl

/-- `set_nodes_from_local_states` with the ancestors of a CPU of a well-formed tree, for a
    composite with a state per level and highest affected level `h`: the CPU node takes the
    composite's CPU-level state, the ancestors up to level `h` take the composite's states, and
    those up to the level above `h` record the composite's state of their child on the CPU's
    path; nothing else changes. -/
theorem setNodesFromLocalStates_eq {h : Nat} (hh : h ≤ T.maxPowerLevel) (t : PowerDomainTree σ ε) :
    ∃ t', c.setNodesFromLocalStates T h cpu (T.ancestors cpu) t = .ok t' ∧
      t'.cpuPowerNodes = Function.update t.cpuPowerNodes cpu
        { t.cpuPowerNodes cpu with localState := c.cpuLevelState } ∧
      (∀ n, n ∉ T.ancestors cpu → t'.nonCpuPowerNodes n = t.nonCpuPowerNodes n) ∧
      ∀ l, 1 ≤ l → l ≤ T.maxPowerLevel → t'.nonCpuPowerNodes (T.levelAncestor cpu l) =
        { t.nonCpuPowerNodes (T.levelAncestor cpu l) with
          localState := if l ≤ h then c.states.getD l run
            else (t.nonCpuPowerNodes (T.levelAncestor cpu l)).localState
          nonCpuStates := if 2 ≤ l ∧ l ≤ h + 1 then
              Function.update (t.nonCpuPowerNodes (T.levelAncestor cpu l)).nonCpuStates
                (T.levelAncestor cpu (l - 1)) (c.states.getD (l - 1) run)
            else (t.nonCpuPowerNodes (T.levelAncestor cpu l)).nonCpuStates } := by
  by_cases h0 : h = 0
  -- case: only the CPU level is affected
  · subst h0
    refine ⟨t.setCpu cpu { t.cpuPowerNodes cpu with localState := c.cpuLevelState },
      by simp [setNodesFromLocalStates], rfl, fun _ _ => rfl, fun l hl _ => ?_⟩
    rw [if_neg (by omega), if_neg (by omega)]
    rfl
  -- the CPU node first, in the form the walk reads the tree
  obtain ⟨t₂, hloop, hcpus, hframe, hlevels⟩ :=
    setNodesLoop_levels hwf hcpu hlen hh (Nat.pos_of_ne_zero h0) (t.setCpu cpu
      { affinityInfo := (t.cpuPowerNodes cpu).affinityInfo, localState := c.cpuLevelState,
        entryPoint := (t.cpuPowerNodes cpu).entryPoint })
  -- the ancestors up to level `h` are the levels the walk wrote
  have hoff : ∀ l, 1 ≤ l → l ≤ T.maxPowerLevel → h < l →
      T.levelAncestor cpu l ∉ (T.ancestors cpu).take h := by
    intro l hl hlM hhl hmem
    obtain ⟨l', hl', hl'h, heq⟩ := Topology.exists_level_of_mem_take hwf hcpu hmem
    rw [Topology.levelAncestor_inj hwf hcpu hl hlM hl' (by omega)] at heq
    omega
  have hframe' : ∀ n, n ∉ T.ancestors cpu → t₂.nonCpuPowerNodes n = t.nonCpuPowerNodes n :=
    fun n hn => hframe n fun h' => hn (List.mem_of_mem_take h')
  by_cases htop : h < T.maxPowerLevel
  -- case: the ancestor above level `h` records the state of the one at `h`
  · set last := T.levelAncestor cpu (h + 1)
    have hlast : last ∉ (T.ancestors cpu).take h := hoff (h + 1) (by omega) htop (by omega)
    refine ⟨t₂.setNode last { t₂.nonCpuPowerNodes last with
      nonCpuStates := Function.update (t₂.nonCpuPowerNodes last).nonCpuStates
        (T.levelAncestor cpu h) (c.states.getD h run) }, ?_, hcpus, fun n hn => ?_,
      fun l hl hlM => ?_⟩
    · have hlinked := Topology.levelAncestor_linked hwf hcpu (l := h + 1) (by omega) htop
      rw [Nat.add_sub_cancel] at hlinked
      simp only [setNodesFromLocalStates, gt_iff_lt, Nat.pos_of_ne_zero h0, if_pos, hloop,
        ok_bind, htop, Topology.getElem?_ancestors hwf hcpu htop,
        NonCpuPowerNode.setNonCpuState_eq hlinked]
      rfl
    · have hne : n ≠ last := fun h' => hn (h' ▸ Topology.levelAncestor_mem hwf hcpu (by omega) htop)
      rw [PowerDomainTree.nonCpuPowerNodes_setNode, Function.update_of_ne hne, hframe' n hn]
    · rcases Nat.lt_or_ge h l with hhl | hlh
      · -- above the walk: the ancestor at `h + 1` records its child, the others are untouched
        have hmem := hoff l hl hlM hhl
        rw [PowerDomainTree.nonCpuPowerNodes_setNode, if_neg (by omega)]
        by_cases hlast' : l = h + 1
        · subst hlast'
          rw [Function.update_self, hframe _ hmem, if_pos ⟨by omega, le_rfl⟩, Nat.add_sub_cancel]
          rfl
        · have hne : T.levelAncestor cpu l ≠ last := by
            rw [Ne, Topology.levelAncestor_inj hwf hcpu hl hlM (by omega) htop]
            exact hlast'
          rw [Function.update_of_ne hne, hframe _ hmem, if_neg (by omega)]
          rfl
      · -- the walk's levels, which the last write does not touch
        have hne : T.levelAncestor cpu l ≠ last := by
          rw [Ne, Topology.levelAncestor_inj hwf hcpu hl hlM (by omega) htop]
          omega
        rw [PowerDomainTree.nonCpuPowerNodes_setNode, Function.update_of_ne hne,
          hlevels l hl hlh, if_pos hlh]
        by_cases hl2 : 2 ≤ l
        · rw [if_pos ⟨hl2, by omega⟩, Topology.pathChild, if_pos hl2]
          rfl
        · rw [if_neg (fun h' => hl2 h'.1), Topology.pathChild, if_neg hl2]
          rfl
  -- case: the walk reaches the top level
  · have hhM : h = T.maxPowerLevel := by omega
    refine ⟨t₂, ?_, hcpus, hframe', fun l hl hlM => ?_⟩
    · simp only [setNodesFromLocalStates, gt_iff_lt, Nat.pos_of_ne_zero h0, if_pos, hloop,
        ok_bind, htop, if_false]
      rfl
    · rw [hlevels l hl (by omega), if_pos (by omega)]
      by_cases hl2 : 2 ≤ l
      · rw [if_pos ⟨hl2, by omega⟩, Topology.pathChild, if_pos hl2]
        rfl
      · rw [if_neg (fun h' => hl2 h'.1), Topology.pathChild, if_neg hl2]
        rfl

end Levels

/-- `apply_coordinated_state_to_power_domain_tree` with the ancestors of a CPU of a well-formed
    tree, for a request `c` and its resolved votes, both with a state per level, and a highest
    affected level `h`: every ancestor records the resolved vote of its level as the CPU's suspend
    state, the CPU node and the ancestors take the request's states as
    `set_nodes_from_local_states` writes them, and nothing else changes. The requested states are
    not touched. -/
theorem applyCoordinatedStateToPowerDomainTree_eq (hwf : T.WellFormed) (hcpu : cpu < T.cpuCount)
    {c : CompositePowerState σ} (hlen : c.states.length = T.maxPowerLevel + 1) {h : Nat}
    (hh : h ≤ T.maxPowerLevel)
    {resolved : CompositePowerState σ} (hres : resolved.states.length = T.maxPowerLevel + 1)
    (t : PowerDomainTree σ ε) :
    ∃ t', c.applyCoordinatedStateToPowerDomainTree T h cpu (T.ancestors cpu) resolved t = .ok t' ∧
      t'.cpuPowerNodes = Function.update t.cpuPowerNodes cpu
        { t.cpuPowerNodes cpu with localState := c.cpuLevelState } ∧
      (∀ n, n ∉ T.ancestors cpu → t'.nonCpuPowerNodes n = t.nonCpuPowerNodes n) ∧
      ∀ l, 1 ≤ l → l ≤ T.maxPowerLevel → t'.nonCpuPowerNodes (T.levelAncestor cpu l) =
        { t.nonCpuPowerNodes (T.levelAncestor cpu l) with
          localState := if l ≤ h then c.states.getD l run
            else (t.nonCpuPowerNodes (T.levelAncestor cpu l)).localState
          suspendStates := Function.update (t.nonCpuPowerNodes (T.levelAncestor cpu l)).suspendStates
            cpu (some (resolved.states.getD l run))
          nonCpuStates := if 2 ≤ l ∧ l ≤ h + 1 then
              Function.update (t.nonCpuPowerNodes (T.levelAncestor cpu l)).nonCpuStates
                (T.levelAncestor cpu (l - 1)) (c.states.getD (l - 1) run)
            else (t.nonCpuPowerNodes (T.levelAncestor cpu l)).nonCpuStates } := by
  have hlenA := hwf.length_ancestors hcpu
  have hfull : (T.ancestors cpu).take T.maxPowerLevel = T.ancestors cpu :=
    List.take_of_length_le (by omega)
  -- first the suspend states, at every locked ancestor
  obtain ⟨t₁, hloop, hcpus₁, hframe₁, hpos₁⟩ := setSuspendStatesLoop_eq (T.ancestors cpu)
    (resolved.states.drop 1) t (hfull ▸ hwf.lockedPath hcpu T.maxPowerLevel)
    (by rw [List.length_drop, hres]; omega)
  have hsuspend : ∀ l, 1 ≤ l → l ≤ T.maxPowerLevel →
      t₁.nonCpuPowerNodes (T.levelAncestor cpu l) = { t.nonCpuPowerNodes (T.levelAncestor cpu l) with
        suspendStates := Function.update (t.nonCpuPowerNodes (T.levelAncestor cpu l)).suspendStates
          cpu (some (resolved.states.getD l run)) } := by
    intro l hl hlM
    have hp : l - 1 < (T.ancestors cpu).length := by omega
    have hlevel := Topology.getElem_take_ancestors (k := T.maxPowerLevel) (by rw [hfull]; exact hp)
    simp only [hfull, Nat.sub_add_cancel hl] at hlevel
    rw [← hlevel, hpos₁ _ hp, List.getD_eq_getElem?_getD, List.getElem?_drop,
      Nat.add_sub_cancel' hl, ← List.getD_eq_getElem?_getD]
  -- then the local states, read from the tree the first walk left
  obtain ⟨t', hnodes, hcpus, hframe, hpos⟩ := setNodesFromLocalStates_eq hwf hcpu hlen hh t₁
  refine ⟨t', by rw [applyCoordinatedStateToPowerDomainTree, hloop, ok_bind, hnodes], ?_,
    fun n hn => by rw [hframe n hn, hframe₁ n hn], fun l hl hlM => ?_⟩
  · rw [hcpus, hcpus₁]
  · rw [hpos l hl hlM, hsuspend l hl hlM]

theorem applyCoordinatedStateToPowerDomainTree_eq_fvp :
    Fvp.tree.WellFormed ∧ 0 < Fvp.tree.cpuCount ∧
      [Fvp.FvpPowerState.off, .off, .run].length = Fvp.tree.maxPowerLevel + 1 ∧
      1 ≤ Fvp.tree.maxPowerLevel ∧
      [Fvp.FvpPowerState.off, .off, .off].length = Fvp.tree.maxPowerLevel + 1 ∧
      ∃ t', applyCoordinatedStateToPowerDomainTree Fvp.tree
        (⟨[.off, .off, .run], some 1⟩ : CompositePowerState Fvp.FvpPowerState) 1 0
        (Fvp.tree.ancestors 0) ⟨[.off, .off, .off], some 1⟩
        (PowerDomainTree.new : PowerDomainTree Fvp.FvpPowerState Nat) = .ok t' :=
  ⟨Fvp.tree_wellFormed, by decide, by rw [Fvp.tree_maxPowerLevel]; rfl,
    by rw [Fvp.tree_maxPowerLevel]; decide, by rw [Fvp.tree_maxPowerLevel]; rfl,
    (applyCoordinatedStateToPowerDomainTree_eq Fvp.tree_wellFormed (by decide)
      (by rw [Fvp.tree_maxPowerLevel]; rfl) (by rw [Fvp.tree_maxPowerLevel]; decide)
      (by rw [Fvp.tree_maxPowerLevel]; rfl) _).imp fun _ h => h.1⟩

/-- `set_local_states_from_nodes` over the ancestors of a CPU reads, level by level, the CPU
    node's state and those of its ancestors. -/
theorem getD_setLocalStatesFromNodes (hwf : T.WellFormed) (hcpu : cpu < T.cpuCount)
    {d : CompositePowerState σ}
    (hd : d.states.length = T.maxPowerLevel + 1) (node : CpuPowerNode σ ε)
    (t : PowerDomainTree σ ε) {l : Nat} (hl : l ≤ T.maxPowerLevel) :
    (d.setLocalStatesFromNodes node (T.ancestors cpu) t).states.getD l run =
      if l = 0 then node.localState
      else (t.nonCpuPowerNodes (T.levelAncestor cpu l)).localState := by
  obtain ⟨x, rest, hdx⟩ : ∃ x rest, d.states = x :: rest := by
    cases hds : d.states with
    | nil => rw [hds] at hd; cases hd
    | cons x rest => exact ⟨x, rest, rfl⟩
  have hrest : rest.length = T.maxPowerLevel := by
    rw [hdx, List.length_cons] at hd
    omega
  have hlenA := hwf.length_ancestors hcpu
  have hread : (d.setLocalStatesFromNodes node (T.ancestors cpu) t).states =
      node.localState :: (T.ancestors cpu).map fun i => (t.nonCpuPowerNodes i).localState := by
    simp only [setLocalStatesFromNodes, hdx, List.length_map, hrest]
    rw [List.take_of_length_le (by simp [hlenA]), hlenA, List.drop_eq_nil_of_le hrest.le,
      List.append_nil]
  rw [hread]
  cases l with
  | zero => rfl
  | succ p =>
    rw [List.getD_cons_succ, List.getD_eq_getElem _ _ (by simp [hlenA]; omega), List.getElem_map,
      if_neg (Nat.succ_ne_zero p), Topology.levelAncestor, Nat.add_sub_cancel,
      List.getD_eq_getElem _ _ (by omega)]

/-- `set_local_states_from_nodes` is the opposite of `set_nodes_from_local_states`, as the source
    says: on the ancestors of a CPU of a well-formed tree, reading a composite back from the tree
    the second one leaves gives the request's states up to its highest affected level `h`, and
    above `h` what the tree held before. -/
theorem setLocalStatesFromNodes_setNodesFromLocalStates (hwf : T.WellFormed)
    (hcpu : cpu < T.cpuCount) {c : CompositePowerState σ}
    (hlen : c.states.length = T.maxPowerLevel + 1) {h : Nat} (hh : h ≤ T.maxPowerLevel)
    (t : PowerDomainTree σ ε) {d : CompositePowerState σ}
    (hd : d.states.length = T.maxPowerLevel + 1) :
    ∃ t', c.setNodesFromLocalStates T h cpu (T.ancestors cpu) t = .ok t' ∧
      ∀ l ≤ T.maxPowerLevel,
        (d.setLocalStatesFromNodes (t'.cpuPowerNodes cpu) (T.ancestors cpu) t').states.getD l run =
          if l ≤ h then c.states.getD l run
          else (d.setLocalStatesFromNodes (t.cpuPowerNodes cpu) (T.ancestors cpu) t).states.getD l
            run := by
  obtain ⟨t', hnodes, hcpus, -, hpos⟩ := setNodesFromLocalStates_eq hwf hcpu hlen hh t
  refine ⟨t', hnodes, fun l hl => ?_⟩
  rw [getD_setLocalStatesFromNodes hwf hcpu hd _ _ hl, getD_setLocalStatesFromNodes hwf hcpu hd _ _ hl]
  cases l with
  -- the CPU level is always affected, and the CPU node holds the composite's CPU-level state
  | zero =>
    simp only [↓reduceIte, Nat.zero_le, hcpus, Function.update_self]
    rfl
  -- above it each ancestor holds what the walk wrote there, or what it held before
  | succ p => rw [if_neg (Nat.succ_ne_zero p), if_neg (Nat.succ_ne_zero p), hpos (p + 1) (by omega) hl]

theorem setLocalStatesFromNodes_setNodesFromLocalStates_fvp :
    Fvp.tree.WellFormed ∧ 0 < Fvp.tree.cpuCount ∧
      [Fvp.FvpPowerState.off, .off, .run].length = Fvp.tree.maxPowerLevel + 1 ∧
      1 ≤ Fvp.tree.maxPowerLevel ∧
      (CompositePowerState.allRun (Fvp.tree.maxPowerLevel + 1) :
        CompositePowerState Fvp.FvpPowerState).states.length = Fvp.tree.maxPowerLevel + 1 ∧
      ∃ t', setNodesFromLocalStates Fvp.tree
        (⟨[.off, .off, .run], some 1⟩ : CompositePowerState Fvp.FvpPowerState) 1 0
        (Fvp.tree.ancestors 0) (PowerDomainTree.new : PowerDomainTree Fvp.FvpPowerState Nat) =
        .ok t' :=
  ⟨Fvp.tree_wellFormed, by decide, by rw [Fvp.tree_maxPowerLevel]; rfl,
    by rw [Fvp.tree_maxPowerLevel]; decide, by simp [CompositePowerState.allRun],
    (setLocalStatesFromNodes_setNodesFromLocalStates Fvp.tree_wellFormed (by decide)
      (by rw [Fvp.tree_maxPowerLevel]; rfl) (by rw [Fvp.tree_maxPowerLevel]; decide) _
      (d := CompositePowerState.allRun (Fvp.tree.maxPowerLevel + 1))
      (by simp [CompositePowerState.allRun])).imp fun _ h => h.1⟩

end CompositePowerState

end RustedFirmware.Psci
