import RustedFirmware.Psci.Validation

set_option autoImplicit false

/-! What the walks up a CPU's locked ancestors write (`src/services/psci.rs`,
    `src/services/psci/power_domain_tree.rs`).

    `set_running` and `coordinate_state` walk the locked ancestors of a CPU from level 1 up: each
    step writes the node it holds and passes on what the next node has to record of its child.
    On a path of distinct nodes that hold the CPU in their `cpu_range`, each in the
    `non_cpu_range` of the next (`Topology.LockedPath`), no assert of the node setters fires and
    no step reads a node that an earlier step wrote. The result is then described node by node:
    the node at each position is what its step made of the node the walk started from, and every
    node off the path is as it was.

    Over the ancestors of a well-formed tree the descriptions are by power level:
    `setRunning_runs` is what a CPU's wake-up writes, and `coordinateState_coordinates` is the
    rule of platform-coordinated mode, each level taking the shallowest state its descendant
    CPUs request, up to the first level that has to run. -/

namespace RustedFirmware.Psci

open Rust PlatformPowerState

namespace PowerDomainTree

variable {σ ε : Type}

@[simp] theorem nonCpuPowerNodes_setNode (t : PowerDomainTree σ ε) (i : Nat)
    (node : NonCpuPowerNode σ) :
    (t.setNode i node).nonCpuPowerNodes = Function.update t.nonCpuPowerNodes i node := rfl

@[simp] theorem cpuPowerNodes_setNode (t : PowerDomainTree σ ε) (i : Nat)
    (node : NonCpuPowerNode σ) : (t.setNode i node).cpuPowerNodes = t.cpuPowerNodes := rfl

@[simp] theorem nonCpuPowerNodes_setCpu (t : PowerDomainTree σ ε) (i : Nat)
    (cpu : CpuPowerNode σ ε) : (t.setCpu i cpu).nonCpuPowerNodes = t.nonCpuPowerNodes := rfl

@[simp] theorem cpuPowerNodes_setCpu (t : PowerDomainTree σ ε) (i : Nat)
    (cpu : CpuPowerNode σ ε) :
    (t.setCpu i cpu).cpuPowerNodes = Function.update t.cpuPowerNodes i cpu := rfl

/-- A fact about the nodes at some indices survives the write of one node that keeps it. -/
theorem forall_setNode {p : Nat → Prop} {P : Nat → NonCpuPowerNode σ → Prop}
    {t : PowerDomainTree σ ε} {i : Nat} {node : NonCpuPowerNode σ}
    (h : ∀ n, p n → P n (t.nonCpuPowerNodes n))
    (hnode : p i → P i (t.nonCpuPowerNodes i) → P i node) :
    ∀ n, p n → P n ((t.setNode i node).nonCpuPowerNodes n) := by
  intro n hn
  by_cases hni : n = i
  · subst hni
    simpa using hnode hn (h n hn)
  · simpa [hni] using h n hn

end PowerDomainTree

/-! ### Locked paths -/

namespace Topology

/-- The nodes a CPU holds locked, lowest first: distinct, each with the CPU in its `cpu_range`,
    and each in the `non_cpu_range` of the next. -/
structure LockedPath (T : Topology) (cpu : Nat) (A : List Nat) : Prop where
  nodup : A.Nodup
  cpu_mem : ∀ i ∈ A, inRange (T.cpuRange i) cpu = true
  linked : A.IsChain fun child parent => inRange (T.nonCpuRange parent) child = true

variable {T : Topology} {cpu : Nat}

theorem LockedPath.tail {i : Nat} {A : List Nat} (h : T.LockedPath cpu (i :: A)) :
    T.LockedPath cpu A :=
  ⟨(List.nodup_cons.mp h.nodup).2, fun j hj => h.cpu_mem j (List.mem_cons_of_mem i hj),
    h.linked.tail⟩

/-- The head of a path is a child of the next node. -/
theorem LockedPath.head_linked {i : Nat} {A : List Nat} (h : T.LockedPath cpu (i :: A)) :
    ∀ j ∈ A.head?, inRange (T.nonCpuRange j) i = true :=
  (List.isChain_cons.mp h.linked).1

/-- Consecutive nodes of a chain are linked by `parent`. -/
theorem isChain_chain : ∀ (fuel : Nat) (start : Option Nat),
    (T.chain fuel start).IsChain fun a b => T.parent a = some b
  | 0, _ => List.IsChain.nil
  | _ + 1, none => by
    rw [chain_none]
    exact List.IsChain.nil
  | fuel + 1, some i => by
    rw [chain_succ_some, List.isChain_cons]
    refine ⟨fun j hj => ?_, isChain_chain fuel (T.parent i)⟩
    cases fuel with
    | zero => simp at hj
    | succ fuel =>
      cases hp : T.parent i with
      | none => simp [hp] at hj
      | some p => simpa [hp] using hj

/-- A CPU's ancestors up to any level are a locked path. -/
theorem WellFormed.lockedPath (hwf : T.WellFormed) (hcpu : cpu < T.cpuCount) (k : Nat) :
    T.LockedPath cpu ((T.ancestors cpu).take k) where
  nodup := (hwf.ancestors_nodup cpu hcpu).sublist (List.take_sublist k _)
  cpu_mem i hi :=
    have hmem := List.mem_of_mem_take hi
    (hwf.cpuRange_iff cpu hcpu i (hwf.ancestor_lt cpu hcpu i hmem)).mpr hmem
  linked := by
    apply List.IsChain.take
    rw [List.isChain_iff_getElem]
    intro p hp
    have hlt : ∀ q (hq : q < (T.ancestors cpu).length), (T.ancestors cpu)[q] < T.nonCpuCount :=
      fun q hq => hwf.ancestor_lt cpu hcpu _ (List.getElem_mem hq)
    have hparent := List.isChain_iff_getElem.mp
      (isChain_chain T.maxPowerLevel (some (T.cpuParent cpu))) p hp
    exact (hwf.nonCpuRange_iff _ (hlt (p + 1) hp) _ (hlt p (by omega))).mpr hparent

/-- The `p`-th locked ancestor is the ancestor at level `p + 1`. -/
theorem getElem_take_ancestors {k p : Nat} (hp : p < ((T.ancestors cpu).take k).length) :
    ((T.ancestors cpu).take k)[p] = T.levelAncestor cpu (p + 1) := by
  rw [List.length_take] at hp
  rw [List.getElem_take, levelAncestor, Nat.add_sub_cancel,
    List.getD_eq_getElem _ _ (by omega)]

/-- The child a walk up the locked ancestors passes to the node at position `p`, that is at level
    `p + 1`, is the child on the CPU's path there. -/
theorem pathChild_eq_getD {k p : Nat} (hp : p < ((T.ancestors cpu).take k).length) :
    (none :: ((T.ancestors cpu).take k).map some).getD p none = T.pathChild cpu (p + 1) := by
  cases p with
  | zero => rfl
  | succ q =>
    have hq : q < ((T.ancestors cpu).take k).length := by omega
    rw [List.getD_cons_succ, List.getD_eq_getElem _ _ (by simpa using hq), List.getElem_map,
      getElem_take_ancestors hq, pathChild, if_pos (by omega), Nat.add_sub_cancel]

end Topology

/-! ### The node setters on a locked path -/

namespace NonCpuPowerNode

variable {σ : Type} {T : Topology} {index cpu : Nat}

theorem checkCpu_eq (h : inRange (T.cpuRange index) cpu = true) :
    checkCpu T index cpu = .ok () := by
  simp [checkCpu, h]

theorem setRequestedPowerState_eq (h : inRange (T.cpuRange index) cpu = true)
    (node : NonCpuPowerNode σ) (s : σ) :
    node.setRequestedPowerState T index cpu s =
      .ok { node with requestedStates := Function.update node.requestedStates cpu s } := by
  simp only [setRequestedPowerState, checkCpu_eq h, ok_bind]
  rfl

theorem setSuspendState_eq (h : inRange (T.cpuRange index) cpu = true)
    (node : NonCpuPowerNode σ) (s : σ) :
    node.setSuspendState T index cpu s =
      .ok { node with suspendStates := Function.update node.suspendStates cpu (some s) } := by
  simp only [setSuspendState, checkCpu_eq h, ok_bind]
  rfl

theorem clearSuspendState_eq (h : inRange (T.cpuRange index) cpu = true)
    (node : NonCpuPowerNode σ) :
    node.clearSuspendState T index cpu =
      .ok { node with suspendStates := Function.update node.suspendStates cpu none } := by
  simp only [clearSuspendState, checkCpu_eq h, ok_bind]
  rfl

theorem setNonCpuState_eq {child : Nat} (h : inRange (T.nonCpuRange index) child = true)
    (node : NonCpuPowerNode σ) (s : σ) :
    node.setNonCpuState T index child s =
      .ok { node with nonCpuStates := Function.update node.nonCpuStates child s } := by
  simp only [setNonCpuState, h, if_true]
  rfl

/-- The shallowest of the descendant CPUs' requests, as `set_minimal_allowed_state` reads it, is
    the least of them. -/
theorem isLeast_requestedStates_of_min? [LinearOrder σ] {node : NonCpuPowerNode σ} {m : σ}
    (hm : ((rangeIndices (T.cpuRange index)).map node.requestedStates).min? = some m) :
    IsLeast {x | ∃ j, inRange (T.cpuRange index) j = true ∧ x = node.requestedStates j} m := by
  obtain ⟨hmem, hle⟩ := List.min?_eq_some_iff.mp hm
  refine ⟨?_, ?_⟩
  · obtain ⟨j, hj, rfl⟩ := List.mem_map.mp hmem
    exact ⟨j, mem_rangeIndices.mp hj, rfl⟩
  · rintro x ⟨j, hj, rfl⟩
    exact hle _ (List.mem_map_of_mem (mem_rangeIndices.mpr hj))

/-- A node with a descendant CPU takes the shallowest state its descendant CPUs request. -/
theorem setMinimalAllowedState_isLeast [LinearOrder σ] [PlatformPowerState σ]
    (h : inRange (T.cpuRange index) cpu = true)
    (node : NonCpuPowerNode σ) :
    ∃ m, node.setMinimalAllowedState T index = .ok (node.setLocalState m) ∧
      IsLeast {x | ∃ j, inRange (T.cpuRange index) j = true ∧ x = node.requestedStates j} m := by
  have hne : (rangeIndices (T.cpuRange index)).map node.requestedStates ≠ [] := by
    intro hnil
    have hmem := List.mem_map_of_mem (f := node.requestedStates) (mem_rangeIndices.mpr h)
    rw [hnil] at hmem
    cases hmem
  obtain ⟨m, hm⟩ := Option.ne_none_iff_exists'.mp (mt List.min?_eq_none_iff.mp hne)
  exact ⟨m, by simp only [setMinimalAllowedState, hm]; rfl, isLeast_requestedStates_of_min? hm⟩

/-! What a setter that did not fail wrote, whatever the node: the asserts it passed are not
    needed to say it. -/

variable {node node' : NonCpuPowerNode σ}

theorem setRequestedPowerState_eq_ok {s : σ}
    (h : node.setRequestedPowerState T index cpu s = .ok node') :
    node' = { node with requestedStates := Function.update node.requestedStates cpu s } := by
  obtain ⟨_, -, h⟩ := bind_eq_ok.mp h
  cases h
  rfl

theorem setSuspendState_eq_ok {s : σ} (h : node.setSuspendState T index cpu s = .ok node') :
    node' = { node with suspendStates := Function.update node.suspendStates cpu (some s) } := by
  obtain ⟨_, -, h⟩ := bind_eq_ok.mp h
  cases h
  rfl

theorem clearSuspendState_eq_ok (h : node.clearSuspendState T index cpu = .ok node') :
    node' = { node with suspendStates := Function.update node.suspendStates cpu none } := by
  obtain ⟨_, -, h⟩ := bind_eq_ok.mp h
  cases h
  rfl

theorem setNonCpuState_eq_ok {child : Nat} {s : σ}
    (h : node.setNonCpuState T index child s = .ok node') :
    node' = { node with nonCpuStates := Function.update node.nonCpuStates child s } := by
  unfold setNonCpuState at h
  split at h
  · cases h
    rfl
  · cases h

theorem setMinimalAllowedState_eq_ok [LinearOrder σ] [PlatformPowerState σ]
    (h : node.setMinimalAllowedState T index = .ok node') :
    ∃ m, node' = node.setLocalState m ∧
      IsLeast {x | ∃ j, inRange (T.cpuRange index) j = true ∧ x = node.requestedStates j} m := by
  unfold setMinimalAllowedState at h
  split at h
  · rename_i m hm
    cases h
    exact ⟨m, rfl, isLeast_requestedStates_of_min? hm⟩
  · cases h

end NonCpuPowerNode

/-! ### `set_running` -/

namespace NonCpuPowerNode

variable {σ : Type} [PlatformPowerState σ]

/-- What `set_running` makes of a locked node: it runs, the CPU requests `RUN` and has no
    OS-initiated vote there, and the child on the way up, if any, is recorded running. -/
def running (node : NonCpuPowerNode σ) (cpu : Nat) (child : Option Nat) : NonCpuPowerNode σ where
  localState := run
  requestedStates := Function.update node.requestedStates cpu run
  suspendStates := Function.update node.suspendStates cpu none
  nonCpuStates := child.elim node.nonCpuStates fun c => Function.update node.nonCpuStates c run

end NonCpuPowerNode

namespace AncestorPowerDomains

variable {σ ε : Type} [LinearOrder σ] [PlatformPowerState σ] {T : Topology} {cpu : Nat}

omit [LinearOrder σ] in
open NonCpuPowerNode in
/-- One step of `set_running` at a node that holds the CPU and the child. -/
theorem setRunning_loop_cons {i : Nat} {A : List Nat} {child : Option Nat}
    {t : PowerDomainTree σ ε} (hi : inRange (T.cpuRange i) cpu = true)
    (hchild : ∀ c ∈ child, inRange (T.nonCpuRange i) c = true) :
    setRunning.loop T cpu child (i :: A) t =
      setRunning.loop T cpu (some i) A (t.setNode i ((t.nonCpuPowerNodes i).running cpu child)) := by
  cases child with
  | none =>
    simp only [setRunning.loop, setRequestedPowerState_eq hi, clearSuspendState_eq hi, ok_bind,
      pure_eq_ok]
    rfl
  | some c =>
    simp only [setRunning.loop, setRequestedPowerState_eq hi, clearSuspendState_eq hi, ok_bind,
      setNonCpuState_eq (hchild c rfl)]
    rfl

omit [LinearOrder σ] in
/-- The walk of `set_running` up a locked path makes each node running and leaves every other
    node as it was. -/
theorem setRunning_loop_eq : ∀ (A : List Nat) (child : Option Nat) (t : PowerDomainTree σ ε),
    T.LockedPath cpu A → (∀ c ∈ child, ∀ i ∈ A.head?, inRange (T.nonCpuRange i) c = true) →
    ∃ t', setRunning.loop T cpu child A t = .ok t' ∧ t'.cpuPowerNodes = t.cpuPowerNodes ∧
      (∀ n, n ∉ A → t'.nonCpuPowerNodes n = t.nonCpuPowerNodes n) ∧
      ∀ p (hp : p < A.length), t'.nonCpuPowerNodes A[p] =
        (t.nonCpuPowerNodes A[p]).running cpu ((child :: A.map some).getD p none)
  | [], _, t, _, _ => ⟨t, rfl, rfl, fun _ _ => rfl, fun p hp => absurd hp (Nat.not_lt_zero p)⟩
  | i :: A, child, t, hA, hchild => by
    have hiA : i ∉ A := (List.nodup_cons.mp hA.nodup).1
    obtain ⟨t', hloop, hcpus, hframe, hpos⟩ := setRunning_loop_eq A (some i)
      (t.setNode i ((t.nonCpuPowerNodes i).running cpu child)) hA.tail
      (fun c hc j hj => by cases hc; exact hA.head_linked j hj)
    obtain ⟨hhead, hoff⟩ := Loop.update_cons_frame hiA hframe
    refine ⟨t', ?_, hcpus, hoff, fun p hp => ?_⟩
    · rw [setRunning_loop_cons (hA.cpu_mem i List.mem_cons_self) fun c hc => hchild c hc i rfl,
        hloop]
    · cases p with
      -- case: the node this step wrote, which no later step touches
      | zero => exact hhead
      -- case: a node of the rest of the path, read from the tree the walk started from
      | succ q =>
        have hq : q < A.length := by simpa using hp
        have hne : A[q] ≠ i := fun h => hiA (h ▸ List.getElem_mem hq)
        rw [List.getElem_cons_succ, hpos q hq, PowerDomainTree.nonCpuPowerNodes_setNode,
          Function.update_of_ne hne]
        rfl

omit [LinearOrder σ] in
/-- `set_running` on the ancestors of a CPU of a well-formed tree up to any level: every CPU
    node and every node above that level or off the CPU's path is as it was, and the ancestor at
    each level up to it runs, with the CPU requesting `RUN`, its OS-initiated vote cleared, and
    the child on the CPU's path recorded running. -/
theorem setRunning_runs (hwf : T.WellFormed) (hcpu : cpu < T.cpuCount) (k : Nat)
    (t : PowerDomainTree σ ε) :
    ∃ t', setRunning T cpu ((T.ancestors cpu).take k) t = .ok t' ∧
      t'.cpuPowerNodes = t.cpuPowerNodes ∧
      (∀ n, n ∉ (T.ancestors cpu).take k → t'.nonCpuPowerNodes n = t.nonCpuPowerNodes n) ∧
      ∀ l, 1 ≤ l → l ≤ min k T.maxPowerLevel → t'.nonCpuPowerNodes (T.levelAncestor cpu l) =
        (t.nonCpuPowerNodes (T.levelAncestor cpu l)).running cpu (T.pathChild cpu l) := by
  obtain ⟨t', hloop, hcpus, hframe, hpos⟩ :=
    setRunning_loop_eq _ none t (hwf.lockedPath hcpu k) (fun c hc => by cases hc)
  refine ⟨t', hloop, hcpus, hframe, fun l hl hlk => ?_⟩
  have hp : l - 1 < ((T.ancestors cpu).take k).length := by
    rw [List.length_take, hwf.length_ancestors hcpu]
    omega
  have hlevel := Topology.getElem_take_ancestors hp
  rw [Nat.sub_add_cancel hl] at hlevel
  have hchild := Topology.pathChild_eq_getD hp
  rw [Nat.sub_add_cancel hl] at hchild
  rw [← hlevel, hpos _ hp, hchild]

theorem setRunning_runs_fvp :
    Fvp.tree.WellFormed ∧ 0 < Fvp.tree.cpuCount ∧
      ∃ t', setRunning Fvp.tree 0 ((Fvp.tree.ancestors 0).take Fvp.tree.maxPowerLevel)
        (PowerDomainTree.new : PowerDomainTree Fvp.FvpPowerState Nat) = .ok t' :=
  ⟨Fvp.tree_wellFormed, by decide,
    (setRunning_runs Fvp.tree_wellFormed (by decide) _ _).imp fun _ h => h.1⟩

end AncestorPowerDomains

/-! ### `coordinate_state` -/

namespace NonCpuPowerNode

variable {σ : Type} [LinearOrder σ] [PlatformPowerState σ]

/-- What a step of `coordinate_state` makes of the node `index`, from `node` to `node'`, when
    the CPU votes `vote`, the step below passes `child` and the composite's state for the level
    becomes `s`. The vote and the child's state are recorded. While the levels below are
    `coordinated`, none of them having to run, the node takes the shallowest state its
    descendant CPUs request and the composite takes it too; above, the node keeps its state and
    the composite's is `RUN`. -/
structure CoordinatedNode (T : Topology) (index cpu : Nat) (vote : σ) (child : Option (Nat × σ))
    (coordinated : Prop) (s : σ) (node node' : NonCpuPowerNode σ) : Prop where
  requestedStates_eq : node'.requestedStates = Function.update node.requestedStates cpu vote
  suspendStates_eq : node'.suspendStates = node.suspendStates
  nonCpuStates_eq : node'.nonCpuStates =
    child.elim node.nonCpuStates fun c => Function.update node.nonCpuStates c.1 c.2
  of_coordinated : coordinated → node'.localState = s ∧
    IsLeast {x | ∃ j, inRange (T.cpuRange index) j = true ∧ x = node'.requestedStates j} s
  of_not_coordinated : ¬coordinated → node'.localState = node.localState ∧ s = run

variable {T : Topology} {index cpu : Nat} {vote s : σ} {child : Option (Nat × σ)}
  {node node' : NonCpuPowerNode σ} {P Q : Prop}

theorem CoordinatedNode.of_iff (h : CoordinatedNode T index cpu vote child P s node node')
    (hPQ : P ↔ Q) : CoordinatedNode T index cpu vote child Q s node node' :=
  ⟨h.requestedStates_eq, h.suspendStates_eq, h.nonCpuStates_eq,
    fun hQ => h.of_coordinated (hPQ.mpr hQ), fun hQ => h.of_not_coordinated (mt hPQ.mp hQ)⟩

end NonCpuPowerNode

namespace CompositePowerState

variable {σ ε : Type} [LinearOrder σ] [PlatformPowerState σ] {T : Topology} {cpu : Nat}

open NonCpuPowerNode

/-- One step of `coordinate_state` at a node that holds the CPU and the child: the node becomes
    what `CoordinatedNode` says, and the walk goes on with the composite's state for the level
    as the child's, stopping the coordination once a level has to run. -/
theorem coordinateLoop_cons {i : Nat} {A : List Nat} {s : σ} {S : List σ} {b : Bool}
    {child : Option (Nat × σ)} {t : PowerDomainTree σ ε} (hi : inRange (T.cpuRange i) cpu = true)
    (hchild : ∀ c ∈ child, inRange (T.nonCpuRange i) c.1 = true) :
    ∃ node s', CoordinatedNode T i cpu s child (b = false) s' (t.nonCpuPowerNodes i) node ∧
      coordinateLoop T cpu b child (i :: A) (s :: S) t =
        coordinateLoop T cpu (b || powerStateType s' == .run) (some (i, s')) A S
          (t.setNode i node) >>= fun r => pure (s' :: r.1, r.2) := by
  -- the vote is recorded first, whatever the level
  obtain ⟨node₁, hreq, hreqStates, hlocal₁, hsuspend₁, hnonCpu₁⟩ : ∃ n,
      (t.nonCpuPowerNodes i).setRequestedPowerState T i cpu s = .ok n ∧
      n.requestedStates = Function.update (t.nonCpuPowerNodes i).requestedStates cpu s ∧
      n.localState = (t.nonCpuPowerNodes i).localState ∧
      n.suspendStates = (t.nonCpuPowerNodes i).suspendStates ∧
      n.nonCpuStates = (t.nonCpuPowerNodes i).nonCpuStates :=
    ⟨_, setRequestedPowerState_eq hi _ _, rfl, rfl, rfl, rfl⟩
  cases b with
  -- case: the levels below are coordinated, and this one takes the shallowest request
  | false =>
    obtain ⟨m, hmin, hleast⟩ := setMinimalAllowedState_isLeast hi node₁
    cases child with
    | none =>
      refine ⟨node₁.setLocalState m, m, ⟨hreqStates, hsuspend₁, hnonCpu₁,
        fun _ => ⟨rfl, hleast⟩, fun h => absurd rfl h⟩, ?_⟩
      simp only [coordinateLoop, hreq, ok_bind, hmin, Bool.not_false, ↓reduceIte, pure_eq_ok]
      rfl
    | some c =>
      refine ⟨{ node₁.setLocalState m with
        nonCpuStates := Function.update node₁.nonCpuStates c.1 c.2 }, m,
        ⟨hreqStates, hsuspend₁, by rw [hnonCpu₁]; rfl, fun _ => ⟨rfl, hleast⟩,
          fun h => absurd rfl h⟩, ?_⟩
      simp only [coordinateLoop, hreq, ok_bind, hmin, Bool.not_false, ↓reduceIte, pure_eq_ok,
        setNonCpuState_eq (hchild c rfl)]
      rfl
  -- case: a level below has to run, and this one only records the vote
  | true =>
    cases child with
    | none =>
      refine ⟨node₁, run, ⟨hreqStates, hsuspend₁, hnonCpu₁, fun h => Bool.noConfusion h,
        fun _ => ⟨hlocal₁, rfl⟩⟩, ?_⟩
      simp only [coordinateLoop, hreq, ok_bind, Bool.not_true, pure_eq_ok]
      rfl
    | some c =>
      refine ⟨{ node₁ with nonCpuStates := Function.update node₁.nonCpuStates c.1 c.2 }, run,
        ⟨hreqStates, hsuspend₁, by rw [hnonCpu₁]; rfl, fun h => Bool.noConfusion h,
          fun _ => ⟨hlocal₁, rfl⟩⟩, ?_⟩
      simp only [coordinateLoop, hreq, ok_bind, Bool.not_true, pure_eq_ok,
        setNonCpuState_eq (hchild c rfl)]
      rfl

/-- The walk of `coordinate_state` up a locked path: the node at each position is what its step
    made of the node the walk started from, coordinated as long as no lower position has to
    run, and every other node is as it was. The composite's states past the path are kept. -/
theorem coordinateLoop_spec : ∀ (A : List Nat) (S : List σ) (b : Bool) (child : Option (Nat × σ))
    (t : PowerDomainTree σ ε), T.LockedPath cpu A → A.length ≤ S.length →
    (∀ c ∈ child, ∀ i ∈ A.head?, inRange (T.nonCpuRange i) c.1 = true) →
    ∃ S' t', coordinateLoop T cpu b child A S t = .ok (S', t') ∧ S'.length = S.length ∧
      S'.drop A.length = S.drop A.length ∧ t'.cpuPowerNodes = t.cpuPowerNodes ∧
      (∀ n, n ∉ A → t'.nonCpuPowerNodes n = t.nonCpuPowerNodes n) ∧
      ∀ p (hp : p < A.length), CoordinatedNode T A[p] cpu (S.getD p run)
        ((child :: (A.zip S').map some).getD p none)
        (b = false ∧ ∀ q < p, powerStateType (S'.getD q run) ≠ .run) (S'.getD p run)
        (t.nonCpuPowerNodes A[p]) (t'.nonCpuPowerNodes A[p])
  | [], S, _, _, t, _, _, _ =>
    ⟨S, t, rfl, rfl, rfl, rfl, fun _ _ => rfl, fun p hp => absurd hp (Nat.not_lt_zero p)⟩
  | _ :: _, [], _, _, _, _, hlen, _ => absurd hlen (by simp)
  | i :: A, s :: S, b, child, t, hA, hlen, hchild => by
    have hiA : i ∉ A := (List.nodup_cons.mp hA.nodup).1
    obtain ⟨node, s', hnode, hstep⟩ := coordinateLoop_cons (A := A) (S := S) (b := b)
      (hA.cpu_mem i List.mem_cons_self) fun c hc => hchild c hc i rfl
    obtain ⟨S', t', hloop, hlen', hdrop, hcpus, hframe, hpos⟩ :=
      coordinateLoop_spec A S (b || powerStateType s' == .run) (some (i, s')) (t.setNode i node)
        hA.tail (by simpa using hlen) (fun c hc j hj => by cases hc; exact hA.head_linked j hj)
    obtain ⟨hhead, hoff⟩ := Loop.update_cons_frame hiA hframe
    refine ⟨s' :: S', t', by rw [hstep, hloop]; rfl, by simp [hlen'], by simpa using hdrop, hcpus,
      hoff, fun p hp => ?_⟩
    cases p with
    -- case: the node this step wrote, which no later step touches
    | zero =>
      rw [List.getElem_cons_zero, hhead]
      exact hnode.of_iff (by simp)
    -- case: a node of the rest of the path, read from the tree the walk started from
    | succ q =>
      have hq : q < A.length := by simpa using hp
      have hne : A[q] ≠ i := fun h => hiA (h ▸ List.getElem_mem hq)
      have h := hpos q hq
      rw [PowerDomainTree.nonCpuPowerNodes_setNode, Function.update_of_ne hne] at h
      refine h.of_iff ?_
      -- the coordination goes on past this level exactly when the level need not run
      rw [Bool.or_eq_false_iff, beq_eq_false_iff_ne, and_assoc]
      constructor
      · rintro ⟨hb, hs', hbelow⟩
        refine ⟨hb, fun q' hq' => ?_⟩
        cases q' with
        | zero => exact hs'
        | succ q' => exact hbelow q' (by omega)
      · rintro ⟨hb, hbelow⟩
        exact ⟨hb, hbelow 0 (Nat.zero_lt_succ q), fun q' hq' => hbelow (q' + 1) (by omega)⟩

omit [LinearOrder σ] in
/-- The `p`-th entry of the children a walk passes on is the node below and its new state. -/
theorem getD_zip_map_some {A : List Nat} {S' : List σ} {q : Nat} (hq : q < A.length)
    (hlen : A.length ≤ S'.length) :
    ((A.zip S').map some).getD q none = some (A[q], S'.getD q run) := by
  rw [List.getD_eq_getElem _ _ (by simp; omega), List.getElem_map, List.getElem_zip,
    List.getD_eq_getElem _ _ (by omega)]

/-- Platform-coordinated `coordinate_state` on the ancestors of a CPU of a well-formed tree up to
    a level `k`, for a composite with a state per level: the composite keeps its CPU-level
    state, its last power level and its states above `k`, every CPU node and every node off the
    locked ancestors is as it was, and at each level up to `k` the ancestor records the CPU's
    vote and the new state of the child on the CPU's path; while no lower level has to run it
    takes the shallowest state its descendant CPUs now request and the composite takes that
    state, and from the first level that has to run up the ancestors keep their states and the
    composite's are `RUN`. -/
theorem coordinateState_coordinates (hwf : T.WellFormed) (hcpu : cpu < T.cpuCount)
    {c : CompositePowerState σ} (hlen : c.states.length = T.maxPowerLevel + 1) {k : Nat}
    (hk : k ≤ T.maxPowerLevel) (t : PowerDomainTree σ ε) :
    ∃ c' t', c.coordinateState T cpu ((T.ancestors cpu).take k) t = .ok (c', t') ∧
      c'.lastAtPowerLevel = c.lastAtPowerLevel ∧ c'.states.length = c.states.length ∧
      (∀ l, l = 0 ∨ k < l → c'.states.getD l run = c.states.getD l run) ∧
      t'.cpuPowerNodes = t.cpuPowerNodes ∧
      (∀ n, n ∉ (T.ancestors cpu).take k → t'.nonCpuPowerNodes n = t.nonCpuPowerNodes n) ∧
      ∀ l, 1 ≤ l → l ≤ k → CoordinatedNode T (T.levelAncestor cpu l) cpu (c.states.getD l run)
        ((T.pathChild cpu l).map fun m => (m, c'.states.getD (l - 1) run))
        (∀ l', 1 ≤ l' → l' < l → powerStateType (c'.states.getD l' run) ≠ .run)
        (c'.states.getD l run) (t.nonCpuPowerNodes (T.levelAncestor cpu l))
        (t'.nonCpuPowerNodes (T.levelAncestor cpu l)) := by
  obtain ⟨s0, rest, hc⟩ : ∃ s0 rest, c.states = s0 :: rest := by
    cases hcs : c.states with
    | nil => rw [hcs] at hlen; cases hlen
    | cons s0 rest => exact ⟨s0, rest, rfl⟩
  have hrest : rest.length = T.maxPowerLevel := by
    rw [hc, List.length_cons] at hlen
    omega
  have hA : ((T.ancestors cpu).take k).length = k := by
    rw [List.length_take, hwf.length_ancestors hcpu]
    omega
  obtain ⟨S', t', hloop, hlen', hdrop, hcpus, hframe, hpos⟩ :=
    coordinateLoop_spec _ rest false none t (hwf.lockedPath hcpu k) (by omega)
      (fun c hc => by cases hc)
  refine ⟨{ c with states := s0 :: S' }, t', ?_, rfl, by simp [hc, hlen'], fun l hl => ?_,
    hcpus, hframe, fun l hl hlk => ?_⟩
  · simp only [coordinateState, hc, hloop, ok_bind]
    rfl
  -- the CPU level and the levels past the locked ancestors are not rewritten
  · rcases hl with rfl | hkl
    · simp [hc]
    · obtain ⟨q, rfl⟩ : ∃ q, l = q + 1 := ⟨l - 1, by omega⟩
      have hS' : S'.getD q run = rest.getD q run := by
        rw [List.getD_eq_getElem?_getD, List.getD_eq_getElem?_getD,
          show q = k + (q - k) by omega, ← List.getElem?_drop, ← List.getElem?_drop, ← hA, hdrop]
      simpa [hc] using hS'
  -- the ancestor at level `l` is the walk's position `l - 1`
  · obtain ⟨p, rfl⟩ : ∃ p, l = p + 1 := ⟨l - 1, by omega⟩
    have hp : p < ((T.ancestors cpu).take k).length := by omega
    have h := hpos p hp
    rw [Topology.getElem_take_ancestors hp] at h
    have hchild : (none :: (((T.ancestors cpu).take k).zip S').map some).getD p none =
        (T.pathChild cpu (p + 1)).map fun m => (m, (s0 :: S').getD (p + 1 - 1) run) := by
      cases p with
      | zero => rfl
      | succ q =>
        rw [List.getD_cons_succ, getD_zip_map_some (by omega) (by omega),
          Topology.getElem_take_ancestors (by omega), Topology.pathChild, if_pos (by omega)]
        rfl
    rw [hchild] at h
    rw [hc]
    refine h.of_iff ?_
    constructor
    · rintro ⟨-, hbelow⟩ l' hl' hl'p
      obtain ⟨q, rfl⟩ : ∃ q, l' = q + 1 := ⟨l' - 1, by omega⟩
      exact hbelow q (by omega)
    · intro hbelow
      exact ⟨rfl, fun q hq => hbelow (q + 1) (by omega) (by omega)⟩

theorem coordinateState_coordinates_fvp :
    Fvp.tree.WellFormed ∧ 0 < Fvp.tree.cpuCount ∧
      [Fvp.FvpPowerState.off, .off, .run].length = Fvp.tree.maxPowerLevel + 1 ∧
      Fvp.tree.maxPowerLevel ≤ Fvp.tree.maxPowerLevel ∧
      ∃ c' t', coordinateState Fvp.tree
        (⟨[.off, .off, .run], none⟩ : CompositePowerState Fvp.FvpPowerState) 0
        ((Fvp.tree.ancestors 0).take Fvp.tree.maxPowerLevel)
        (PowerDomainTree.new : PowerDomainTree Fvp.FvpPowerState Nat) = .ok (c', t') :=
  ⟨Fvp.tree_wellFormed, by decide, by rw [Fvp.tree_maxPowerLevel]; rfl, le_rfl,
    (coordinateState_coordinates Fvp.tree_wellFormed (by decide)
      (by rw [Fvp.tree_maxPowerLevel]; rfl) le_rfl _).imp fun _ h => h.imp fun _ h => h.1⟩

end CompositePowerState

end RustedFirmware.Psci
