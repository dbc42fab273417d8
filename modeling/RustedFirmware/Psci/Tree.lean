import RustedFirmware.Psci.PowerState

set_option autoImplicit false

/-! The power domain tree (`src/services/psci/power_domain_tree.rs`).

    The tree has a node for each CPU and one for each power domain above the CPUs, levels
    `1..=MAX_POWER_LEVEL`. `PowerDomainTree::new` lays it out from the platform's BFS topology and
    fixes each node's parent and the ranges of a non-CPU node's descendant CPUs and direct non-CPU
    children; nothing changes them afterwards. They are the `Topology`. The rest of each node is
    its state: a non-CPU node's local state, the requested and OS-initiated suspend states of its
    descendant CPUs (arrays indexed by `cpu_index - cpu_range.start`, here functions of the CPU
    index, which every setter first checks to lie in the range) and copies of the states of its
    non-CPU children; a CPU node's affinity, local state and entry point.

    Every node sits behind its own spin lock. `AncestorPowerDomains` holds the locks of a CPU's
    ancestors from level 1 up to some level, lowest first; its operations act on the tree through
    those guards, so the model passes the locked indices and the tree. -/

namespace RustedFirmware.Psci

open Rust PlatformPowerState

/-- `Range::contains` for the range `r.1..r.2`. -/
def inRange (r : Nat × Nat) (x : Nat) : Bool := r.1 ≤ x && x < r.2

/-- The indices of the range `r.1..r.2`, in order. -/
def rangeIndices (r : Nat × Nat) : List Nat := List.range' r.1 (r.2 - r.1)

@[simp] theorem mem_rangeIndices {r : Nat × Nat} {x : Nat} :
    x ∈ rangeIndices r ↔ inRange r x = true := by
  simp only [rangeIndices, List.mem_range'_1, inRange, Bool.and_eq_true, decide_eq_true_eq]
  omega

/-- The fields of the tree's nodes that `PowerDomainTree::new` fixes: the parent of each CPU node
    and of each non-CPU node, each non-CPU node's `cpu_range` and `non_cpu_range`, and the lengths
    of its state arrays: `requested_states` and `suspend_states`, which `assign_cpu` pushes to
    together, and `non_cpu_states`. -/
structure Topology where
  maxPowerLevel : Nat
  cpuCount : Nat
  nonCpuCount : Nat
  cpuParent : Nat → Nat
  parent : Nat → Option Nat
  cpuRange : Nat → Nat × Nat
  nonCpuRange : Nat → Nat × Nat
  cpuStatesLength : Nat → Nat
  nonCpuStatesLength : Nat → Nat
  deriving Inhabited

namespace Topology

variable (T : Topology)

/-- The non-CPU nodes from `start` up through the parents, at most `fuel` of them. -/
def chain : (fuel : Nat) → Option Nat → List Nat
  | 0, _ => []
  | _ + 1, none => []
  | fuel + 1, some i => i :: chain fuel (T.parent i)

/-- The ancestors of a CPU, from its parent at level 1 up to level `MAX_POWER_LEVEL`. -/
def ancestors (cpu : Nat) : List Nat := T.chain T.maxPowerLevel (some (T.cpuParent cpu))

/-- A tree `PowerDomainTree::new` builds from a well-formed BFS topology: every CPU has one
    ancestor at each level and the top one has no parent; a non-CPU node's `cpu_range` holds
    exactly the CPUs below it and is not empty, and its `non_cpu_range` exactly its children. -/
structure WellFormed : Prop where
  maxPowerLevel_pos : 0 < T.maxPowerLevel
  chain_length : ∀ c < T.cpuCount,
    (T.chain (T.maxPowerLevel + 1) (some (T.cpuParent c))).length = T.maxPowerLevel
  ancestors_nodup : ∀ c < T.cpuCount, (T.ancestors c).Nodup
  ancestor_lt : ∀ c < T.cpuCount, ∀ n ∈ T.ancestors c, n < T.nonCpuCount
  cpuRange_iff : ∀ c < T.cpuCount, ∀ n < T.nonCpuCount,
    inRange (T.cpuRange n) c = true ↔ n ∈ T.ancestors c
  cpuRange_le : ∀ n < T.nonCpuCount, (T.cpuRange n).2 ≤ T.cpuCount
  cpuRange_nonempty : ∀ n < T.nonCpuCount, (T.cpuRange n).1 < (T.cpuRange n).2
  nonCpuRange_le : ∀ n < T.nonCpuCount, (T.nonCpuRange n).2 ≤ T.nonCpuCount
  nonCpuRange_iff : ∀ n < T.nonCpuCount, ∀ m < T.nonCpuCount,
    inRange (T.nonCpuRange n) m = true ↔ T.parent m = some n

end Topology

/-! ### Building the links from the BFS topology

    `PowerDomainTree::new` reads the platform's topology, the number of children of each node in
    BFS order (the first entry counts the top nodes), creates the non-CPU nodes level by level
    from the top and then the CPUs, extending the ranges of the parents as it goes. The node
    arrays hold what the loops created; `cpuCount` and `nonCpuCount` are their lengths, which
    the loops bound by `CPU_DOMAIN_COUNT` and `NON_CPU_DOMAIN_COUNT`. The parent index is a
    `NodeIndex`, whose arithmetic panics outside `0..=NodeIndexInterface::MAX`. -/

namespace NodeIndex

/-- `a + b` on `NodeIndex`, whose largest value is `nodeIndexMax`: past it the addition panics,
    as it does on `u8` and `u16` under the build's `overflow-checks`. -/
def add (nodeIndexMax a b : Nat) : Except Panic Nat :=
  if a + b ≤ nodeIndexMax then pure (a + b) else throw (.explicit "attempt to add with overflow")

/-- `a - b` on `NodeIndex`, which panics below zero. -/
def sub (a b : Nat) : Except Panic Nat :=
  if b ≤ a then pure (a - b) else throw (.explicit "attempt to subtract with overflow")

theorem add_eq_ok {nodeIndexMax a b c : Nat} :
    add nodeIndexMax a b = .ok c ↔ a + b ≤ nodeIndexMax ∧ c = a + b := by
  unfold add
  split_ifs with h
  · simp [h, eq_comm]
  · simp [h]

theorem add_of_le {nodeIndexMax a b : Nat} (h : a + b ≤ nodeIndexMax) :
    add nodeIndexMax a b = .ok (a + b) :=
  add_eq_ok.mpr ⟨h, rfl⟩

@[simp] theorem sub_succ_one (a : Nat) : sub (a + 1) 1 = .ok a := by
  simp [sub]

end NodeIndex

namespace Topology

/-- `assign_cpu` and `assign_non_cpu` of `NonCpuPowerNode`: an empty range becomes the index
    alone, another grows by one at its end. The ends stay within `CPU_DOMAIN_COUNT` and
    `NON_CPU_DOMAIN_COUNT`, which the constant asserts of `new` bound by `NodeIndexInterface::MAX`,
    so these additions do not overflow. -/
def extendRange (r : Nat × Nat) (index : Nat) : Nat × Nat :=
  if r.1 < r.2 then (r.1, r.2 + 1) else (index, index + 1)

/-- `assign_cpu` of `PowerDomainTree`: the CPU joins the range of the node `index` and of every
    node above it, each pushing one entry to its `requested_states` and `suspend_states`. A parent
    is created before its children, so the walk up visits at most `fuel = nonCpuCount` nodes. -/
def assignCpu (T : Topology) (cpu : Nat) : (fuel : Nat) → Nat → Except Panic Topology
  | 0, _ => pure T
  | fuel + 1, index =>
    if index < T.nonCpuCount then
      let T := { T with
        cpuRange := Function.update T.cpuRange index (extendRange (T.cpuRange index) cpu)
        cpuStatesLength := Function.update T.cpuStatesLength index (T.cpuStatesLength index + 1) }
      match T.parent index with
      | some p => assignCpu T cpu fuel p
      | none => pure T
    else throw .indexOutOfBounds

/-- One node of the non-CPU loop: its `child_count` entry of the topology (an index past the
    end panics) creates that many nodes, as long as indices below `nonCpuDomainCount` are left,
    each with the current parent, which records it as a child and pushes an entry to its
    `non_cpu_states`. It returns the next node index and the count for the next level. -/
def createChildren (topology : List Nat) (nonCpuDomainCount : Nat) (T : Topology)
    (nodeIndex parentNodeIndex : Nat) (parentNode : Option Nat) :
    Except Panic (Topology × Nat × Nat) := do
  let childCount ← index topology parentNodeIndex
  let created := min childCount (nonCpuDomainCount - nodeIndex)
  let T := (List.range' nodeIndex created).foldl (fun T i =>
    let T := { T with parent := Function.update T.parent i parentNode }
    match parentNode with
    | some p =>
      { T with
        nonCpuRange := Function.update T.nonCpuRange p (extendRange (T.nonCpuRange p) i)
        nonCpuStatesLength :=
          Function.update T.nonCpuStatesLength p (T.nonCpuStatesLength p + 1) }
    | none => T) T
  pure (T, nodeIndex + created, childCount)

/-- The loop over the `nodeCount` nodes of one level. The node whose children come next is
    `parent_node_index - 1`, as the first entry of the topology counts the top nodes. The count
    of the next level is a `usize` and the parent index a `NodeIndex`. -/
def levelLoop (topology : List Nat) (nonCpuDomainCount nodeIndexMax : Nat) :
    (nodeCount : Nat) → Topology → (nodeIndex parentNodeIndex : Nat) → Option Nat →
    (nextLevelNodeCount : Nat) → Except Panic (Topology × Nat × Nat × Option Nat × Nat)
  | 0, T, nodeIndex, parentNodeIndex, parentNode, next =>
    pure (T, nodeIndex, parentNodeIndex, parentNode, next)
  | k + 1, T, nodeIndex, parentNodeIndex, parentNode, next => do
    let (T, nodeIndex, childCount) ←
      createChildren topology nonCpuDomainCount T nodeIndex parentNodeIndex parentNode
    let next ← Usize.add next childCount
    let parentNodeIndex' ← NodeIndex.add nodeIndexMax parentNodeIndex 1
    levelLoop topology nonCpuDomainCount nodeIndexMax k T nodeIndex parentNodeIndex'
      (some parentNodeIndex) next

/-- The loop over the levels, from `MAX_POWER_LEVEL` down to 1. -/
def nonCpuLoop (topology : List Nat) (nonCpuDomainCount nodeIndexMax : Nat) : (levels : Nat) →
    Topology → (nodeIndex nodeCount parentNodeIndex : Nat) → Option Nat →
    Except Panic (Topology × Nat × Nat)
  | 0, T, nodeIndex, _, parentNodeIndex, _ => pure (T, nodeIndex, parentNodeIndex)
  | levels + 1, T, nodeIndex, nodeCount, parentNodeIndex, parentNode => do
    let (T, nodeIndex, parentNodeIndex, parentNode, next) ← levelLoop topology nonCpuDomainCount
      nodeIndexMax nodeCount T nodeIndex parentNodeIndex parentNode 0
    nonCpuLoop topology nonCpuDomainCount nodeIndexMax levels T nodeIndex next parentNodeIndex
      parentNode

/-- The CPU loop: each remaining entry of the topology gives the CPUs of the next level 1 node,
    `parent_node_index - 1`, as long as indices below `cpuDomainCount` are left. -/
def cpuLoop (cpuDomainCount nodeIndexMax : Nat) : List Nat → Topology →
    (parentNodeIndex nextCpu : Nat) → Except Panic (Topology × Nat)
  | [], T, _, nextCpu => pure (T, nextCpu)
  | numChildren :: rest, T, parentNodeIndex, nextCpu => do
    let created := min numChildren (cpuDomainCount - nextCpu)
    let T ← (List.range' nextCpu created).foldlM (fun T cpu => do
      let parent ← NodeIndex.sub parentNodeIndex 1
      let T := { T with cpuParent := Function.update T.cpuParent cpu parent }
      T.assignCpu cpu T.nonCpuCount parent) T
    let parentNodeIndex ← NodeIndex.add nodeIndexMax parentNodeIndex 1
    cpuLoop cpuDomainCount nodeIndexMax rest T parentNodeIndex (nextCpu + created)

/-- The links `PowerDomainTree::new` builds from the BFS `topology`, with at most
    `CPU_DOMAIN_COUNT` CPUs and `NON_CPU_DOMAIN_COUNT` other nodes over `MAX_POWER_LEVEL`
    levels, its node indices a `NodeIndex` of largest value `nodeIndexMax`. Slicing the topology
    past its end panics. -/
def ofBfs (maxPowerLevel cpuDomainCount nonCpuDomainCount nodeIndexMax : Nat)
    (topology : List Nat) : Except Panic Topology := do
  let T : Topology := ⟨maxPowerLevel, 0, 0, fun _ => 0, fun _ => none,
    fun _ => (0, 0), fun _ => (0, 0), fun _ => 0, fun _ => 0⟩
  let (T, nonCpuCount, parentNodeIndex) ←
    nonCpuLoop topology nonCpuDomainCount nodeIndexMax maxPowerLevel T 0 1 0 none
  if parentNodeIndex ≤ topology.length then
    let (T, cpuCount) ← cpuLoop cpuDomainCount nodeIndexMax (topology.drop parentNodeIndex)
      { T with nonCpuCount := nonCpuCount } parentNodeIndex 0
    pure { T with cpuCount := cpuCount }
  else throw .indexOutOfBounds

end Topology

/-- `AffinityInfo`: whether a CPU is on, off or being turned on. -/
inductive AffinityInfo where
  | on
  | off
  | onPending
  deriving DecidableEq, Repr

/-- The state of a `NonCpuPowerNode`: its local state, the requested and OS-initiated suspend
    states of its descendant CPUs, by CPU index, and the copies of its non-CPU children's states,
    by node index. -/
structure NonCpuPowerNode (σ : Type) where
  localState : σ
  requestedStates : Nat → σ
  suspendStates : Nat → Option σ
  nonCpuStates : Nat → σ

/-- The state of a `CpuPowerNode`. -/
structure CpuPowerNode (σ ε : Type) where
  affinityInfo : AffinityInfo
  localState : σ
  entryPoint : Option ε

namespace NonCpuPowerNode

variable {σ : Type} [LinearOrder σ] [PlatformPowerState σ] (T : Topology)

/-- `NonCpuPowerNode::new` with `assign_cpu` and `assign_non_cpu`: everything `OFF`. -/
def new : NonCpuPowerNode σ := ⟨off, fun _ => off, fun _ => none, fun _ => off⟩

/-- The assert of the setters indexed by a CPU. -/
def checkCpu (index cpu : Nat) : Except Panic Unit :=
  if inRange (T.cpuRange index) cpu then pure ()
  else throw (.assertFailed "self.cpu_range.contains(&cpu_index)")

/-- `set_requested_power_state`. -/
def setRequestedPowerState (index : Nat) (node : NonCpuPowerNode σ) (cpu : Nat) (s : σ) :
    Except Panic (NonCpuPowerNode σ) := do
  checkCpu T index cpu
  pure { node with requestedStates := Function.update node.requestedStates cpu s }

/-- `set_suspend_state`. -/
def setSuspendState (index : Nat) (node : NonCpuPowerNode σ) (cpu : Nat) (s : σ) :
    Except Panic (NonCpuPowerNode σ) := do
  checkCpu T index cpu
  pure { node with suspendStates := Function.update node.suspendStates cpu (some s) }

/-- `clear_suspend_state`. -/
def clearSuspendState (index : Nat) (node : NonCpuPowerNode σ) (cpu : Nat) :
    Except Panic (NonCpuPowerNode σ) := do
  checkCpu T index cpu
  pure { node with suspendStates := Function.update node.suspendStates cpu none }

/-- `set_non_cpu_state`. -/
def setNonCpuState (index : Nat) (node : NonCpuPowerNode σ) (child : Nat) (s : σ) :
    Except Panic (NonCpuPowerNode σ) :=
  if inRange (T.nonCpuRange index) child then
    pure { node with nonCpuStates := Function.update node.nonCpuStates child s }
  else throw (.assertFailed "self.non_cpu_range.contains(&non_cpu_index)")

/-- `set_local_state`. -/
def setLocalState (node : NonCpuPowerNode σ) (s : σ) : NonCpuPowerNode σ :=
  { node with localState := s }

/-- `set_minimal_allowed_state`: the shallowest requested state of the descendant CPUs. -/
def setMinimalAllowedState (index : Nat) (node : NonCpuPowerNode σ) :
    Except Panic (NonCpuPowerNode σ) :=
  match ((rangeIndices (T.cpuRange index)).map node.requestedStates).min? with
  | some s => pure (node.setLocalState s)
  | none => throw .unwrapFailed

/-- What a descendant CPU allows in `get_osi_minimal_allowed_state_without_core`: its requested
    state if that is not `RUN`, with no OS-initiated vote beside it; else its OS-initiated vote,
    else `RUN`. -/
def osiVote (node : NonCpuPowerNode σ) (cpu : Nat) : Except Panic σ :=
  if node.requestedStates cpu ≠ run then
    if (node.suspendStates cpu).isNone then pure (node.requestedStates cpu)
    else throw (.assertFailed "suspend_state.is_none()")
  else pure ((node.suspendStates cpu).getD run)

/-- `get_osi_minimal_allowed_state_without_core`: the shallowest state the descendant CPUs other
    than `cpu` allow, and with `nonCpuIndex` the states of the non-CPU children other than it. -/
def getOsiMinimalAllowedStateWithoutCore (index : Nat) (node : NonCpuPowerNode σ) (cpu : Nat)
    (nonCpuIndex : Option Nat) : Except Panic σ := do
  let start := (T.cpuRange index).1
  let minCpuState ← ((rangeIndices (T.cpuRange index)).filter fun j => j - start != cpu - start)
    |>.foldlM (fun acc j => do
      let v ← node.osiVote j
      pure (min acc v)) off
  match nonCpuIndex with
  | some k =>
    pure (((rangeIndices (T.nonCpuRange index)).filter fun m => m != k).foldl
      (fun acc m => min acc (node.nonCpuStates m)) minCpuState)
  | none => pure minCpuState

/-- `is_last_cpu_to_idle`. -/
def isLastCpuToIdle (index : Nat) (node : NonCpuPowerNode σ) (cpu : Nat)
    (nonCpuIndex : Option Nat) : Except Panic Bool := do
  let s ← node.getOsiMinimalAllowedStateWithoutCore T index cpu nonCpuIndex
  pure (s != run)

end NonCpuPowerNode

namespace CpuPowerNode

variable {σ ε : Type} [PlatformPowerState σ]

/-- `CpuPowerNode::new`. -/
def new : CpuPowerNode σ ε := ⟨.off, off, none⟩

/-- `set_entry_point`: a CPU holds at most one entry point. -/
def setEntryPoint (cpu : CpuPowerNode σ ε) (entry : ε) : Except Panic (CpuPowerNode σ ε) :=
  if cpu.entryPoint.isNone then pure { cpu with entryPoint := some entry }
  else throw (.assertFailed "assert_eq!(self.entry_point, None)")

/-- `pop_entry_point`: the entry point, taken out of the node. -/
def popEntryPoint (cpu : CpuPowerNode σ ε) : Option ε × CpuPowerNode σ ε :=
  (cpu.entryPoint, { cpu with entryPoint := none })

end CpuPowerNode

/-- The state of `PowerDomainTree`: its non-CPU and CPU nodes, by index. -/
structure PowerDomainTree (σ ε : Type) where
  nonCpuPowerNodes : Nat → NonCpuPowerNode σ
  cpuPowerNodes : Nat → CpuPowerNode σ ε

namespace PowerDomainTree

variable {σ ε : Type} [LinearOrder σ] [PlatformPowerState σ] (T : Topology)

/-- The state of the nodes `PowerDomainTree::new` creates. -/
def new : PowerDomainTree σ ε := ⟨fun _ => NonCpuPowerNode.new, fun _ => CpuPowerNode.new⟩

/-- Writes the non-CPU node `index` through its lock guard. -/
def setNode (t : PowerDomainTree σ ε) (index : Nat) (node : NonCpuPowerNode σ) :
    PowerDomainTree σ ε :=
  { t with nonCpuPowerNodes := Function.update t.nonCpuPowerNodes index node }

/-- Writes the CPU node `index` through its lock guard. -/
def setCpu (t : PowerDomainTree σ ε) (index : Nat) (cpu : CpuPowerNode σ ε) :
    PowerDomainTree σ ε :=
  { t with cpuPowerNodes := Function.update t.cpuPowerNodes index cpu }

/-- The CPU node `index` and its lock: `locked_cpu_node`, indexing `cpu_power_nodes`. -/
def lockedCpuNode (t : PowerDomainTree σ ε) (index : Nat) : Except Panic (CpuPowerNode σ ε) :=
  if index < T.cpuCount then pure (t.cpuPowerNodes index) else throw .indexOutOfBounds

/-- `is_last_cpu`: every other CPU is off. The scan stops at the first CPU that is not, and
    asserts that the calling CPU is on when it reaches it. -/
def isLastCpu (t : PowerDomainTree σ ε) (cpu : Nat) : Except Panic Bool :=
  go (List.range T.cpuCount)
where
  go : List Nat → Except Panic Bool
    | [] => pure true
    | j :: rest =>
      if j = cpu then
        if (t.cpuPowerNodes j).affinityInfo = .on then go rest
        else throw (.assertFailed "assert_eq!(locked_cpu.affinity_info(), AffinityInfo::On)")
      else if (t.cpuPowerNodes j).affinityInfo = .off then go rest
      else pure false

/-- `are_all_cpus_on`. -/
def areAllCpusOn (t : PowerDomainTree σ ε) : Bool :=
  (List.range T.cpuCount).all fun j => (t.cpuPowerNodes j).affinityInfo == .on

end PowerDomainTree

/-! ### Locked ancestors -/

namespace AncestorPowerDomains

variable {σ ε : Type} [LinearOrder σ] [PlatformPowerState σ] (T : Topology)

/-- The loop of `new_with_max_level`, from the node `parent` at power level `level`: the indices
    of the nodes it locks, up to level `maxLevel`. `levelsLeft` counts the levels from `level` to
    `MAX_POWER_LEVEL`, so the assert stops the walk when none is left. -/
def lockFrom (maxLevel : Nat) :
    (levelsLeft : Nat) → (parent : Option Nat) → (level : Nat) → Except Panic (List Nat)
  | _, none, _ => pure []
  | 0, some _, _ => throw (.assertFailed "level <= MAX_POWER_LEVEL")
  | levelsLeft + 1, some index, level =>
    if level > maxLevel then pure []
    else if index < T.nonCpuCount then do
      let rest ← lockFrom maxLevel levelsLeft (T.parent index) (level + 1)
      pure (index :: rest)
    else throw .indexOutOfBounds

/-- `new_with_max_level`: the ancestors of a CPU whose parent is `index`, up to `maxLevel`. -/
def newWithMaxLevel (index maxLevel : Nat) : Except Panic (List Nat) :=
  lockFrom T maxLevel T.maxPowerLevel (some index) 1

/-- `set_running`: the CPU runs, and so do the locked ancestors, each also recording that its
    child on the way up runs. -/
def setRunning (cpu : Nat) (ancestors : List Nat) (t : PowerDomainTree σ ε) :
    Except Panic (PowerDomainTree σ ε) :=
  loop none ancestors t
where
  loop : Option Nat → List Nat → PowerDomainTree σ ε → Except Panic (PowerDomainTree σ ε)
    | _, [], t => pure t
    | child, i :: rest, t => do
      let node ← (t.nonCpuPowerNodes i).setRequestedPowerState T i cpu run
      let node ← node.clearSuspendState T i cpu
      let node := node.setLocalState run
      let node ← match child with
        | some c => node.setNonCpuState T i c run
        | none => pure node
      loop (some i) rest (t.setNode i node)

/-- `is_last_cpu_to_idle_at_power_level`: whether the CPU is the last one to idle up to
    `endPowerLevel`, asked of the locked node at that level, which leaves out the child through
    which the CPU reaches it. Both lookups index the list of locked nodes. -/
def isLastCpuToIdleAtPowerLevel (ancestors : List Nat) (t : PowerDomainTree σ ε)
    (cpu endPowerLevel : Nat) : Except Panic Bool :=
  if endPowerLevel = 0 then pure true
  else do
    let child ← if endPowerLevel ≥ 2 then some <$> index ancestors (endPowerLevel - 2)
      else pure none
    let i ← index ancestors (endPowerLevel - 1)
    (t.nonCpuPowerNodes i).isLastCpuToIdle T i cpu child

end AncestorPowerDomains

/-! ### The locked ancestors of a well-formed tree

    `new_with_max_level` walks the parent links, so it locks a prefix of the CPU's ancestor chain;
    in a well-formed tree neither of its checks fires. -/

namespace Topology

variable (T : Topology)

@[simp] theorem chain_zero (start : Option Nat) : T.chain 0 start = [] := rfl

@[simp] theorem chain_none (fuel : Nat) : T.chain fuel none = [] := by
  cases fuel <;> rfl

@[simp] theorem chain_succ_some (fuel i : Nat) :
    T.chain (fuel + 1) (some i) = i :: T.chain fuel (T.parent i) := rfl

/-- A chain with less fuel is the start of the one with more. -/
theorem take_chain_succ : ∀ (fuel : Nat) (start : Option Nat),
    (T.chain (fuel + 1) start).take fuel = T.chain fuel start
  | 0, _ => rfl
  | _ + 1, none => rfl
  | fuel + 1, some i => by
    rw [chain_succ_some, List.take_succ_cons, take_chain_succ fuel (T.parent i), chain_succ_some]

/-- In a well-formed tree every CPU has one ancestor at each level. -/
theorem WellFormed.length_ancestors {T : Topology} (hwf : T.WellFormed) {cpu : Nat}
    (hcpu : cpu < T.cpuCount) : (T.ancestors cpu).length = T.maxPowerLevel := by
  rw [ancestors, ← take_chain_succ, List.length_take, hwf.chain_length cpu hcpu, Nat.min_self]

end Topology

namespace AncestorPowerDomains

variable {σ ε : Type} [LinearOrder σ] [PlatformPowerState σ] (T : Topology)

/-- When the chain ends within `levelsLeft` nodes, all of them indices of nodes, the walk locks
    the part of it up to `maxLevel`. -/
theorem lockFrom_eq (maxLevel : Nat) :
    ∀ (levelsLeft : Nat) (start : Option Nat) (level : Nat),
      (T.chain (levelsLeft + 1) start).length ≤ levelsLeft →
      (∀ n ∈ T.chain levelsLeft start, n < T.nonCpuCount) →
      lockFrom T maxLevel levelsLeft start level =
        .ok ((T.chain levelsLeft start).take (maxLevel + 1 - level))
  | _, none, _, _, _ => by simp [lockFrom]
  | 0, some i, _, hlen, _ => by simp at hlen
  | levelsLeft + 1, some i, level, hlen, hlt => by
    have hi : i < T.nonCpuCount := hlt i (by simp)
    have hrest := lockFrom_eq maxLevel levelsLeft (T.parent i) (level + 1)
      (by simpa using hlen) (fun n hn => hlt n (by simp [hn]))
    by_cases hlevel : level > maxLevel
    · have h0 : maxLevel + 1 - level = 0 := by omega
      simp [lockFrom, hlevel, h0]
    · have hsucc : maxLevel + 1 - level = (maxLevel + 1 - (level + 1)) + 1 := by omega
      simp only [lockFrom, hlevel, if_false, hi, if_true, hrest, Topology.chain_succ_some, hsucc,
        List.take_succ_cons]
      rfl

/-- In a well-formed tree `new_with_max_level` locks the CPU's ancestors up to `maxLevel`. -/
theorem newWithMaxLevel_eq (hwf : T.WellFormed) {cpu : Nat} (hcpu : cpu < T.cpuCount)
    (maxLevel : Nat) :
    newWithMaxLevel T (T.cpuParent cpu) maxLevel = .ok ((T.ancestors cpu).take maxLevel) := by
  have h := lockFrom_eq T maxLevel T.maxPowerLevel (some (T.cpuParent cpu)) 1
    (by rw [hwf.chain_length cpu hcpu]) (hwf.ancestor_lt cpu hcpu)
  simpa [newWithMaxLevel, Topology.ancestors] using h

end AncestorPowerDomains

end RustedFirmware.Psci
