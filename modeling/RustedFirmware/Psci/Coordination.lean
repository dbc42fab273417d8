import RustedFirmware.Psci.Tree

set_option autoImplicit false

/-! Power state coordination (`PsciCompositePowerState` in `src/services/psci.rs`).

    A CPU that suspends or turns off votes for a state at each of its locked ancestors. In
    platform-coordinated mode `coordinate_state` records the vote as the CPU's requested state and
    sets each node to the shallowest state its descendant CPUs request, up to the first level that
    has to keep running; the levels above it run and are not recomputed. In OS-initiated mode
    `validate_state_coordination` checks the caller's request against the other CPUs' votes, and
    `apply_coordinated_state_to_power_domain_tree` records the caller's vote as its suspend state
    and sets the nodes to the requested states. Both also write, in each node, the state of the
    child through which the CPU reaches it.

    Each loop below walks the locked ancestors zipped with the composite's states from level 1,
    with the accumulators of the source's loop. -/

namespace RustedFirmware.Psci

open Rust PlatformPowerState

namespace CompositePowerState

variable {σ ε : Type} [LinearOrder σ] [PlatformPowerState σ] (T : Topology)

/-- `set_local_states_from_nodes`: the CPU's local state, then those of the locked ancestors. -/
def setLocalStatesFromNodes (c : CompositePowerState σ) (cpu : CpuPowerNode σ ε)
    (ancestors : List Nat) (t : PowerDomainTree σ ε) : CompositePowerState σ :=
  match c.states with
  | [] => c
  | _ :: rest =>
    let nodeStates := ancestors.map fun i => (t.nonCpuPowerNodes i).localState
    { c with states := cpu.localState :: (nodeStates.take rest.length ++ rest.drop nodeStates.length) }

/-- The loop of `set_nodes_from_local_states` over the first `highest_affected_level` locked
    ancestors and the states of their levels: each node takes its state, and records its child's;
    it returns the last node and its state. -/
def setNodesLoop : Option (Nat × σ) → List Nat → List σ → PowerDomainTree σ ε →
    Except Panic (Option (Nat × σ) × PowerDomainTree σ ε)
  | child, i :: rest, s :: ss, t => do
    let node := (t.nonCpuPowerNodes i).setLocalState s
    let node ← match child with
      | some (ci, cs) => node.setNonCpuState T i ci cs
      | none => pure node
    setNodesLoop (some (i, s)) rest ss (t.setNode i node)
  | child, _, _, t => pure (child, t)

/-- `set_nodes_from_local_states`: the CPU and its ancestors up to `highestAffectedLevel` take
    the composite's states, and the next ancestor, if it is locked, records the state of the
    last one. -/
def setNodesFromLocalStates (c : CompositePowerState σ) (highestAffectedLevel cpu : Nat)
    (ancestors : List Nat) (t : PowerDomainTree σ ε) : Except Panic (PowerDomainTree σ ε) := do
  let t := t.setCpu cpu { t.cpuPowerNodes cpu with localState := c.cpuLevelState }
  if highestAffectedLevel > 0 then
    let (child, t) ← setNodesLoop T none (ancestors.take highestAffectedLevel)
      ((c.states.drop 1).take highestAffectedLevel) t
    if highestAffectedLevel < T.maxPowerLevel then
      match ancestors[highestAffectedLevel]?, child with
      | some last, some (ci, cs) => do
        let node ← (t.nonCpuPowerNodes last).setNonCpuState T last ci cs
        pure (t.setNode last node)
      | _, _ => pure t
    else pure t
  else pure t

/-- The loop of `apply_coordinated_state_to_power_domain_tree`: each locked ancestor records the
    caller's vote for its level as the caller's suspend state. -/
def setSuspendStatesLoop (cpu : Nat) : List Nat → List σ → PowerDomainTree σ ε →
    Except Panic (PowerDomainTree σ ε)
  | i :: rest, s :: ss, t => do
    let node ← (t.nonCpuPowerNodes i).setSuspendState T i cpu s
    setSuspendStatesLoop cpu rest ss (t.setNode i node)
  | _, _, t => pure t

/-- `apply_coordinated_state_to_power_domain_tree`: the votes of `resolved` become the caller's
    suspend states, and the requested states are set through the tree. -/
def applyCoordinatedStateToPowerDomainTree (c : CompositePowerState σ)
    (highestAffectedLevel cpu : Nat) (ancestors : List Nat) (resolved : CompositePowerState σ)
    (t : PowerDomainTree σ ε) : Except Panic (PowerDomainTree σ ε) := do
  let t ← setSuspendStatesLoop T cpu ancestors (resolved.states.drop 1) t
  c.setNodesFromLocalStates T highestAffectedLevel cpu ancestors t

/-- The loop of `coordinate_state`: record the caller's requested state at each locked ancestor
    and, until a level has to run, set the node to the shallowest requested state and take it as
    the composite's state for the level; above it the composite's states are `RUN`. Each node
    also records its child's new state. It returns the composite's states from level 1. -/
def coordinateLoop (cpu : Nat) : Bool → Option (Nat × σ) → List Nat → List σ →
    PowerDomainTree σ ε → Except Panic (List σ × PowerDomainTree σ ε)
  | higherLevelsAreRun, child, i :: rest, s :: ss, t => do
    let node ← (t.nonCpuPowerNodes i).setRequestedPowerState T i cpu s
    let (node, s', higherLevelsAreRun) ← if !higherLevelsAreRun then do
        let node ← node.setMinimalAllowedState T i
        pure (node, node.localState, powerStateType node.localState == .run)
      else pure (node, run, true)
    let node ← match child with
      | some (ci, cs) => node.setNonCpuState T i ci cs
      | none => pure node
    let (ss', t) ← coordinateLoop cpu higherLevelsAreRun (some (i, s')) rest ss (t.setNode i node)
    pure (s' :: ss', t)
  | _, _, _, ss, t => pure (ss, t)

/-- `coordinate_state`, which also rewrites the composite's states above the CPU level. -/
def coordinateState (c : CompositePowerState σ) (cpu : Nat) (ancestors : List Nat)
    (t : PowerDomainTree σ ε) : Except Panic (CompositePowerState σ × PowerDomainTree σ ε) :=
  match c.states with
  | [] => pure (c, t)
  | s0 :: rest => do
    let (rest, t) ← coordinateLoop T cpu false none ancestors rest t
    pure ({ c with states := s0 :: rest }, t)

/-- The loop of `validate_state_coordination` over the first `highest_affected_level` locked
    ancestors: the request at each level must be no deeper than what the other descendants
    allow, leaving out the child through which the caller reaches the node. A request deeper
    than a running descendant is `Denied`; one deeper than a descendant in a low power state is
    `InvalidParameters`. -/
def validateLoop (cpu : Nat) (t : PowerDomainTree σ ε) : Option Nat → List Nat → List σ →
    Except Panic (Except ErrorCode Unit)
  | child, i :: rest, s :: ss => do
    let shallowest ← (t.nonCpuPowerNodes i).getOsiMinimalAllowedStateWithoutCore T i cpu child
    if s > shallowest then
      if shallowest = run then pure (.error .denied) else pure (.error .invalidParameters)
    else validateLoop cpu t (some i) rest ss
  | _, _, _ => pure (.ok ())

/-- `validate_state_coordination`, the OS-initiated counterpart of `coordinate_state`: it
    changes nothing, and fails if the caller is not the last CPU to idle at its claimed level or
    if its request is deeper than the other descendants allow. -/
def validateStateCoordination (r : CompositePowerState σ) (cpu highestAffectedLevel : Nat)
    (ancestors : List Nat) (t : PowerDomainTree σ ε) : Except Panic (Except ErrorCode Unit) :=
  match r.lastAtPowerLevel with
  | none => pure (.error .invalidParameters)
  | some last => do
    let isLast ← AncestorPowerDomains.isLastCpuToIdleAtPowerLevel T ancestors t cpu last
    let requested := (r.states.drop 1).take highestAffectedLevel
    if !isLast then pure (.error .denied)
    else if highestAffectedLevel = 0 then pure (.ok ())
    else validateLoop T cpu t none (ancestors.take highestAffectedLevel) requested

/-- Without a level at which the caller claims to be last, the OS-initiated check rejects the
    request as invalid, whatever the tree. -/
theorem validateStateCoordination_of_none {r : CompositePowerState σ}
    (hnone : r.lastAtPowerLevel = none) (cpu highestAffectedLevel : Nat) (ancestors : List Nat)
    (t : PowerDomainTree σ ε) :
    r.validateStateCoordination T cpu highestAffectedLevel ancestors t =
      .ok (.error .invalidParameters) := by
  simp only [validateStateCoordination, hnone]
  rfl

end CompositePowerState

end RustedFirmware.Psci
