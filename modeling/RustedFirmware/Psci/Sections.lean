import RustedFirmware.Psci.System
import RustedFirmware.Psci.Walk

set_option autoImplicit false

/-! What each locked section of the PSCI calls can do, stated once.

    For every section, an inversion lemma says what a run that does not panic leaves: the
    outcome, the suspend mode, and the CPU nodes, given as the state's with the caller's node
    rewritten. The walks up the tree write only non-CPU nodes, so the CPU nodes a section leaves
    are those it writes itself: the caller's, and for `CPU_ON` the target's. The invariants over
    whole runs are derived from these lemmas alone. -/

namespace RustedFirmware.Psci

open Rust PlatformPowerState

/-! ### What each step of a walk writes

    A walk up the locked ancestors writes one non-CPU node per step, read from the tree as the
    steps before left it. Each walk gets an induction rule: a property of trees that every write
    of one of its steps keeps holds after the walk. The frames below and the invariants over
    whole runs are instances of these rules. -/

namespace AncestorPowerDomains

variable {σ ε : Type} [PlatformPowerState σ] {T : Topology} {cpu : Nat}

open NonCpuPowerNode in
/-- A step of `set_running` that did not fail wrote the running node. -/
theorem setRunning_loop_cons_eq_ok {child : Option Nat} {i : Nat} {A : List Nat}
    {t t' : PowerDomainTree σ ε} (h : setRunning.loop T cpu child (i :: A) t = .ok t') :
    setRunning.loop T cpu (some i) A (t.setNode i ((t.nonCpuPowerNodes i).running cpu child)) =
      .ok t' := by
  simp only [setRunning.loop] at h
  obtain ⟨node₁, h₁, h⟩ := bind_eq_ok.mp h
  obtain ⟨node₂, h₂, h⟩ := bind_eq_ok.mp h
  rw [setRequestedPowerState_eq_ok h₁] at h₂
  rw [clearSuspendState_eq_ok h₂] at h
  split at h
  · obtain ⟨node₃, h₃, h⟩ := bind_eq_ok.mp h
    rw [setNonCpuState_eq_ok h₃] at h
    exact h
  · exact h

/-- Induction over `set_running`: a property of trees that every write of a running node keeps
    holds after the walk. -/
theorem setRunning_loop_induction (Q : PowerDomainTree σ ε → Prop)
    (hQ : ∀ t i child, Q t → Q (t.setNode i ((t.nonCpuPowerNodes i).running cpu child))) :
    ∀ {child : Option Nat} {A : List Nat} {t t' : PowerDomainTree σ ε},
      setRunning.loop T cpu child A t = .ok t' → Q t → Q t'
  | _, [], _, _, h, ht => by
    cases h
    exact ht
  | _, _ :: _, _, _, h, ht =>
    setRunning_loop_induction Q hQ (setRunning_loop_cons_eq_ok h) (hQ _ _ _ ht)

/-- Whatever ancestors it is given, `set_running` leaves every CPU node as it was. -/
theorem setRunning_cpuPowerNodes {A : List Nat} {t t' : PowerDomainTree σ ε}
    (h : setRunning T cpu A t = .ok t') : t'.cpuPowerNodes = t.cpuPowerNodes :=
  setRunning_loop_induction (fun t₁ => t₁.cpuPowerNodes = t.cpuPowerNodes) (fun _ _ _ h => h) h rfl

end AncestorPowerDomains

namespace CompositePowerState

variable {σ ε : Type} [LinearOrder σ] [PlatformPowerState σ] {T : Topology} {cpu : Nat}

open NonCpuPowerNode in
/-- A step of `coordinate_state` that did not fail wrote a coordinated node, and the walk went on
    from the tree with it written. -/
theorem coordinateLoop_cons_eq_ok {b : Bool} {child : Option (Nat × σ)} {i : Nat} {A : List Nat}
    {s : σ} {S : List σ} {t : PowerDomainTree σ ε} {S' : List σ} {t' : PowerDomainTree σ ε}
    (h : coordinateLoop T cpu b child (i :: A) (s :: S) t = .ok (S', t')) :
    ∃ s' node S'', CoordinatedNode T i cpu s child (b = false) s' (t.nonCpuPowerNodes i) node ∧
      coordinateLoop T cpu (b || powerStateType s' == .run) (some (i, s')) A S
        (t.setNode i node) = .ok (S'', t') ∧ S' = s' :: S'' := by
  cases b with
  -- case: the levels below are coordinated, and this one takes the shallowest request
  | false =>
    simp only [coordinateLoop, Bool.not_false, ↓reduceIte] at h
    obtain ⟨node₁, h₁, h⟩ := bind_eq_ok.mp h
    obtain rfl := setRequestedPowerState_eq_ok h₁
    obtain ⟨node₂, h₂, h⟩ := bind_eq_ok.mp h
    obtain ⟨m, rfl, hleast⟩ := setMinimalAllowedState_eq_ok h₂
    simp only [pure_eq_ok, ok_bind] at h
    cases child with
    | none =>
      obtain ⟨⟨S'', t''⟩, hloop, h⟩ := bind_eq_ok.mp h
      cases h
      refine ⟨m, _, S'', ?_, hloop, rfl⟩
      exact ⟨rfl, rfl, rfl, fun _ => ⟨rfl, hleast⟩, fun h => absurd rfl h⟩
    | some c =>
      obtain ⟨node₃, h₃, h⟩ := bind_eq_ok.mp h
      obtain rfl := setNonCpuState_eq_ok h₃
      obtain ⟨⟨S'', t''⟩, hloop, h⟩ := bind_eq_ok.mp h
      cases h
      refine ⟨m, _, S'', ?_, hloop, rfl⟩
      exact ⟨rfl, rfl, rfl, fun _ => ⟨rfl, hleast⟩, fun h => absurd rfl h⟩
  -- case: a level below has to run, and this one only records the vote
  | true =>
    simp only [coordinateLoop, Bool.not_true, Bool.false_eq_true, ↓reduceIte] at h
    obtain ⟨node₁, h₁, h⟩ := bind_eq_ok.mp h
    obtain rfl := setRequestedPowerState_eq_ok h₁
    simp only [pure_eq_ok, ok_bind] at h
    cases child with
    | none =>
      obtain ⟨⟨S'', t''⟩, hloop, h⟩ := bind_eq_ok.mp h
      cases h
      refine ⟨run, _, S'', ?_, hloop, rfl⟩
      exact ⟨rfl, rfl, rfl, fun h => Bool.noConfusion h, fun _ => ⟨rfl, rfl⟩⟩
    | some c =>
      obtain ⟨node₃, h₃, h⟩ := bind_eq_ok.mp h
      obtain rfl := setNonCpuState_eq_ok h₃
      obtain ⟨⟨S'', t''⟩, hloop, h⟩ := bind_eq_ok.mp h
      cases h
      refine ⟨run, _, S'', ?_, hloop, rfl⟩
      exact ⟨rfl, rfl, rfl, fun h => Bool.noConfusion h, fun _ => ⟨rfl, rfl⟩⟩

/-- Induction over `coordinate_state`: a property of trees that every write of a coordinated
    node keeps holds after the walk. -/
theorem coordinateLoop_induction (Q : PowerDomainTree σ ε → Prop)
    (hQ : ∀ t i vote child P s node, Q t →
      NonCpuPowerNode.CoordinatedNode T i cpu vote child P s (t.nonCpuPowerNodes i) node →
      Q (t.setNode i node)) :
    ∀ {b : Bool} {child : Option (Nat × σ)} {A : List Nat} {S : List σ}
      {t : PowerDomainTree σ ε} {S' : List σ} {t' : PowerDomainTree σ ε},
      coordinateLoop T cpu b child A S t = .ok (S', t') → Q t → Q t'
  | _, _, [], _, _, _, _, h, ht => by
    cases h
    exact ht
  | _, _, _ :: _, [], _, _, _, h, ht => by
    cases h
    exact ht
  | _, _, _ :: _, _ :: _, _, _, _, h, ht => by
    obtain ⟨_, _, _, hnode, hloop, -⟩ := coordinateLoop_cons_eq_ok h
    exact coordinateLoop_induction Q hQ hloop (hQ _ _ _ _ _ _ _ ht hnode)

omit [LinearOrder σ] [PlatformPowerState σ] in
/-- Induction over the loop of `apply_coordinated_state_to_power_domain_tree`: a property of trees
    that every write of a suspend state of the caller keeps holds after the walk. -/
theorem setSuspendStatesLoop_induction (Q : PowerDomainTree σ ε → Prop)
    (hQ : ∀ t i s, Q t → Q (t.setNode i { t.nonCpuPowerNodes i with
      suspendStates := Function.update (t.nonCpuPowerNodes i).suspendStates cpu (some s) })) :
    ∀ {A : List Nat} {S : List σ} {t t' : PowerDomainTree σ ε},
      setSuspendStatesLoop T cpu A S t = .ok t' → Q t → Q t'
  | [], _, _, _, h, ht => by
    cases h
    exact ht
  | _ :: _, [], _, _, h, ht => by
    cases h
    exact ht
  | _ :: _, _ :: _, _, _, h, ht => by
    simp only [setSuspendStatesLoop] at h
    obtain ⟨_, hnode, h⟩ := bind_eq_ok.mp h
    rw [NonCpuPowerNode.setSuspendState_eq_ok hnode] at h
    exact setSuspendStatesLoop_induction Q hQ h (hQ _ _ _ ht)

omit [LinearOrder σ] [PlatformPowerState σ] in
/-- Induction over the loop of `set_nodes_from_local_states`: a property of trees that every write
    of a node's state for its level, with its child's recorded or not, keeps holds after the
    walk. -/
theorem setNodesLoop_induction (Q : PowerDomainTree σ ε → Prop) :
    ∀ {child : Option (Nat × σ)} {A : List Nat} {S : List σ} {t : PowerDomainTree σ ε}
      {child' : Option (Nat × σ)} {t' : PowerDomainTree σ ε},
      setNodesLoop T child A S t = .ok (child', t') →
      (∀ t i s (nonCpuStates : Nat → σ), (i, s) ∈ A.zip S → Q t →
        Q (t.setNode i { t.nonCpuPowerNodes i with localState := s, nonCpuStates := nonCpuStates })) →
      Q t → Q t'
  | _, [], _, _, _, _, h, _, ht => by
    cases h
    exact ht
  | _, _ :: _, [], _, _, _, h, _, ht => by
    cases h
    exact ht
  | _, _ :: _, _ :: _, _, _, _, h, hQ, ht => by
    have htail := fun t i s ns hmem => hQ t i s ns (List.mem_cons_of_mem _ hmem)
    simp only [setNodesLoop] at h
    split at h
    · obtain ⟨_, hnode, h⟩ := bind_eq_ok.mp h
      rw [NonCpuPowerNode.setNonCpuState_eq_ok hnode] at h
      exact setNodesLoop_induction Q h htail (hQ _ _ _ _ List.mem_cons_self ht)
    · exact setNodesLoop_induction Q h htail (hQ _ _ _ _ List.mem_cons_self ht)

theorem coordinateLoop_cpuPowerNodes {b : Bool} {child : Option (Nat × σ)} {A : List Nat}
    {S : List σ} {t : PowerDomainTree σ ε} {S' : List σ} {t' : PowerDomainTree σ ε}
    (h : coordinateLoop T cpu b child A S t = .ok (S', t')) : t'.cpuPowerNodes = t.cpuPowerNodes :=
  coordinateLoop_induction (fun t₁ => t₁.cpuPowerNodes = t.cpuPowerNodes)
    (fun _ _ _ _ _ _ _ h _ => h) h rfl

omit [LinearOrder σ] [PlatformPowerState σ] in
theorem setSuspendStatesLoop_cpuPowerNodes {A : List Nat} {S : List σ}
    {t t' : PowerDomainTree σ ε} (h : setSuspendStatesLoop T cpu A S t = .ok t') :
    t'.cpuPowerNodes = t.cpuPowerNodes :=
  setSuspendStatesLoop_induction (fun t₁ => t₁.cpuPowerNodes = t.cpuPowerNodes)
    (fun _ _ _ h => h) h rfl

omit [LinearOrder σ] [PlatformPowerState σ] in
theorem setNodesLoop_cpuPowerNodes {child : Option (Nat × σ)} {A : List Nat} {S : List σ}
    {t : PowerDomainTree σ ε} {child' : Option (Nat × σ)} {t' : PowerDomainTree σ ε}
    (h : setNodesLoop T child A S t = .ok (child', t')) : t'.cpuPowerNodes = t.cpuPowerNodes :=
  setNodesLoop_induction (fun t₁ => t₁.cpuPowerNodes = t.cpuPowerNodes) h
    (fun _ _ _ _ _ h => h) rfl

/-- What `coordinate_state` did: nothing for a composite without states, else the walk over the
    locked ancestors with the states above the CPU level, which it then takes. -/
theorem coordinateState_eq_ok {c c' : CompositePowerState σ} {A : List Nat}
    {t t' : PowerDomainTree σ ε} (h : c.coordinateState T cpu A t = .ok (c', t')) :
    c.states = [] ∧ c' = c ∧ t' = t ∨
      ∃ s0 rest S', c.states = s0 :: rest ∧ coordinateLoop T cpu false none A rest t = .ok (S', t') ∧
        c' = { c with states := s0 :: S' } := by
  unfold coordinateState at h
  split at h
  · cases h
    exact .inl ⟨‹_›, rfl, rfl⟩
  · obtain ⟨⟨S', _⟩, hloop, h⟩ := bind_eq_ok.mp h
    cases h
    exact .inr ⟨_, _, S', ‹_›, hloop, rfl⟩

/-- `coordinate_state` writes only non-CPU nodes. -/
theorem coordinateState_cpuPowerNodes {c c' : CompositePowerState σ} {A : List Nat}
    {t t' : PowerDomainTree σ ε} (h : c.coordinateState T cpu A t = .ok (c', t')) :
    t'.cpuPowerNodes = t.cpuPowerNodes := by
  rcases coordinateState_eq_ok h with ⟨-, -, rfl⟩ | ⟨_, _, _, -, hloop, -⟩
  · rfl
  · exact coordinateLoop_cpuPowerNodes hloop

omit [LinearOrder σ] in
/-- What `set_nodes_from_local_states` did: the caller's local state, the walk over the first
    `h` locked ancestors, and perhaps the state of the last one recorded in the next. -/
theorem setNodesFromLocalStates_eq_ok {c : CompositePowerState σ} {h : Nat} {A : List Nat}
    {t t' : PowerDomainTree σ ε} (hok : c.setNodesFromLocalStates T h cpu A t = .ok t') :
    ∃ t₂, (t₂ = t.setCpu cpu { t.cpuPowerNodes cpu with localState := c.cpuLevelState } ∨
        ∃ child, setNodesLoop T none (A.take h) ((c.states.drop 1).take h)
          (t.setCpu cpu { t.cpuPowerNodes cpu with localState := c.cpuLevelState }) =
            .ok (child, t₂)) ∧
      (t' = t₂ ∨ ∃ i ns, t' = t₂.setNode i { t₂.nonCpuPowerNodes i with nonCpuStates := ns }) := by
  simp only [setNodesFromLocalStates] at hok
  split at hok
  case isFalse =>
    cases hok
    exact ⟨_, .inl rfl, .inl rfl⟩
  case isTrue =>
    obtain ⟨⟨child, t₂⟩, hloop, hok⟩ := bind_eq_ok.mp hok
    refine ⟨t₂, .inr ⟨child, hloop⟩, ?_⟩
    split at hok
    case isFalse =>
      cases hok
      exact .inl rfl
    case isTrue =>
      split at hok
      · obtain ⟨_, hnode, hok⟩ := bind_eq_ok.mp hok
        cases hok
        exact .inr ⟨_, _, by rw [NonCpuPowerNode.setNonCpuState_eq_ok hnode]⟩
      · cases hok
        exact .inl rfl

omit [LinearOrder σ] in
/-- Of the CPU nodes, `set_nodes_from_local_states` writes the caller's local state alone. -/
theorem setNodesFromLocalStates_cpuPowerNodes {c : CompositePowerState σ} {h : Nat}
    {A : List Nat} {t t' : PowerDomainTree σ ε}
    (hok : c.setNodesFromLocalStates T h cpu A t = .ok t') :
    t'.cpuPowerNodes =
      Function.update t.cpuPowerNodes cpu { t.cpuPowerNodes cpu with localState := c.cpuLevelState } := by
  obtain ⟨t₂, ht₂, ht'⟩ := setNodesFromLocalStates_eq_ok hok
  have hcpus : t₂.cpuPowerNodes = Function.update t.cpuPowerNodes cpu
      { t.cpuPowerNodes cpu with localState := c.cpuLevelState } := by
    rcases ht₂ with rfl | ⟨_, hloop⟩
    · rfl
    · exact setNodesLoop_cpuPowerNodes hloop
  rcases ht' with rfl | ⟨_, _, rfl⟩
  all_goals exact hcpus

omit [LinearOrder σ] in
/-- Of the CPU nodes, `apply_coordinated_state_to_power_domain_tree` writes the caller's local
    state alone. -/
theorem applyCoordinatedStateToPowerDomainTree_cpuPowerNodes {c resolved : CompositePowerState σ}
    {h : Nat} {A : List Nat} {t t' : PowerDomainTree σ ε}
    (hok : c.applyCoordinatedStateToPowerDomainTree T h cpu A resolved t = .ok t') :
    t'.cpuPowerNodes =
      Function.update t.cpuPowerNodes cpu { t.cpuPowerNodes cpu with localState := c.cpuLevelState } := by
  obtain ⟨t₁, hloop, hok⟩ := bind_eq_ok.mp hok
  rw [setNodesFromLocalStates_cpuPowerNodes hok, setSuspendStatesLoop_cpuPowerNodes hloop]

/-- `coordinate_state` rewrites the states above the CPU level only. -/
theorem coordinateState_cpuLevelState {c c' : CompositePowerState σ} {A : List Nat}
    {t t' : PowerDomainTree σ ε} (h : c.coordinateState T cpu A t = .ok (c', t')) :
    c'.cpuLevelState = c.cpuLevelState := by
  rcases coordinateState_eq_ok h with ⟨-, rfl, -⟩ | ⟨s0, _, _, hstates, -, rfl⟩
  · rfl
  · simp [cpuLevelState, hstates]

omit [LinearOrder σ] in
/-- `set_local_states_from_nodes` reads the CPU level from the CPU node. -/
theorem cpuLevelState_setLocalStatesFromNodes {c : CompositePowerState σ} (hc : c.states ≠ [])
    (node : CpuPowerNode σ ε) (A : List Nat) (t : PowerDomainTree σ ε) :
    (c.setLocalStatesFromNodes node A t).cpuLevelState = node.localState := by
  unfold setLocalStatesFromNodes
  split
  · contradiction
  · rfl

end CompositePowerState

namespace CpuPowerNode

variable {σ ε : Type}

/-- `set_entry_point` succeeds only on a node without an entry point. -/
theorem setEntryPoint_eq_ok {node node' : CpuPowerNode σ ε} {entry : ε}
    (h : node.setEntryPoint entry = .ok node') :
    node.entryPoint = none ∧ node' = { node with entryPoint := some entry } := by
  unfold setEntryPoint at h
  split at h
  · cases h
    exact ⟨Option.isNone_iff_eq_none.mp ‹_›, rfl⟩
  · cases h

end CpuPowerNode

namespace PowerDomainTree

variable {σ ε : Type} {T : Topology}

theorem lockedCpuNode_eq_ok {t : PowerDomainTree σ ε} {index : Nat} {node : CpuPowerNode σ ε}
    (h : t.lockedCpuNode T index = .ok node) : index < T.cpuCount ∧ node = t.cpuPowerNodes index := by
  unfold lockedCpuNode at h
  split at h
  · cases h
    exact ⟨‹_›, rfl⟩
  · cases h

/-- When the caller is on, `is_last_cpu` does not panic: it answers whether every other CPU is
    off. -/
theorem isLastCpu_of_on {t : PowerDomainTree σ ε} {cpu : Nat}
    (hon : (t.cpuPowerNodes cpu).affinityInfo = .on) :
    t.isLastCpu T cpu =
      .ok (decide (∀ j < T.cpuCount, j ≠ cpu → (t.cpuPowerNodes j).affinityInfo = .off)) := by
  -- the scan, over any list of CPUs
  have hgo : ∀ l : List Nat, isLastCpu.go t cpu l =
      .ok (decide (∀ j ∈ l, j ≠ cpu → (t.cpuPowerNodes j).affinityInfo = .off)) := by
    intro l
    induction l with
    | nil => simp [isLastCpu.go]
    | cons j rest ih =>
      by_cases hj : j = cpu
      · subst hj
        simp [isLastCpu.go, hon, ih]
      · by_cases hoff : (t.cpuPowerNodes j).affinityInfo = .off
        · simp [isLastCpu.go, hj, hoff, ih]
        · simp [isLastCpu.go, hj, hoff]
  simpa [isLastCpu, List.mem_range] using hgo (List.range T.cpuCount)

end PowerDomainTree

/-! ### What the sections write into the non-CPU nodes

    The walks of a section, named by what they write: the inversion lemmas below say which walk
    made a section's non-CPU nodes, from those of the state it started from. -/

namespace PowerDomainTree

variable {σ ε : Type} [LinearOrder σ] [PlatformPowerState σ] (T : Topology) (cpu : Nat)

/-- The non-CPU nodes of `t'` are those that `set_running` of `cpu` over all its locked ancestors
    makes of the non-CPU nodes of `t`. -/
def SetsRunning (t t' : PowerDomainTree σ ε) : Prop :=
  ∃ (A : List Nat) (t₀ t₁ : PowerDomainTree σ ε),
    AncestorPowerDomains.newWithMaxLevel T (T.cpuParent cpu) T.maxPowerLevel = .ok A ∧
    t₀.nonCpuPowerNodes = t.nonCpuPowerNodes ∧ AncestorPowerDomains.setRunning T cpu A t₀ = .ok t₁ ∧
    t'.nonCpuPowerNodes = t₁.nonCpuPowerNodes

/-- The non-CPU nodes of `t'` are those that `coordinate_state`, for a vote of `cpu` over its
    ancestors locked up to `level`, makes of the non-CPU nodes of `t`. -/
def Coordinates (level : Nat) (t t' : PowerDomainTree σ ε) : Prop :=
  ∃ (A : List Nat) (c c' : CompositePowerState σ) (t₀ t₁ : PowerDomainTree σ ε),
    AncestorPowerDomains.newWithMaxLevel T (T.cpuParent cpu) level = .ok A ∧
    t₀.nonCpuPowerNodes = t.nonCpuPowerNodes ∧ c.coordinateState T cpu A t₀ = .ok (c', t₁) ∧
    t'.nonCpuPowerNodes = t₁.nonCpuPowerNodes

/-- The non-CPU nodes of `t'` are those that `apply_coordinated_state_to_power_domain_tree` makes
    of `t` for a request of `cpu` over its ancestors locked up to `level`, after
    `validate_state_coordination` accepted the request on `t`. -/
def AppliesValidated (level : Nat) (t t' : PowerDomainTree σ ε) : Prop :=
  ∃ (A : List Nat) (c : CompositePowerState σ) (h : Nat) (t₁ : PowerDomainTree σ ε),
    AncestorPowerDomains.newWithMaxLevel T (T.cpuParent cpu) level = .ok A ∧
    (c.createHighestAffectedLevelResolvedState h).validateStateCoordination T cpu h A t =
      .ok (.ok ()) ∧
    c.applyCoordinatedStateToPowerDomainTree T h cpu A
      (c.createHighestAffectedLevelResolvedState h) t = .ok t₁ ∧
    t'.nonCpuPowerNodes = t₁.nonCpuPowerNodes

end PowerDomainTree

/-! ### The sections -/

namespace PsciState

variable {σ ε : Type} [LinearOrder σ] [PlatformPowerState σ] {T : Topology} {P : PsciPlatform σ ε}
  {cpu : Nat} {s : PsciState σ ε} {r : PsciState σ ε × Outcome σ ε}

/-- What `CPU_SUSPEND`, `CPU_DEFAULT_SUSPEND` and `SYSTEM_SUSPEND` can leave: a return with the
    state unchanged, a CPU standby with the CPU node in the composite's CPU level state, or the
    start of a suspend of a valid request, parsed by the platform or its system suspend state,
    whose highest affected level is its highest level not in `RUN`. -/
inductive SuspendLeaves (T : Topology) (P : PsciPlatform σ ε) (s : PsciState σ ε) (cpu : Nat)
    (entry : ε) : PsciState σ ε × Outcome σ ε → Prop
  | returned (result : Except ErrorCode Unit) : SuspendLeaves T P s cpu entry (s, .returned result)
  | standby (composite : CompositePowerState σ) :
    SuspendLeaves T P s cpu entry (s.withTree (updateCpu s.powerDomainTree cpu fun node =>
      { node with localState := composite.cpuLevelState }), .standby)
  | suspending (levelToLockTo highestAffectedLevel : Nat) (composite : CompositePowerState σ)
      (isPowerDownState : Bool)
      (hvalid : composite.isValidSuspendRequest T.maxPowerLevel isPowerDownState = true)
      (hh : composite.findHighestNonRunLevel = some highestAffectedLevel)
      (hcomposite : (∃ powerState, P.tryParsePowerState powerState = some composite) ∨
        composite = P.sysSuspendPowerState) :
    SuspendLeaves T P s cpu entry
      (s, .suspending levelToLockTo highestAffectedLevel composite entry isPowerDownState)

omit [LinearOrder σ] [PlatformPowerState σ] in
theorem cpuSuspendStart_eq_ok {entry : ε} {highestAffectedLevel : Nat}
    {composite : CompositePowerState σ} {isPowerDownState : Bool}
    (h : s.cpuSuspendStart T P cpu entry highestAffectedLevel composite isPowerDownState = .ok r) :
    r = (s, .suspending (if s.isInOsiMode P then T.maxPowerLevel else highestAffectedLevel)
      highestAffectedLevel composite entry isPowerDownState) := by
  obtain ⟨_, -, h⟩ := bind_eq_ok.mp h
  cases h
  rfl

theorem cpuSuspend_leaves {powerState : PowerState} {entry : ε}
    (h : s.cpuSuspend T P cpu powerState entry = .ok r) : SuspendLeaves T P s cpu entry r := by
  unfold cpuSuspend at h
  split at h
  · cases h
    exact .returned _
  next composite hparse =>
    -- the kind of request only selects among the same endings
    extract_lets isPowerDownState jp at h
    clear_value isPowerDownState
    split at h
    · cases h
    · rename_i hvalid
      simp only [jp] at h
      split at h
      next highestAffectedLevel hh =>
        split at h
        · obtain ⟨node, hnode, h⟩ := bind_eq_ok.mp h
          obtain ⟨-, rfl⟩ := PowerDomainTree.lockedCpuNode_eq_ok hnode
          cases h
          exact .standby _
        · split at h
          · cases h
            exact .returned _
          · rw [cpuSuspendStart_eq_ok h]
            exact .suspending _ _ _ _ (by simpa using hvalid) hh (.inl ⟨powerState, hparse⟩)
      · cases h

theorem cpuDefaultSuspend_leaves {entry : ε} (h : s.cpuDefaultSuspend T P cpu entry = .ok r) :
    SuspendLeaves T P s cpu entry r := by
  unfold cpuDefaultSuspend at h
  split at h
  · cases h
    exact .returned _
  · obtain ⟨_, -, h⟩ := bind_eq_ok.mp h
    exact cpuSuspend_leaves h

theorem systemSuspend_leaves {entry : ε} (h : s.systemSuspend T P cpu entry = .ok r) :
    SuspendLeaves T P s cpu entry r := by
  unfold systemSuspend at h
  split at h
  · cases h
    exact .returned _
  · obtain ⟨_, -, h⟩ := bind_eq_ok.mp h
    split at h
    · cases h
      exact .returned _
    · split at h
      · cases h
        exact .returned _
      · dsimp only at h
        split at h
        · cases h
          exact .returned _
        -- past the two asserts on the platform's state
        · rename_i hh
          split at h
          · cases h
          · rename_i hvalid
            split at h
            · cases h
            · rw [cpuSuspendStart_eq_ok h]
              exact .suspending _ _ _ _ (by simpa using hvalid) (not_not.mp hh) (.inr rfl)

omit [LinearOrder σ] in
theorem cpuStandbyWake_eq_ok (h : s.cpuStandbyWake T cpu = .ok r) :
    r = (s.withTree (updateCpu s.powerDomainTree cpu fun node => { node with localState := run }),
      .returned (.ok ())) := by
  obtain ⟨node, hnode, h⟩ := bind_eq_ok.mp h
  obtain ⟨-, rfl⟩ := PowerDomainTree.lockedCpuNode_eq_ok hnode
  cases h
  rfl

/-- The coordination either backs off, or leaves the caller suspended with its CPU node in the
    composite's CPU level state and, for a power down, holding the entry point; the non-CPU
    nodes are coordinated the way the suspend mode says. -/
theorem cpuSuspendCoordinate_cases {levelToLockTo highestAffectedLevel : Nat}
    {composite : CompositePowerState σ} {entry : ε} {isPowerDownState hasPendingInterrupts : Bool}
    {validateSuspend : Except ErrorCode Unit}
    (h : s.cpuSuspendCoordinate T P cpu levelToLockTo highestAffectedLevel composite entry
      isPowerDownState hasPendingInterrupts validateSuspend = .ok r) :
    (∃ result, r = (s, .returned result)) ∨
      ∃ t, r = (s.withTree t, .suspended entry isPowerDownState) ∧
        (isPowerDownState = true → (s.powerDomainTree.cpuPowerNodes cpu).entryPoint = none) ∧
        t.cpuPowerNodes = Function.update s.powerDomainTree.cpuPowerNodes cpu
          { s.powerDomainTree.cpuPowerNodes cpu with
            localState := composite.cpuLevelState
            entryPoint := if isPowerDownState then some entry
              else (s.powerDomainTree.cpuPowerNodes cpu).entryPoint } ∧
        (s.isInOsiMode P = false ∧ s.powerDomainTree.Coordinates T cpu levelToLockTo t ∨
          s.isInOsiMode P = true ∧ s.powerDomainTree.AppliesValidated T cpu levelToLockTo t) := by
  obtain ⟨A, hA, h⟩ := bind_eq_ok.mp h
  split at h
  · cases h
    exact .inl ⟨_, rfl⟩
  · obtain ⟨result, hcoord, h⟩ := bind_eq_ok.mp h
    split at h
    next =>
      cases h
      exact .inl ⟨_, rfl⟩
    next t =>
      -- in either mode the coordination writes the caller's local state alone
      have hwalk : t.cpuPowerNodes = Function.update s.powerDomainTree.cpuPowerNodes cpu
          { s.powerDomainTree.cpuPowerNodes cpu with localState := composite.cpuLevelState } ∧
          (s.isInOsiMode P = false ∧ s.powerDomainTree.Coordinates T cpu levelToLockTo t ∨
            s.isInOsiMode P = true ∧ s.powerDomainTree.AppliesValidated T cpu levelToLockTo t) := by
        split at hcoord
        · rename_i hosi
          obtain ⟨v, hv, hcoord⟩ := bind_eq_ok.mp hcoord
          split at hcoord
          · cases hcoord
          · split at hcoord
            · cases hcoord
            · obtain ⟨t₁, happ, ht₁⟩ := map_eq_ok.mp hcoord
              cases ht₁
              exact ⟨CompositePowerState.applyCoordinatedStateToPowerDomainTree_cpuPowerNodes happ,
                .inr ⟨hosi, A, composite, highestAffectedLevel, t, hA, hv, happ, rfl⟩⟩
        · rename_i hosi
          obtain ⟨⟨c', t₁⟩, hcs, hcoord⟩ := bind_eq_ok.mp hcoord
          cases hcoord
          refine ⟨?_, .inl ⟨by simpa using hosi, A, composite, c', _, t₁, hA, rfl, hcs, rfl⟩⟩
          simp [updateCpu, CompositePowerState.coordinateState_cpuPowerNodes hcs,
            CompositePowerState.coordinateState_cpuLevelState hcs]
      obtain ⟨hcpus, hmode⟩ := hwalk
      right
      split at h
      · rename_i hpd
        obtain ⟨node, hnode, h⟩ := bind_eq_ok.mp h
        obtain ⟨hnone, rfl⟩ := CpuPowerNode.setEntryPoint_eq_ok hnode
        cases h
        refine ⟨_, rfl, fun _ => by simpa [hcpus] using hnone, by simp [hcpus, hpd], hmode⟩
      · rename_i hpd
        cases h
        exact ⟨_, rfl, fun h => absurd h hpd, by simp [hcpus, hpd], hmode⟩

omit [LinearOrder σ] in
/-- The wake-up from a suspend sets the caller running and drops the entry point of an abandoned
    power down. -/
theorem cpuSuspendWake_cases {isPowerDownState : Bool}
    (h : s.cpuSuspendWake T cpu isPowerDownState = .ok r) :
    ∃ t, r = (s.withTree t, .returned (.ok ())) ∧
      t.cpuPowerNodes = Function.update s.powerDomainTree.cpuPowerNodes cpu
        { s.powerDomainTree.cpuPowerNodes cpu with
          localState := run
          entryPoint := if isPowerDownState then none
            else (s.powerDomainTree.cpuPowerNodes cpu).entryPoint } ∧
      s.powerDomainTree.SetsRunning T cpu t := by
  obtain ⟨_, -, h⟩ := bind_eq_ok.mp h
  obtain ⟨A, hA, h⟩ := bind_eq_ok.mp h
  obtain ⟨t, ht, h⟩ := bind_eq_ok.mp h
  cases h
  refine ⟨t, rfl, ?_, A, _, t, hA, ?_, ht, rfl⟩
  · rw [AncestorPowerDomains.setRunning_cpuPowerNodes ht]
    cases isPowerDownState <;> simp [updateCpu, CpuPowerNode.popEntryPoint]
  · cases isPowerDownState <;> rfl

/-- `CPU_OFF` returns the platform's error, or turns the caller off. -/
theorem cpuOff_cases {powerDomainOffEarly : Except ErrorCode Unit}
    (h : s.cpuOff T cpu powerDomainOffEarly = .ok r) :
    (∃ e, r = (s, .returned (.error e))) ∨
      ∃ t, r = (s.withTree t, .off) ∧
        t.cpuPowerNodes = Function.update s.powerDomainTree.cpuPowerNodes cpu
          { s.powerDomainTree.cpuPowerNodes cpu with affinityInfo := .off, localState := off } ∧
        s.powerDomainTree.Coordinates T cpu T.maxPowerLevel t := by
  obtain ⟨_, -, h⟩ := bind_eq_ok.mp h
  split at h
  · cases h
    exact .inl ⟨_, rfl⟩
  · obtain ⟨A, hA, h⟩ := bind_eq_ok.mp h
    obtain ⟨⟨c', t⟩, hcs, h⟩ := bind_eq_ok.mp h
    cases h
    refine .inr ⟨_, rfl, ?_, A, _, c', _, t, hA, ?_, hcs, rfl⟩
    · simp [updateCpu, CompositePowerState.coordinateState_cpuPowerNodes hcs]
    · rfl

omit [LinearOrder σ] [PlatformPowerState σ] in
/-- `CPU_ON` fails with the state unchanged, or makes a CPU that is off pending with the entry
    point. -/
theorem cpuOn_cases {target : Option Nat} {entry : ε} {powerDomainOn : Except ErrorCode Unit}
    (h : s.cpuOn T P target entry powerDomainOn = .ok r) :
    (∃ e, r = (s, .returned (.error e))) ∨
      ∃ index, target = some index ∧ powerDomainOn = .ok () ∧
        (s.powerDomainTree.cpuPowerNodes index).affinityInfo = .off ∧
        (s.powerDomainTree.cpuPowerNodes index).entryPoint = none ∧
        r = (s.withTree (s.powerDomainTree.setCpu index { s.powerDomainTree.cpuPowerNodes index with
          affinityInfo := .onPending, entryPoint := some entry }), .returned (.ok ())) := by
  unfold cpuOn at h
  split at h
  · cases h
    exact .inl ⟨_, rfl⟩
  · rename_i index
    split at h
    · cases h
      exact .inl ⟨_, rfl⟩
    · obtain ⟨node, hnode, h⟩ := bind_eq_ok.mp h
      obtain ⟨-, rfl⟩ := PowerDomainTree.lockedCpuNode_eq_ok hnode
      split at h
      · cases h
        exact .inl ⟨_, rfl⟩
      · cases h
        exact .inl ⟨_, rfl⟩
      · rename_i hoff
        split at h
        · obtain ⟨node', hnode', h⟩ := bind_eq_ok.mp h
          obtain ⟨hnone, rfl⟩ := CpuPowerNode.setEntryPoint_eq_ok hnode'
          cases h
          exact .inr ⟨index, rfl, rfl, hoff, hnone, rfl⟩
        -- the platform failed to power the CPU on: its node is back as it was
        · cases h
          refine .inl ⟨‹ErrorCode›, ?_⟩
          have hnode : ({ s.powerDomainTree.cpuPowerNodes index with affinityInfo := .off } :
              CpuPowerNode σ ε) = s.powerDomainTree.cpuPowerNodes index := by
            rw [← hoff]
          simp [withTree, PowerDomainTree.setCpu, hnode]

omit [LinearOrder σ] in
/-- The boot of a pending or suspended CPU: it comes on and runs, and leaves with the entry point
    its node held, which is taken out. -/
theorem handleCpuBoot_cases (h : s.handleCpuBoot T cpu = .ok r) :
    (s.powerDomainTree.cpuPowerNodes cpu).affinityInfo ≠ .off ∧
      ∃ t entry, (s.powerDomainTree.cpuPowerNodes cpu).entryPoint = some entry ∧
        r = (s.withTree t, .wakeUp
          (if (s.powerDomainTree.cpuPowerNodes cpu).affinityInfo = .onPending then .cpuOn entry
            else .suspendFinished entry)) ∧
        t.cpuPowerNodes = Function.update s.powerDomainTree.cpuPowerNodes cpu
          { s.powerDomainTree.cpuPowerNodes cpu with
            affinityInfo := .on, localState := run, entryPoint := none } ∧
        s.powerDomainTree.SetsRunning T cpu t := by
  obtain ⟨node, hnode, h⟩ := bind_eq_ok.mp h
  obtain ⟨-, rfl⟩ := PowerDomainTree.lockedCpuNode_eq_ok hnode
  extract_lets affinityInfo jp at h
  split at h
  · cases h
  rename_i hoff
  simp -zeta only [jp] at h
  obtain ⟨A, hA, h⟩ := bind_eq_ok.mp h
  extract_lets composite boot resume assertPowerDown at h
  -- from a tree in which the caller's node is on, the boot sets the caller running and takes
  -- its entry point
  have hboot : ∀ t wakeFromSuspend, boot (t, wakeFromSuspend) = .ok r →
      t.cpuPowerNodes = Function.update s.powerDomainTree.cpuPowerNodes cpu
        { s.powerDomainTree.cpuPowerNodes cpu with affinityInfo := .on } →
      t.nonCpuPowerNodes = s.powerDomainTree.nonCpuPowerNodes →
      ∃ t entry, (s.powerDomainTree.cpuPowerNodes cpu).entryPoint = some entry ∧
        r = (s.withTree t, .wakeUp
          (if wakeFromSuspend then .suspendFinished entry else .cpuOn entry)) ∧
        t.cpuPowerNodes = Function.update s.powerDomainTree.cpuPowerNodes cpu
          { s.powerDomainTree.cpuPowerNodes cpu with
            affinityInfo := .on, localState := run, entryPoint := none } ∧
        s.powerDomainTree.SetsRunning T cpu t := by
    intro t wakeFromSuspend hb ht htn
    simp only [boot, CpuPowerNode.popEntryPoint] at hb
    obtain ⟨t', ht', hb⟩ := bind_eq_ok.mp hb
    have hcpus : t'.cpuPowerNodes = Function.update s.powerDomainTree.cpuPowerNodes cpu
        { s.powerDomainTree.cpuPowerNodes cpu with affinityInfo := .on, localState := run } := by
      simp [AncestorPowerDomains.setRunning_cpuPowerNodes ht', updateCpu, ht]
    split at hb
    · rename_i entry hentry
      cases hb
      refine ⟨_, entry, by simpa [hcpus] using hentry, rfl, by simp [hcpus],
        A, _, t', hA, ?_, ht', rfl⟩
      exact htn
    · cases hb
  split at h
  -- a pending CPU comes on
  · rename_i hpending
    have hpending' : (s.powerDomainTree.cpuPowerNodes cpu).affinityInfo = .onPending := hpending
    simp only [pure_eq_ok, ok_bind] at h
    obtain ⟨t, entry, hentry, rfl, ht⟩ := hboot _ false h (by simp [updateCpu]) rfl
    exact ⟨hoff, t, entry, hentry, by simp [hpending'], ht⟩
  -- a suspended CPU, past the asserts, keeps its node until the boot
  · rename_i hpending
    have hpending' : (s.powerDomainTree.cpuPowerNodes cpu).affinityInfo ≠ .onPending := hpending
    split at h
    · cases h
    rename_i hon
    have hon' : (s.powerDomainTree.cpuPowerNodes cpu).affinityInfo = .on := not_not.mp hon
    simp -zeta only [assertPowerDown] at h
    split at h
    · cases h
    simp only [resume, pure_eq_ok, ok_bind] at h
    have hself : ({ s.powerDomainTree.cpuPowerNodes cpu with affinityInfo := .on } :
        CpuPowerNode σ ε) = s.powerDomainTree.cpuPowerNodes cpu := by
      rw [← hon']
    obtain ⟨t, entry, hentry, rfl, ht⟩ := hboot _ true h (by simp [hself]) rfl
    exact ⟨hoff, t, entry, hentry, by simp [hpending'], ht⟩

omit [LinearOrder σ] in
/-- On a well-formed tree, the boot of a CPU that is not off and holds an entry point, and that
    is in a power-down state unless it was pending, does not panic: it leaves with the entry
    point, for the reason its affinity gives. -/
theorem handleCpuBoot_eq_ok (hwf : T.WellFormed) (hcpu : cpu < T.cpuCount) {entry : ε}
    (hoff : (s.powerDomainTree.cpuPowerNodes cpu).affinityInfo ≠ .off)
    (hentry : (s.powerDomainTree.cpuPowerNodes cpu).entryPoint = some entry)
    (hon : (s.powerDomainTree.cpuPowerNodes cpu).affinityInfo ≠ .onPending →
      (s.powerDomainTree.cpuPowerNodes cpu).affinityInfo = .on ∧
        powerStateType (s.powerDomainTree.cpuPowerNodes cpu).localState = .powerDown) :
    ∃ psci, s.handleCpuBoot T cpu = .ok (psci, .wakeUp
      (if (s.powerDomainTree.cpuPowerNodes cpu).affinityInfo = .onPending then .cpuOn entry
        else .suspendFinished entry)) := by
  have hlock : s.powerDomainTree.lockedCpuNode T cpu = .ok (s.powerDomainTree.cpuPowerNodes cpu) := by
    simp [PowerDomainTree.lockedCpuNode, hcpu]
  -- from either tree the boot starts with, the walk succeeds and keeps the entry point
  have hwalk : ∀ t : PowerDomainTree σ ε, (t.cpuPowerNodes cpu).entryPoint = some entry →
      ∃ t', AncestorPowerDomains.setRunning T cpu ((T.ancestors cpu).take T.maxPowerLevel)
          (updateCpu t cpu fun node => { node with localState := run }) = .ok t' ∧
        (t'.cpuPowerNodes cpu).entryPoint = some entry := by
    intro t ht
    obtain ⟨t', hrun, hcpus, -⟩ := AncestorPowerDomains.setRunning_loop_eq _ none
      (updateCpu t cpu fun node => { node with localState := run })
      (hwf.lockedPath hcpu T.maxPowerLevel) fun c hc => by cases hc
    exact ⟨t', hrun, by simp [hcpus, updateCpu, ht]⟩
  simp only [handleCpuBoot, hlock, ok_bind, AncestorPowerDomains.newWithMaxLevel_eq T hwf hcpu,
    hoff, if_false]
  by_cases hpending : (s.powerDomainTree.cpuPowerNodes cpu).affinityInfo = .onPending
  · obtain ⟨t', hrun, ht'⟩ := hwalk
      (updateCpu s.powerDomainTree cpu fun node => { node with affinityInfo := .on })
      (by simp [updateCpu, hentry])
    simp [hpending, hrun, CpuPowerNode.popEntryPoint, ht']
  -- a suspended CPU passes both asserts
  · obtain ⟨hon, hpd⟩ := hon hpending
    obtain ⟨t', hrun, ht'⟩ := hwalk s.powerDomainTree hentry
    simp [hon, hrun, CpuPowerNode.popEntryPoint, ht',
      CompositePowerState.cpuLevelState_setLocalStatesFromNodes, CompositePowerState.allRun, hpd]

omit [LinearOrder σ] [PlatformPowerState σ] in
/-- The comparison of `SET_SUSPEND_MODE` changes nothing: it returns, or, on a platform that
    offers OS-initiated mode, goes on to the check. -/
theorem setSuspendMode_cases {mode : SuspendMode} (h : s.setSuspendMode P mode = .ok r) :
    (∃ result, r = (s, .returned result)) ∨
      P.osInitiatedMode = true ∧ r = (s, .suspendModeDiffers mode) := by
  unfold setSuspendMode at h
  split at h
  · cases h
    exact .inl ⟨_, rfl⟩
  · rename_i hosi
    split at h
    · cases h
      exact .inl ⟨_, rfl⟩
    · cases h
      exact .inr ⟨by simpa using hosi, rfl⟩

omit [LinearOrder σ] [PlatformPowerState σ] in
/-- The check of `SET_SUSPEND_MODE` changes nothing: it denies the switch or allows it. -/
theorem setSuspendModeCheck_cases {mode : SuspendMode}
    (h : s.setSuspendModeCheck T cpu mode = .ok r) :
    r = (s, .returned (.error .denied)) ∨ r = (s, .suspendModeAllowed mode) := by
  unfold setSuspendModeCheck at h
  extract_lets jp at h
  -- whichever CPU nodes it reads, the check ends in the join point
  have hjp : ∀ allowed, jp allowed = .ok r →
      r = (s, .returned (.error .denied)) ∨ r = (s, .suspendModeAllowed mode) := by
    intro allowed hj
    simp only [jp] at hj
    split at hj
    · cases hj
      exact .inl rfl
    · cases hj
      exact .inr rfl
  split at h
  · obtain ⟨allowed, -, h⟩ := bind_eq_ok.mp h
    exact hjp allowed h
  · split at h
    · exact hjp true h
    · obtain ⟨allowed, -, h⟩ := bind_eq_ok.mp h
      exact hjp allowed h

omit [LinearOrder σ] [PlatformPowerState σ] in
theorem setSuspendModeWrite_eq_ok {mode : SuspendMode} (h : s.setSuspendModeWrite mode = .ok r) :
    r = ({ s with suspendMode := mode }, .returned (.ok ())) :=
  (Except.ok.inj h).symm

end PsciState

end RustedFirmware.Psci
