import RustedFirmware.Psci.Domains

set_option autoImplicit false

/-! The OS-initiated votes over every run (`src/services/psci.rs`,
    `src/services/psci/power_domain_tree.rs`).

    `get_osi_minimal_allowed_state_without_core` asserts that a CPU whose requested state at a
    node is not `RUN` has no OS-initiated vote there. The tree keeps this in every state the
    system reaches: `set_running` sets the request to `RUN` and clears the vote;
    platform-coordinated `coordinate_state`, in a suspend or in `CPU_OFF`, writes the request of
    a CPU that runs, which has no vote at its ancestors (`HoldsRunning`); and
    `apply_coordinated_state_to_power_domain_tree` writes the vote of a CPU that runs, whose
    request there is `RUN`.

    A core that starts a suspend holds a request the suspend call accepted, with a state per
    level when the platform's composite states have one. With the assert, the OS-initiated check
    of every suspend the system reaches, once all the ancestors are locked, decides by the rule
    over the votes of `Validation`, and a request the rule rejects returns its error to the
    caller and changes nothing. -/

namespace RustedFirmware.Psci

open Rust PlatformPowerState

/-! ### The assert at one node -/

namespace NonCpuPowerNode

variable {σ : Type} [PlatformPowerState σ] {T : Topology} {index cpu : Nat}
  {node : NonCpuPowerNode σ}

/-- `set_running` keeps the assert at a node. -/
theorem OsiConsistent.running (h : node.OsiConsistent T index) (child : Option Nat) :
    (node.running cpu child).OsiConsistent T index := by
  intro j hj hreq
  by_cases hjc : j = cpu
  · subst hjc
    simp [NonCpuPowerNode.running] at hreq
  · have hreq' : node.requestedStates j ≠ run := by
      simpa [NonCpuPowerNode.running, hjc] using hreq
    simpa [NonCpuPowerNode.running, hjc] using h j hj hreq'

/-- A write of the caller's request keeps the assert at a node where the caller, if it is below
    the node, has no vote. -/
theorem OsiConsistent.coordinated [LinearOrder σ] {vote s : σ} {child : Option (Nat × σ)}
    {P : Prop} {node' : NonCpuPowerNode σ} (h : node.OsiConsistent T index)
    (hnone : inRange (T.cpuRange index) cpu = true → node.suspendStates cpu = none)
    (hc : CoordinatedNode T index cpu vote child P s node node') : node'.OsiConsistent T index := by
  intro j hj hreq
  rw [hc.suspendStates_eq]
  by_cases hjc : j = cpu
  · subst hjc
    exact hnone hj
  · rw [hc.requestedStates_eq, Function.update_of_ne hjc] at hreq
    exact h j hj hreq

/-- A write of the caller's vote keeps the assert at a node where the caller, if it is below the
    node, requests `RUN`. -/
theorem OsiConsistent.setSuspendState (h : node.OsiConsistent T index)
    (hrun : inRange (T.cpuRange index) cpu = true → node.requestedStates cpu = run) (s : σ) :
    ({ node with suspendStates := Function.update node.suspendStates cpu (some s) } :
      NonCpuPowerNode σ).OsiConsistent T index := by
  intro j hj hreq
  by_cases hjc : j = cpu
  · subst hjc
    exact absurd (hrun hj) hreq
  · simpa [hjc] using h j hj hreq

end NonCpuPowerNode

/-! ### The assert over the tree, through the walks -/

namespace PowerDomainTree

variable {σ ε : Type} [PlatformPowerState σ] {T : Topology} {t t' : PowerDomainTree σ ε}
  {cpu : Nat}

theorem OsiConsistent.of_nonCpuPowerNodes_eq (h : t.OsiConsistent T)
    (heq : t'.nonCpuPowerNodes = t.nonCpuPowerNodes) : t'.OsiConsistent T := by
  intro n hn
  rw [heq]
  exact h n hn

/-- A write of one node keeps the assert when the node written keeps it. -/
theorem OsiConsistent.setNode {i : Nat} {node : NonCpuPowerNode σ} (h : t.OsiConsistent T)
    (hnode : i < T.nonCpuCount → (t.nonCpuPowerNodes i).OsiConsistent T i →
      node.OsiConsistent T i) :
    (t.setNode i node).OsiConsistent T :=
  forall_setNode (P := fun n node => node.OsiConsistent T n) h hnode

/-- `set_running` keeps the assert. -/
theorem SetsRunning.osiConsistent [LinearOrder σ] (h : t.SetsRunning T cpu t')
    (hcons : t.OsiConsistent T) : t'.OsiConsistent T := by
  obtain ⟨A, t₀, t₁, -, h₀, hwalk, h₁⟩ := h
  refine (AncestorPowerDomains.setRunning_loop_induction (fun t₂ => t₂.OsiConsistent T)
    (fun _ _ child ht => ht.setNode fun _ hold => hold.running child) hwalk
    (hcons.of_nonCpuPowerNodes_eq h₀)).of_nonCpuPowerNodes_eq h₁

variable [LinearOrder σ] (hwf : T.WellFormed) (hcpu : cpu < T.cpuCount)
include hwf hcpu

/-- Platform-coordinated `coordinate_state` of a CPU whose ancestors hold it running keeps the
    assert: the walk writes the CPU's requests and no vote, and the CPU has none. -/
theorem Coordinates.osiConsistent {level : Nat} (h : t.Coordinates T cpu level t')
    (hrun : t.AncestorsRunning T cpu) (hcons : t.OsiConsistent T) : t'.OsiConsistent T := by
  obtain ⟨A, c, c', t₀, t₁, -, h₀, hcoord, h₁⟩ := h
  -- the walk carries the assert and the caller's lack of a vote at its ancestors
  let Quiet := fun t₂ : PowerDomainTree σ ε =>
    t₂.OsiConsistent T ∧ ∀ i ∈ T.ancestors cpu, (t₂.nonCpuPowerNodes i).suspendStates cpu = none
  have hQ : Quiet t₁ := by
    have hQ₀ : Quiet t₀ :=
      ⟨hcons.of_nonCpuPowerNodes_eq h₀, fun i hi => by rw [h₀]; exact (hrun i hi).suspendState⟩
    rcases CompositePowerState.coordinateState_eq_ok hcoord with ⟨-, -, rfl⟩ |
      ⟨_, _, _, -, hloop, -⟩
    · exact hQ₀
    · refine CompositePowerState.coordinateLoop_induction Quiet ?_ hloop hQ₀
      rintro t₂ i _ _ _ _ node ⟨hcons₂, hnone₂⟩ hnode
      refine ⟨hcons₂.setNode fun hi hold => hold.coordinated (fun hr => ?_) hnode,
        forall_setNode (P := fun _ node => node.suspendStates cpu = none) hnone₂
          fun _ hold => by rwa [hnode.suspendStates_eq]⟩
      exact hnone₂ i ((hwf.cpuRange_iff cpu hcpu i hi).mp hr)
  exact hQ.1.of_nonCpuPowerNodes_eq h₁

/-- An OS-initiated suspend of a CPU whose ancestors hold it running keeps the assert: the walk
    writes the CPU's votes where it requests `RUN`, then only local states and children's
    states. -/
theorem AppliesValidated.osiConsistent {level : Nat} (h : t.AppliesValidated T cpu level t')
    (hrun : t.AncestorsRunning T cpu) (hcons : t.OsiConsistent T) : t'.OsiConsistent T := by
  obtain ⟨A, c, hal, t₁, -, -, happ, h₁⟩ := h
  obtain ⟨t₂, hsuspend, hnodes⟩ := bind_eq_ok.mp happ
  -- the votes leave the caller's requests, `RUN` at its ancestors, as they are
  let Requests := fun t₃ : PowerDomainTree σ ε =>
    t₃.OsiConsistent T ∧ ∀ i ∈ T.ancestors cpu, (t₃.nonCpuPowerNodes i).requestedStates cpu = run
  have hQ : Requests t₂ := by
    refine CompositePowerState.setSuspendStatesLoop_induction Requests ?_ hsuspend
      ⟨hcons, fun i hi => (hrun i hi).requestedState⟩
    rintro t₃ i s ⟨hcons₃, hrun₃⟩
    refine ⟨hcons₃.setNode fun hi hold => hold.setSuspendState (fun hr => ?_) s,
      forall_setNode (P := fun _ node => node.requestedStates cpu = run) hrun₃ fun _ hold => hold⟩
    exact hrun₃ i ((hwf.cpuRange_iff cpu hcpu i hi).mp hr)
  obtain ⟨t₃, ht₃, ht'⟩ := CompositePowerState.setNodesFromLocalStates_eq_ok hnodes
  have hcons₃ : t₃.OsiConsistent T := by
    rcases ht₃ with rfl | ⟨_, hloop⟩
    · exact hQ.1
    · exact CompositePowerState.setNodesLoop_induction (fun t₄ => t₄.OsiConsistent T) hloop
        (fun _ _ _ _ _ ht => ht.setNode fun _ hold => hold) hQ.1
  refine OsiConsistent.of_nonCpuPowerNodes_eq ?_ h₁
  rcases ht' with rfl | ⟨i, ns, rfl⟩
  · exact hcons₃
  · exact hcons₃.setNode fun _ hold => hold

end PowerDomainTree

/-! ### The requests of the suspends -/

namespace CompositePowerState

variable {σ : Type} [LinearOrder σ] [PlatformPowerState σ]

/-- A valid suspend request claims to be last at no level above `MAX_POWER_LEVEL`. -/
theorem lastAtPowerLevel_le_of_isValidSuspendRequest {c : CompositePowerState σ}
    {maxPowerLevel : Nat} {isPowerDownState : Bool}
    (h : c.isValidSuspendRequest maxPowerLevel isPowerDownState = true) (L : Nat)
    (hL : c.lastAtPowerLevel = some L) : L ≤ maxPowerLevel := by
  unfold isValidSuspendRequest at h
  rw [hL] at h
  split_ifs at h with h₁ h₂ h₃
  all_goals first | cases h | exact Nat.le_of_not_lt (by simpa using h₃)

end CompositePowerState

/-- What a core that has started a suspend asked for: a valid request, parsed by the platform or
    its system suspend state, whose highest affected level is its highest level not in `RUN`. -/
def Phase.Requested {σ ε : Type} [LinearOrder σ] [PlatformPowerState σ] (T : Topology)
    (P : PsciPlatform σ ε) : Phase σ ε → Prop
  | .suspending _ highestAffectedLevel composite _ isPowerDownState =>
    composite.isValidSuspendRequest T.maxPowerLevel isPowerDownState = true ∧
      composite.findHighestNonRunLevel = some highestAffectedLevel ∧
      ((∃ powerState, P.tryParsePowerState powerState = some composite) ∨
        composite = P.sysSuspendPowerState)
  | _ => True

/-! ### The sections -/

namespace PsciState

variable {σ ε : Type} [LinearOrder σ] [PlatformPowerState σ] {T : Topology}
  {P : PsciPlatform σ ε} {cpu : Nat} {ph : Phase σ ε} {s : PsciState σ ε}
  {r : PsciState σ ε × Outcome σ ε} {a : Action σ ε}

/-- What a section writes into the non-CPU nodes: nothing, `set_running` of the caller, or, from
    a phase that runs, one of the coordinations of the caller. -/
theorem runSection_nonCpuPowerNodes (hen : enabled ph a = true)
    (h : System.runSection T P s ph cpu a = .ok r) :
    r.1.powerDomainTree.nonCpuPowerNodes = s.powerDomainTree.nonCpuPowerNodes ∨
      s.powerDomainTree.SetsRunning T cpu r.1.powerDomainTree ∨
      ph.Running ∧ ∃ level, s.powerDomainTree.Coordinates T cpu level r.1.powerDomainTree ∨
        s.powerDomainTree.AppliesValidated T cpu level r.1.powerDomainTree := by
  cases a with
  | standbyWake =>
    rw [cpuStandbyWake_eq_ok h]
    exact .inl rfl
  | wake =>
    cases ph with
    | suspended =>
      obtain ⟨t, rfl, -, hwalk⟩ := cpuSuspendWake_cases h
      exact .inr (.inl hwalk)
    | _ => simp [enabled] at hen
  | boot =>
    obtain ⟨-, t, _, -, rfl, -, hwalk⟩ := handleCpuBoot_cases h
    exact .inr (.inl hwalk)
  | coordinate =>
    cases ph with
    | suspending levelToLockTo =>
      rcases cpuSuspendCoordinate_cases h with ⟨_, rfl⟩ | ⟨t, rfl, -, -, ⟨-, hwalk⟩ | ⟨-, hwalk⟩⟩
      · exact .inl rfl
      · exact .inr (.inr ⟨trivial, levelToLockTo, .inl hwalk⟩)
      · exact .inr (.inr ⟨trivial, levelToLockTo, .inr hwalk⟩)
    | _ => simp [enabled] at hen
  | cpuSuspend => exact .inl (by cases cpuSuspend_leaves h <;> rfl)
  | cpuDefaultSuspend => exact .inl (by cases cpuDefaultSuspend_leaves h <;> rfl)
  | systemSuspend => exact .inl (by cases systemSuspend_leaves h <;> rfl)
  | cpuOff =>
    obtain rfl := Phase.eq_executing_of_enabled hen (by simp)
    rcases cpuOff_cases h with ⟨_, rfl⟩ | ⟨t, rfl, -, hwalk⟩
    · exact .inl rfl
    · exact .inr (.inr ⟨trivial, _, .inl hwalk⟩)
  | cpuOn =>
    rcases cpuOn_cases h with ⟨_, rfl⟩ | ⟨index, -, -, -, -, rfl⟩
    all_goals exact .inl rfl
  | setSuspendMode =>
    rcases setSuspendMode_cases h with ⟨_, rfl⟩ | ⟨-, rfl⟩
    all_goals exact .inl rfl
  | setSuspendModeCheck =>
    cases ph with
    | suspendModeDiffers =>
      rcases setSuspendModeCheck_cases h with rfl | rfl
      all_goals exact .inl rfl
    | _ => simp [enabled] at hen
  | setSuspendModeWrite =>
    cases ph with
    | suspendModeAllowed =>
      rw [setSuspendModeWrite_eq_ok h]
      exact .inl rfl
    | _ => simp [enabled] at hen

/-- Every section keeps the assert, from a state where the caller's ancestors hold it running
    while it runs. -/
theorem runSection_osiConsistent (hwf : T.WellFormed) (hcpu : cpu < T.cpuCount)
    (hen : enabled ph a = true) (hrun : ph.Running → s.powerDomainTree.AncestorsRunning T cpu)
    (hcons : s.powerDomainTree.OsiConsistent T) (h : System.runSection T P s ph cpu a = .ok r) :
    r.1.powerDomainTree.OsiConsistent T := by
  rcases runSection_nonCpuPowerNodes hen h with heq | hwalk | ⟨hph, level, hwalk | hwalk⟩
  · exact hcons.of_nonCpuPowerNodes_eq heq
  · exact hwalk.osiConsistent hcons
  · exact hwalk.osiConsistent hwf hcpu (hrun hph) hcons
  · exact hwalk.osiConsistent hwf hcpu (hrun hph) hcons

/-- A section leaves the caller in a suspend only with a request a suspend call accepted. -/
theorem runSection_requested (hen : enabled ph a = true)
    (h : System.runSection T P s ph cpu a = .ok r) : r.2.next.Requested T P := by
  -- the suspend calls say what they accept; every other section leaves the caller elsewhere
  have hleaves : ∀ {entry : ε}, SuspendLeaves T P s cpu entry r → r.2.next.Requested T P := by
    intro entry hl
    cases hl with
    | suspending _ _ _ _ hvalid hh hcomposite => exact ⟨hvalid, hh, hcomposite⟩
    | _ => trivial
  cases a with
  | cpuSuspend => exact hleaves (cpuSuspend_leaves h)
  | cpuDefaultSuspend => exact hleaves (cpuDefaultSuspend_leaves h)
  | systemSuspend => exact hleaves (systemSuspend_leaves h)
  | standbyWake =>
    rw [cpuStandbyWake_eq_ok h]
    trivial
  | wake =>
    cases ph with
    | suspended =>
      obtain ⟨t, rfl, -⟩ := cpuSuspendWake_cases h
      trivial
    | _ => simp [enabled] at hen
  | boot =>
    obtain ⟨-, t, _, -, rfl, -⟩ := handleCpuBoot_cases h
    trivial
  | coordinate =>
    cases ph with
    | suspending =>
      rcases cpuSuspendCoordinate_cases h with ⟨_, rfl⟩ | ⟨t, rfl, -⟩
      all_goals trivial
    | _ => simp [enabled] at hen
  | cpuOff =>
    rcases cpuOff_cases h with ⟨_, rfl⟩ | ⟨t, rfl, -⟩
    all_goals trivial
  | cpuOn =>
    rcases cpuOn_cases h with ⟨_, rfl⟩ | ⟨index, -, -, -, -, rfl⟩
    all_goals trivial
  | setSuspendMode =>
    rcases setSuspendMode_cases h with ⟨_, rfl⟩ | ⟨-, rfl⟩
    all_goals trivial
  | setSuspendModeCheck =>
    cases ph with
    | suspendModeDiffers =>
      rcases setSuspendModeCheck_cases h with rfl | rfl
      all_goals trivial
    | _ => simp [enabled] at hen
  | setSuspendModeWrite =>
    cases ph with
    | suspendModeAllowed =>
      rw [setSuspendModeWrite_eq_ok h]
      trivial
    | _ => simp [enabled] at hen

end PsciState

/-! ### The invariant over whole runs -/

/-- The fourth invariant: the tree keeps the assert of
    `get_osi_minimal_allowed_state_without_core`, and every core in a suspend holds a request a
    suspend call accepted. -/
structure System.Votes {σ ε : Type} [LinearOrder σ] [PlatformPowerState σ] (T : Topology)
    (P : PsciPlatform σ ε) (sys : System σ ε) : Prop where
  osiConsistent : sys.psci.powerDomainTree.OsiConsistent T
  requested : ∀ c, (sys.phase c).Requested T P

namespace System

variable {σ ε : Type} [LinearOrder σ] [PlatformPowerState σ] {T : Topology}
  {P : PsciPlatform σ ε}

theorem Votes.new {primary : Nat} {sys : System σ ε} (h : System.new T primary = .ok sys) :
    Votes T P sys := by
  obtain ⟨-, hphase, -, hwalk⟩ := new_eq_ok h
  -- a fresh node has no OS-initiated vote
  refine ⟨hwalk.osiConsistent fun _ _ _ _ _ => rfl, fun c => ?_⟩
  rw [hphase]
  by_cases hc : c = primary <;> simp [hc, Phase.Requested]

/-- Every step keeps the fourth invariant, from a state where the ancestors of the cores that run
    hold them running. -/
theorem Votes.step (hwf : T.WellFormed) {sys sys' : System σ ε} {l : Label σ ε}
    (hdomains : DomainsRun T sys) (hs : Votes T P sys) (h : Step T P sys l sys') :
    Votes T P sys' := by
  obtain ⟨hcpu, hen, o, hstep⟩ := h
  have hsec := (step_cases hstep).1
  refine ⟨PsciState.runSection_osiConsistent hwf hcpu hen (hdomains l.cpu hcpu) hs.osiConsistent
    hsec, fun c => ?_⟩
  -- a core in a suspend after the step is the caller, or was in the same suspend before it
  by_contra hnot
  rcases step_phase (Q := fun ph => ¬ph.Requested T P) (fun _ hQ => hQ trivial) hstep c hnot with
    ⟨-, hnext⟩ | ⟨-, hprev⟩
  · exact hnext (PsciState.runSection_requested hen hsec)
  · exact hprev (hs.requested c)

theorem Votes.of_reachable [LawfulPowerState σ] (hwf : T.WellFormed) {primary : Nat}
    {sys₀ sys : System σ ε} (h₀ : System.new T primary = .ok sys₀)
    (hr : Transition.Reachable (Step T P) sys₀ sys) : Votes T P sys :=
  (hr.invariant (I := fun sys => DomainsRun T sys ∧ Votes T P sys)
    ⟨DomainsRun.new hwf h₀, Votes.new h₀⟩
    fun _ _ _ hs h => ⟨hs.1.step hwf h, hs.2.step hwf hs.1 h⟩).2

/-! ### The OS-initiated check of the suspends the system reaches -/

/-- In every state the system reaches on a well-formed tree, from a platform whose composite
    states have a state per level, every node keeps the assert of
    `get_osi_minimal_allowed_state_without_core`; for a core in a suspend that locked all its
    ancestors, `validate_state_coordination` returns the verdict of the rule over the votes; and
    in OS-initiated mode, when that verdict is an error, the coordination returns it to the caller
    and changes nothing but the caller's phase. -/
theorem validateStateCoordination_of_reachable [LawfulPowerState σ] [OffDeepest σ]
    (hwf : T.WellFormed) (hcount : P.StateCount T) {primary : Nat} {sys₀ sys : System σ ε}
    (h₀ : System.new T primary = .ok sys₀) (hr : Transition.Reachable (Step T P) sys₀ sys) :
    sys.psci.powerDomainTree.OsiConsistent T ∧
      ∀ c < T.cpuCount, ∀ highestAffectedLevel composite entry isPowerDownState,
        sys.phase c = .suspending T.maxPowerLevel highestAffectedLevel composite entry
          isPowerDownState →
        (composite.createHighestAffectedLevelResolvedState
            highestAffectedLevel).validateStateCoordination T c highestAffectedLevel
            (T.ancestors c) sys.psci.powerDomainTree =
          .ok (sys.psci.powerDomainTree.osiVerdict T c highestAffectedLevel composite) ∧
        ∀ e validateSuspend, sys.psci.isInOsiMode P = true →
          sys.psci.powerDomainTree.osiVerdict T c highestAffectedLevel composite = .error e →
          step T P sys ⟨c, .coordinate false validateSuspend⟩ =
            .ok (⟨sys.psci, Function.update sys.phase c .executing⟩, .returned (.error e)) := by
  obtain ⟨hcons, hreq⟩ := Votes.of_reachable hwf h₀ hr
  refine ⟨hcons, fun c hc hal composite entry isPowerDownState hph => ?_⟩
  have hrequested := hreq c
  rw [hph] at hrequested
  obtain ⟨hvalid, hh, hcomposite⟩ := hrequested
  -- the request has a state per level, so its highest affected level is a level of the tree
  have hlen : composite.states.length = T.maxPowerLevel + 1 := by
    rcases hcomposite with ⟨powerState, hparse⟩ | rfl
    · exact hcount.tryParsePowerState_length powerState composite hparse
    · exact hcount.sysSuspendPowerState_length
  have hhal : hal ≤ T.maxPowerLevel := by
    have := (rposition_eq_some hh).1
    omega
  have hv := CompositePowerState.validateStateCoordination_eq_osiVerdict hwf hcons hc hlen hhal
    (CompositePowerState.lastAtPowerLevel_le_of_isValidSuspendRequest hvalid)
  refine ⟨hv, fun e validateSuspend hosi herr => ?_⟩
  -- all the ancestors are locked
  have hancestors : AncestorPowerDomains.newWithMaxLevel T (T.cpuParent c) T.maxPowerLevel =
      .ok (T.ancestors c) := by
    rw [AncestorPowerDomains.newWithMaxLevel_eq T hwf hc,
      List.take_of_length_le (by rw [hwf.length_ancestors hc])]
  refine step_eq T P (l := ⟨c, .coordinate false validateSuspend⟩) (o := .returned (.error e)) ?_
    (by simp)
  rw [hph]
  exact PsciState.cpuSuspendCoordinate_of_rejected T P hancestors hosi (herr ▸ hv)

/-- On the FVP in OS-initiated mode, with core 1 turned on and booted, core 0 asks to power down
    itself and its cluster, claiming to be the last core running there: the check finds core 1's
    `RUN` vote and the coordination returns `Denied`. -/
theorem validateStateCoordination_of_reachable_fvp :
    ∃ s₀ s : System Fvp.FvpPowerState Nat, System.new Fvp.tree 0 = .ok s₀ ∧
      Transition.Reachable (Step Fvp.tree (Fvp.platform fun _ => true)) s₀ s ∧
      s.phase 0 = .suspending Fvp.tree.maxPowerLevel 1 ⟨[.off, .off, .run], some 1⟩ 0x8800_0000
        true ∧
      s.psci.isInOsiMode (Fvp.platform fun _ => true) = true ∧
      s.psci.powerDomainTree.OsiConsistent Fvp.tree ∧
      s.psci.powerDomainTree.osiVerdict Fvp.tree 0 1 ⟨[.off, .off, .run], some 1⟩ =
        .error .denied ∧
      step Fvp.tree (Fvp.platform fun _ => true) s ⟨0, .coordinate false (.ok ())⟩ =
        .ok (⟨s.psci, Function.update s.phase 0 .executing⟩, .returned (.error .denied)) := by
  obtain ⟨s₀, s, h₀, hrun, hph, hosi, hcheck⟩ : ∃ s₀ s : System Fvp.FvpPowerState Nat,
      System.new Fvp.tree 0 = .ok s₀ ∧
      System.runChecked Fvp.tree (Fvp.platform fun _ => true) s₀
        [⟨0, .setSuspendMode .osInitiated⟩, ⟨0, .setSuspendModeCheck⟩, ⟨0, .setSuspendModeWrite⟩,
          ⟨0, .cpuOn (some 1) 0x8800_0000 (.ok ())⟩, ⟨1, .boot⟩,
          ⟨0, .cpuSuspend (.powerDown 0x1022) 0x8800_0000⟩] = some s ∧
      s.phase 0 = .suspending Fvp.tree.maxPowerLevel 1 ⟨[.off, .off, .run], some 1⟩ 0x8800_0000
        true ∧
      s.psci.isInOsiMode (Fvp.platform fun _ => true) = true ∧
      (CompositePowerState.createHighestAffectedLevelResolvedState
          (⟨[.off, .off, .run], some 1⟩ : CompositePowerState Fvp.FvpPowerState)
          1).validateStateCoordination Fvp.tree 0 1 (Fvp.tree.ancestors 0)
          s.psci.powerDomainTree = .ok (.error .denied) :=
    ⟨_, _, rfl, rfl, rfl, rfl, rfl⟩
  have hr := reachable_of_runChecked _ _ hrun
  obtain ⟨hcons, hsuspend⟩ := validateStateCoordination_of_reachable Fvp.tree_wellFormed
    (Fvp.platform_stateCount _) h₀ hr
  obtain ⟨hv, hstep⟩ := hsuspend 0 (by decide) _ _ _ _ hph
  have hverdict : s.psci.powerDomainTree.osiVerdict Fvp.tree 0 1 ⟨[.off, .off, .run], some 1⟩ =
      .error .denied := Except.ok.inj (hv.symm.trans hcheck)
  exact ⟨s₀, s, h₀, hr, hph, hosi, hcons, hverdict, hstep _ _ hosi hverdict⟩

end System

end RustedFirmware.Psci
