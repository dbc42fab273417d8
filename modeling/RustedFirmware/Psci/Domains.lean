import RustedFirmware.Psci.Invariant

set_option autoImplicit false

/-! The power domains above a running CPU run (`src/services/psci.rs`,
    `src/services/psci/power_domain_tree.rs`).

    Every ancestor of a CPU that runs is in `RUN`: the firmware never lets the platform power
    down a cluster, or the system, under a CPU that executes. The tree keeps this through the
    other CPUs' walks because each ancestor of a running CPU records the CPU's request as `RUN`
    and no OS-initiated vote of it (`HoldsRunning`). Platform-coordinated `coordinate_state` sets
    a node to the shallowest request below it, which is then that `RUN`; in OS-initiated mode
    `validate_state_coordination` rejects a request deeper than the vote of a running
    descendant other than the caller, so `apply_coordinated_state_to_power_domain_tree` writes
    `RUN` at such a node; and `set_running` gives a waking CPU the same at all its ancestors.

    `System.DomainsRun` is the invariant over the phases of the cores: it holds in the state
    `Psci::new` leaves and every locked section keeps it, whichever core runs it and in whatever
    order the sections of the cores interleave. -/

namespace RustedFirmware.Psci

open Rust PlatformPowerState

/-! ### A node that holds a CPU running -/

namespace NonCpuPowerNode

variable {σ : Type} [PlatformPowerState σ] {T : Topology} {index cpu d : Nat}
  {node : NonCpuPowerNode σ}

/-- A node holds a CPU running: the node runs, and the CPU requests `RUN` there and has no
    OS-initiated vote. -/
structure HoldsRunning (node : NonCpuPowerNode σ) (cpu : Nat) : Prop where
  localState : node.localState = run
  requestedState : node.requestedStates cpu = run
  suspendState : node.suspendStates cpu = none

/-- `set_running` makes a node hold the CPU it runs for. -/
theorem holdsRunning_running (child : Option Nat) : (node.running cpu child).HoldsRunning cpu :=
  ⟨rfl, Function.update_self .., Function.update_self ..⟩

theorem HoldsRunning.running (h : node.HoldsRunning d) (hd : d ≠ cpu) (child : Option Nat) :
    (node.running cpu child).HoldsRunning d :=
  ⟨rfl, by simp [NonCpuPowerNode.running, hd, h.requestedState],
    by simp [NonCpuPowerNode.running, hd, h.suspendState]⟩

theorem HoldsRunning.setSuspendState (h : node.HoldsRunning d) (hd : d ≠ cpu) (s : σ) :
    ({ node with suspendStates := Function.update node.suspendStates cpu (some s) } :
      NonCpuPowerNode σ).HoldsRunning d :=
  ⟨h.localState, h.requestedState, by simp [hd, h.suspendState]⟩

/-- A write that keeps the node in `RUN` keeps it holding every CPU it held. -/
theorem HoldsRunning.setLocalState_run (h : node.HoldsRunning d) (nonCpuStates : Nat → σ) :
    ({ node with localState := run, nonCpuStates := nonCpuStates } :
      NonCpuPowerNode σ).HoldsRunning d :=
  ⟨rfl, h.requestedState, h.suspendState⟩

variable [LinearOrder σ] [LawfulPowerState σ]

/-- A coordinated node keeps holding every other CPU below it that it held: the shallowest
    request below it is that CPU's `RUN`. -/
theorem HoldsRunning.coordinated {vote s : σ} {child : Option (Nat × σ)} {P : Prop}
    {node' : NonCpuPowerNode σ} (h : node.HoldsRunning d) (hd : d ≠ cpu)
    (hrange : inRange (T.cpuRange index) d = true)
    (hc : CoordinatedNode T index cpu vote child P s node node') : node'.HoldsRunning d := by
  have hreq : node'.requestedStates d = run := by
    rw [hc.requestedStates_eq, Function.update_of_ne hd, h.requestedState]
  refine ⟨?_, hreq, by rw [hc.suspendStates_eq, h.suspendState]⟩
  by_cases hP : P
  · obtain ⟨hlocal, hleast⟩ := hc.of_coordinated hP
    rw [hlocal]
    exact le_antisymm (hleast.2 ⟨d, hrange, hreq.symm⟩) (LawfulPowerState.run_le s)
  · rw [(hc.of_not_coordinated hP).1, h.localState]

/-- At a node that holds a CPU other than the caller, what the other descendants allow in
    OS-initiated mode is `RUN`: that CPU's vote. -/
theorem HoldsRunning.osiMinimalAllowedState_eq_run {child : Option Nat} {m : σ}
    (h : node.HoldsRunning d) (hd : inRange (T.cpuRange index) d = true)
    (hcpu : inRange (T.cpuRange index) cpu = true) (hne : d ≠ cpu)
    (hm : node.getOsiMinimalAllowedStateWithoutCore T index cpu child = .ok m) : m = run := by
  unfold getOsiMinimalAllowedStateWithoutCore at hm
  obtain ⟨m₀, hfold, hm⟩ := bind_eq_ok.mp hm
  -- the running CPU is among those the fold reads, with the vote `RUN`
  have hmem : d ∈ (rangeIndices (T.cpuRange index)).filter
      fun j => j - (T.cpuRange index).1 != cpu - (T.cpuRange index).1 := by
    simp only [inRange, Bool.and_eq_true, decide_eq_true_eq] at hd hcpu
    simp only [List.mem_filter, mem_rangeIndices, inRange, Bool.and_eq_true, decide_eq_true_eq,
      bne_iff_ne, ne_eq]
    omega
  have hvote : node.osiVote d = .ok run := by
    simp [osiVote, h.requestedState, h.suspendState]
  have hle : m₀ ≤ run := (Loop.foldlM_min_le hfold).2 d hmem run hvote
  -- the children's states only lower it further
  have hm₀ : m ≤ m₀ := by
    cases child with
    | none =>
      cases hm
      exact le_rfl
    | some k =>
      cases hm
      exact (Loop.foldl_min_isLeast _ m₀ _).2 (Set.mem_insert _ _)
  exact le_antisymm (le_trans hm₀ hle) (LawfulPowerState.run_le m)

end NonCpuPowerNode

/-! ### The ancestors of a CPU that hold it running -/

namespace PowerDomainTree

variable {σ ε : Type} [PlatformPowerState σ] (T : Topology)

/-- Every ancestor of `cpu` holds it running. -/
def AncestorsRunning (t : PowerDomainTree σ ε) (cpu : Nat) : Prop :=
  ∀ n ∈ T.ancestors cpu, (t.nonCpuPowerNodes n).HoldsRunning cpu

variable {T} {t t' : PowerDomainTree σ ε} {cpu d : Nat}

theorem AncestorsRunning.of_nonCpuPowerNodes_eq (h : t.AncestorsRunning T d)
    (heq : t'.nonCpuPowerNodes = t.nonCpuPowerNodes) : t'.AncestorsRunning T d := by
  intro n hn
  rw [heq]
  exact h n hn

/-- A write of one node keeps a CPU's ancestors holding it when the node written holds it,
    should it be one of them. -/
theorem AncestorsRunning.setNode {i : Nat} {node : NonCpuPowerNode σ}
    (h : t.AncestorsRunning T d)
    (hnode : i ∈ T.ancestors d → (t.nonCpuPowerNodes i).HoldsRunning d → node.HoldsRunning d) :
    (t.setNode i node).AncestorsRunning T d :=
  PowerDomainTree.forall_setNode (P := fun _ node => node.HoldsRunning d) h hnode

/-- `set_running` of another CPU keeps a CPU's ancestors holding it. -/
theorem SetsRunning.ancestorsRunning_of_ne [LinearOrder σ] (h : t.SetsRunning T cpu t')
    (hne : d ≠ cpu) (hrun : t.AncestorsRunning T d) : t'.AncestorsRunning T d := by
  obtain ⟨A, t₀, t₁, -, h₀, hwalk, h₁⟩ := h
  refine (AncestorPowerDomains.setRunning_loop_induction (fun t₂ => t₂.AncestorsRunning T d)
    (fun _ _ child ht => ht.setNode fun _ hold => hold.running hne child) hwalk
    (hrun.of_nonCpuPowerNodes_eq h₀)).of_nonCpuPowerNodes_eq h₁

/-- `set_running` of a CPU over all its ancestors makes them hold it. -/
theorem SetsRunning.ancestorsRunning_self [LinearOrder σ] (hwf : T.WellFormed)
    (hcpu : cpu < T.cpuCount) (h : t.SetsRunning T cpu t') : t'.AncestorsRunning T cpu := by
  obtain ⟨A, t₀, t₁, hA, -, hwalk, h₁⟩ := h
  rw [AncestorPowerDomains.newWithMaxLevel_eq T hwf hcpu] at hA
  cases hA
  obtain ⟨t₂, hloop, -, -, hpos⟩ := AncestorPowerDomains.setRunning_loop_eq _ none t₀
    (hwf.lockedPath hcpu T.maxPowerLevel) fun c hc => by cases hc
  obtain rfl : t₂ = t₁ := Except.ok.inj (hloop.symm.trans hwalk)
  have htake : (T.ancestors cpu).take T.maxPowerLevel = T.ancestors cpu :=
    List.take_of_length_le (by rw [hwf.length_ancestors hcpu])
  intro n hn
  rw [← htake] at hn
  obtain ⟨p, hp, rfl⟩ := List.getElem_of_mem hn
  rw [h₁, hpos p hp]
  exact NonCpuPowerNode.holdsRunning_running _

variable [LinearOrder σ] [LawfulPowerState σ]

/-- Platform-coordinated `coordinate_state` of another CPU keeps a CPU's ancestors holding it. -/
theorem Coordinates.ancestorsRunning_of_ne (hwf : T.WellFormed) (hd : d < T.cpuCount)
    (hne : d ≠ cpu) {level : Nat} (h : t.Coordinates T cpu level t')
    (hrun : t.AncestorsRunning T d) : t'.AncestorsRunning T d := by
  obtain ⟨A, c, c', t₀, t₁, -, h₀, hcoord, h₁⟩ := h
  have hrun₀ : t₀.AncestorsRunning T d := hrun.of_nonCpuPowerNodes_eq h₀
  refine AncestorsRunning.of_nonCpuPowerNodes_eq ?_ h₁
  rcases CompositePowerState.coordinateState_eq_ok hcoord with ⟨-, -, rfl⟩ | ⟨_, _, _, -, hloop, -⟩
  · exact hrun₀
  · refine CompositePowerState.coordinateLoop_induction (fun t₂ => t₂.AncestorsRunning T d)
      (fun _ i _ _ _ _ _ ht hnode => ht.setNode fun hi hold => ?_) hloop hrun₀
    exact hold.coordinated hne ((hwf.cpuRange_iff d hd i (hwf.ancestor_lt d hd i hi)).mpr hi) hnode

end PowerDomainTree

namespace CompositePowerState

variable {σ ε : Type} [LinearOrder σ] [PlatformPowerState σ] {T : Topology} {cpu : Nat}
  {t : PowerDomainTree σ ε}

/-- What `validate_state_coordination` accepted: a request for the CPU alone, or one whose loop
    over the levels it affects passed. -/
theorem validateStateCoordination_eq_ok_ok {r : CompositePowerState σ} {h : Nat} {A : List Nat}
    (hv : r.validateStateCoordination T cpu h A t = .ok (.ok ())) :
    h = 0 ∨ validateLoop T cpu t none (A.take h) ((r.states.drop 1).take h) = .ok (.ok ()) := by
  unfold validateStateCoordination at hv
  split at hv
  · cases hv
  · obtain ⟨isLast, -, hv⟩ := bind_eq_ok.mp hv
    split at hv
    · cases hv
    · split at hv
      · exact .inl ‹_›
      · exact .inr hv

omit [LinearOrder σ] [PlatformPowerState σ] in
/-- Over the levels it affects, the resolved state is the request. -/
theorem take_states_createHighestAffectedLevelResolvedState [PlatformPowerState σ]
    (c : CompositePowerState σ) (h : Nat) :
    ((c.createHighestAffectedLevelResolvedState h).states.drop 1).take h =
      (c.states.drop 1).take h := by
  apply List.ext_getElem
  · simp [createHighestAffectedLevelResolvedState]
  · intro p hp₁ hp₂
    simp only [List.length_take, List.length_drop] at hp₂
    simp only [List.getElem_take, List.getElem_drop, createHighestAffectedLevelResolvedState,
      List.getElem_mapIdx]
    split_ifs with hle
    · obtain rfl : h = 1 + p := by omega
      rw [List.getD_eq_getElem _ _ (by omega)]
    · rfl

variable [LawfulPowerState σ] {d : Nat}

/-- The OS-initiated check passes a state at an ancestor of a running CPU other than the caller
    only if it is `RUN`. -/
theorem validateLoop_run (hwf : T.WellFormed) (hd : d < T.cpuCount) (hne : d ≠ cpu)
    (hrun : t.AncestorsRunning T d) :
    ∀ {child : Option Nat} {A : List Nat} {S : List σ},
      validateLoop T cpu t child A S = .ok (.ok ()) → (∀ i ∈ A, inRange (T.cpuRange i) cpu = true) →
      ∀ i s, (i, s) ∈ A.zip S → i ∈ T.ancestors d → s = run
  | _, [], _, _, _, i, s, hmem, _ => by simp at hmem
  | _, _ :: _, [], _, _, i, s, hmem, _ => by simp at hmem
  | _, j :: A, s' :: S, h, hcpu, i, s, hmem, hi => by
    simp only [validateLoop] at h
    obtain ⟨m, hm, h⟩ := bind_eq_ok.mp h
    split at h
    · split at h <;> cases h
    · rename_i hle
      rw [List.zip_cons_cons, List.mem_cons] at hmem
      rcases hmem with heq | hmem
      · obtain ⟨rfl, rfl⟩ := Prod.mk.inj heq
        have hrange := (hwf.cpuRange_iff d hd i (hwf.ancestor_lt d hd i hi)).mpr hi
        have hm' := (hrun i hi).osiMinimalAllowedState_eq_run hrange (hcpu i List.mem_cons_self)
          hne hm
        exact le_antisymm (hm' ▸ not_lt.mp hle) (LawfulPowerState.run_le s)
      · exact validateLoop_run hwf hd hne hrun h (fun k hk => hcpu k (List.mem_cons_of_mem _ hk))
          i s hmem hi

end CompositePowerState

namespace PowerDomainTree

variable {σ ε : Type} [LinearOrder σ] [PlatformPowerState σ] [LawfulPowerState σ] {T : Topology}
  {t t' : PowerDomainTree σ ε} {cpu d : Nat}

open CompositePowerState in
/-- An OS-initiated suspend of another CPU, once validated, keeps a CPU's ancestors holding it:
    at those it writes, the validated state is `RUN`. -/
theorem AppliesValidated.ancestorsRunning_of_ne (hwf : T.WellFormed) (hcpu : cpu < T.cpuCount)
    (hd : d < T.cpuCount) (hne : d ≠ cpu) {level : Nat} (h : t.AppliesValidated T cpu level t')
    (hrun : t.AncestorsRunning T d) : t'.AncestorsRunning T d := by
  obtain ⟨A, c, hal, t₁, hA, hv, happ, h₁⟩ := h
  rw [AncestorPowerDomains.newWithMaxLevel_eq T hwf hcpu] at hA
  cases hA
  -- every state the check accepted at an ancestor of the running CPU is `RUN`
  have hstates : ∀ i s, (i, s) ∈ (((T.ancestors cpu).take level).take hal).zip
      ((c.states.drop 1).take hal) → i ∈ T.ancestors d → s = run := by
    intro i s hmem hi
    rcases validateStateCoordination_eq_ok_ok hv with rfl | hloop
    · simp at hmem
    · rw [take_states_createHighestAffectedLevelResolvedState] at hloop
      refine validateLoop_run hwf hd hne hrun hloop (fun k hk => ?_) i s hmem hi
      exact (hwf.lockedPath hcpu level).cpu_mem k (List.mem_of_mem_take hk)
  obtain ⟨t₂, hsuspend, hnodes⟩ := bind_eq_ok.mp happ
  have hrun₂ : t₂.AncestorsRunning T d :=
    setSuspendStatesLoop_induction (fun t₃ => t₃.AncestorsRunning T d)
      (fun _ _ s ht => ht.setNode fun _ hold => hold.setSuspendState hne s) hsuspend hrun
  obtain ⟨t₃, ht₃, ht'⟩ := setNodesFromLocalStates_eq_ok hnodes
  have hrun₃ : t₃.AncestorsRunning T d := by
    rcases ht₃ with rfl | ⟨_, hloop⟩
    · exact hrun₂
    · refine setNodesLoop_induction (fun t₄ => t₄.AncestorsRunning T d) hloop
        (fun _ i s ns hmem ht => ht.setNode fun hi hold => ?_) hrun₂
      rw [hstates i s hmem hi]
      exact hold.setLocalState_run ns
  refine AncestorsRunning.of_nonCpuPowerNodes_eq ?_ h₁
  rcases ht' with rfl | ⟨i, ns, rfl⟩
  · exact hrun₃
  · exact hrun₃.setNode fun _ hold => ⟨hold.localState, hold.requestedState, hold.suspendState⟩

end PowerDomainTree

/-! ### The sections -/

namespace PsciState

variable {σ ε : Type} [LinearOrder σ] [PlatformPowerState σ] [LawfulPowerState σ] {T : Topology}
  {P : PsciPlatform σ ε} {cpu : Nat} {ph : Phase σ ε} {s : PsciState σ ε}
  {r : PsciState σ ε × Outcome σ ε}

/-- What a section of core `cpu` in phase `ph` from `s` may leave as `r`, for the ancestors'
    hold: the ancestors of another core keep holding it, and the caller's hold it if the caller
    runs after the section, provided they did while it ran before. -/
structure KeepsRunning (T : Topology) (cpu : Nat) (ph : Phase σ ε) (s : PsciState σ ε)
    (r : PsciState σ ε × Outcome σ ε) : Prop where
  of_ne : ∀ d < T.cpuCount, d ≠ cpu → s.powerDomainTree.AncestorsRunning T d →
    r.1.powerDomainTree.AncestorsRunning T d
  self : r.2.next.Running → (ph.Running → s.powerDomainTree.AncestorsRunning T cpu) →
    r.1.powerDomainTree.AncestorsRunning T cpu

omit [LinearOrder σ] [LawfulPowerState σ] in
/-- A section that leaves the non-CPU nodes alone keeps the hold, from a phase that runs. -/
theorem KeepsRunning.of_nonCpuPowerNodes_eq
    (heq : r.1.powerDomainTree.nonCpuPowerNodes = s.powerDomainTree.nonCpuPowerNodes)
    (hph : r.2.next.Running → ph.Running) : KeepsRunning T cpu ph s r :=
  ⟨fun _ _ _ h => h.of_nonCpuPowerNodes_eq heq,
    fun hnext h => (h (hph hnext)).of_nonCpuPowerNodes_eq heq⟩

omit [LawfulPowerState σ] in
/-- A wake-up sets the caller's ancestors running. -/
theorem KeepsRunning.of_setsRunning (hwf : T.WellFormed) (hcpu : cpu < T.cpuCount)
    (h : s.powerDomainTree.SetsRunning T cpu r.1.powerDomainTree) : KeepsRunning T cpu ph s r :=
  ⟨fun _ _ hne hrun => h.ancestorsRunning_of_ne hne hrun,
    fun _ _ => h.ancestorsRunning_self hwf hcpu⟩

omit [LinearOrder σ] [LawfulPowerState σ] in
/-- A section after which the caller does not run needs only keep the other cores' hold. -/
theorem KeepsRunning.of_not_running
    (hof : ∀ d < T.cpuCount, d ≠ cpu → s.powerDomainTree.AncestorsRunning T d →
      r.1.powerDomainTree.AncestorsRunning T d)
    (hnext : ¬r.2.next.Running) : KeepsRunning T cpu ph s r :=
  ⟨hof, fun h => absurd h hnext⟩

omit [LawfulPowerState σ] in
theorem SuspendLeaves.keepsRunning {entry : ε} (h : SuspendLeaves T P s cpu entry r) :
    KeepsRunning T cpu .executing s r :=
  .of_nonCpuPowerNodes_eq (by cases h <;> rfl) fun _ => trivial

/-- The hold's contract of any section a core can run in its phase. -/
theorem runSection_keepsRunning (hwf : T.WellFormed) (hcpu : cpu < T.cpuCount)
    {a : Action σ ε} (hen : enabled ph a = true) (h : System.runSection T P s ph cpu a = .ok r) :
    KeepsRunning T cpu ph s r := by
  cases a with
  | standbyWake =>
    cases ph with
    | standby =>
      rw [cpuStandbyWake_eq_ok h]
      exact .of_nonCpuPowerNodes_eq rfl fun _ => trivial
    | _ => simp [enabled] at hen
  | wake =>
    cases ph with
    | suspended =>
      obtain ⟨t, rfl, -, hwalk⟩ := cpuSuspendWake_cases h
      exact .of_setsRunning hwf hcpu hwalk
    | _ => simp [enabled] at hen
  | boot =>
    obtain ⟨-, t, _, -, rfl, -, hwalk⟩ := handleCpuBoot_cases h
    exact .of_setsRunning hwf hcpu hwalk
  | coordinate =>
    cases ph with
    | suspending =>
      rcases cpuSuspendCoordinate_cases h with ⟨_, rfl⟩ | ⟨t, rfl, -, -, ⟨-, hwalk⟩ | ⟨-, hwalk⟩⟩
      · exact .of_nonCpuPowerNodes_eq rfl fun _ => trivial
      -- the caller is suspended, and its walk keeps the other cores' hold in either mode
      · exact .of_not_running (fun d hd hne hrun => hwalk.ancestorsRunning_of_ne hwf hd hne hrun)
          (by simp [Outcome.next, Phase.Running])
      · exact .of_not_running
          (fun d hd hne hrun => hwalk.ancestorsRunning_of_ne hwf hcpu hd hne hrun)
          (by simp [Outcome.next, Phase.Running])
    | _ => simp [enabled] at hen
  | cpuSuspend =>
    obtain rfl := Phase.eq_executing_of_enabled hen (by simp)
    exact (cpuSuspend_leaves h).keepsRunning
  | cpuDefaultSuspend =>
    obtain rfl := Phase.eq_executing_of_enabled hen (by simp)
    exact (cpuDefaultSuspend_leaves h).keepsRunning
  | systemSuspend =>
    obtain rfl := Phase.eq_executing_of_enabled hen (by simp)
    exact (systemSuspend_leaves h).keepsRunning
  | cpuOff =>
    obtain rfl := Phase.eq_executing_of_enabled hen (by simp)
    rcases cpuOff_cases h with ⟨_, rfl⟩ | ⟨t, rfl, -, hwalk⟩
    · exact .of_nonCpuPowerNodes_eq rfl fun _ => trivial
    · exact .of_not_running (fun d hd hne hrun => hwalk.ancestorsRunning_of_ne hwf hd hne hrun)
        (by simp [Outcome.next, Phase.Running])
  | cpuOn =>
    obtain rfl := Phase.eq_executing_of_enabled hen (by simp)
    rcases cpuOn_cases h with ⟨_, rfl⟩ | ⟨index, -, -, -, -, rfl⟩
    all_goals exact .of_nonCpuPowerNodes_eq rfl fun _ => trivial
  | setSuspendMode =>
    obtain rfl := Phase.eq_executing_of_enabled hen (by simp)
    rcases setSuspendMode_cases h with ⟨_, rfl⟩ | ⟨-, rfl⟩
    all_goals exact .of_nonCpuPowerNodes_eq rfl fun _ => trivial
  | setSuspendModeCheck =>
    cases ph with
    | suspendModeDiffers =>
      rcases setSuspendModeCheck_cases h with rfl | rfl
      all_goals exact .of_nonCpuPowerNodes_eq rfl fun _ => trivial
    | _ => simp [enabled] at hen
  | setSuspendModeWrite =>
    cases ph with
    | suspendModeAllowed =>
      rw [setSuspendModeWrite_eq_ok h]
      exact .of_nonCpuPowerNodes_eq rfl fun _ => trivial
    | _ => simp [enabled] at hen

end PsciState

/-! ### The invariant over whole runs -/

/-- The third invariant: the ancestors of every core that runs hold it running. -/
def System.DomainsRun {σ ε : Type} [PlatformPowerState σ] (T : Topology) (sys : System σ ε) :
    Prop :=
  ∀ c < T.cpuCount, (sys.phase c).Running → sys.psci.powerDomainTree.AncestorsRunning T c

namespace System

variable {σ ε : Type} [LinearOrder σ] [PlatformPowerState σ] {T : Topology}
  {P : PsciPlatform σ ε}

theorem DomainsRun.new (hwf : T.WellFormed) {primary : Nat} {sys : System σ ε}
    (h : System.new T primary = .ok sys) : DomainsRun T sys := by
  obtain ⟨-, hphase, -, hwalk⟩ := new_eq_ok h
  intro c hc hrun
  -- only the primary core runs
  obtain rfl : c = primary := by
    by_contra hne
    simp [hphase, hne, Phase.Running] at hrun
  exact hwalk.ancestorsRunning_self hwf hc

/-- Every step keeps the third invariant. -/
theorem DomainsRun.step [LawfulPowerState σ] (hwf : T.WellFormed) {sys sys' : System σ ε}
    {l : Label σ ε} (hs : DomainsRun T sys) (h : Step T P sys l sys') : DomainsRun T sys' := by
  obtain ⟨hcpu, hen, o, hstep⟩ := h
  have hk := PsciState.runSection_keepsRunning hwf hcpu hen (step_cases hstep).1
  intro c hc hrun
  rcases step_phase (Q := Phase.Running) (fun _ => by simp [Phase.Running]) hstep c hrun with
    ⟨rfl, hnext⟩ | ⟨hne, hrunning⟩
  · exact hk.self hnext (hs _ hc)
  · exact hk.of_ne c hc hne (hs c hc hrunning)

theorem DomainsRun.of_reachable [LawfulPowerState σ] (hwf : T.WellFormed) {primary : Nat}
    {sys₀ sys : System σ ε} (h₀ : System.new T primary = .ok sys₀)
    (hr : Transition.Reachable (Step T P) sys₀ sys) : DomainsRun T sys :=
  hr.invariant (DomainsRun.new hwf h₀) fun _ _ _ hs h => hs.step hwf h

/-- In every state the system reaches on a well-formed tree, every power domain above a core
    that runs (in the normal world, in a CPU standby, or starting a suspend) is in `RUN`. -/
theorem ancestors_run_of_reachable [LawfulPowerState σ] (hwf : T.WellFormed) {primary : Nat}
    {sys₀ sys : System σ ε} (h₀ : System.new T primary = .ok sys₀)
    (hr : Transition.Reachable (Step T P) sys₀ sys) {c : Nat} (hc : c < T.cpuCount)
    (hrun : (sys.phase c).Running) :
    ∀ n ∈ T.ancestors c, (sys.psci.powerDomainTree.nonCpuPowerNodes n).localState = run :=
  fun n hn => (DomainsRun.of_reachable hwf h₀ hr c hc hrun n hn).localState

/-- On the FVP, after core 0 switched to OS-initiated mode and core 1, in the same cluster, powered
    itself down with an OS-initiated vote, the cluster and the system above core 0 run. -/
theorem ancestors_run_of_reachable_fvp :
    ∃ s₀ s : System Fvp.FvpPowerState Nat, System.new Fvp.tree 0 = .ok s₀ ∧
      Transition.Reachable (Step Fvp.tree (Fvp.platform fun _ => true)) s₀ s ∧
      (s.phase 0).Running ∧ s.phase 1 = .suspended 0x8800_0000 true ∧
      Fvp.tree.ancestors 1 = Fvp.tree.ancestors 0 ∧
      ∀ n ∈ Fvp.tree.ancestors 0, (s.psci.powerDomainTree.nonCpuPowerNodes n).localState = run := by
  obtain ⟨s₀, h₀, s, hrun, -, hphase₀, hphase₁, -⟩ := Fvp.coreSuspended_of_new
  have hr := reachable_of_runChecked _ _ hrun
  have hrunning : (s.phase 0).Running := by
    rw [hphase₀]
    trivial
  exact ⟨s₀, s, h₀, hr, hrunning, hphase₁, by decide,
    ancestors_run_of_reachable Fvp.tree_wellFormed h₀ hr (by decide) hrunning⟩

end System

end RustedFirmware.Psci
