import RustedFirmware.Psci.Suspend

set_option autoImplicit false

/-! The PSCI platform of the FVP (`fvp-rf-a-bl31/src/main.rs` and `config.rs`).

    Two clusters of four single-threaded cores under one system node: `MAX_POWER_LEVEL = 2`, three
    non-CPU power domains and the BFS topology `[1, 2, 4, 4]`. The power states are `Run`,
    `Retention` and `Off`, ordered by their discriminants, and `try_parse_power_state` follows the
    recommended StateID encoding of the PSCI specification (section 6.5). The platform offers
    system suspend and OS-initiated mode, not `CPU_DEFAULT_SUSPEND`. Its entry point check reads
    the FVP's memory map, which is not part of the repository, so it stays a parameter. -/

namespace RustedFirmware.Psci.Fvp

open Rust PlatformPowerState

/-- `FVP_CLUSTER_COUNT`. -/
def fvpClusterCount : Nat := 2

/-- `FVP_MAX_CPUS_PER_CLUSTER`. -/
def fvpMaxCpusPerCluster : Nat := 4

/-- `FVP_MAX_PE_PER_CPU`. -/
def fvpMaxPePerCpu : Nat := 1

/-- `Fvp::CORE_COUNT`, the `CPU_DOMAIN_COUNT` of the tree. -/
def coreCount : Nat := fvpClusterCount * fvpMaxCpusPerCluster * fvpMaxPePerCpu

/-- `PSCI_MAX_POWER_LEVEL`. -/
def psciMaxPowerLevel : Nat := 2

/-- `PSCI_NON_CPU_DOMAIN_COUNT`: the system node and the clusters. -/
def psciNonCpuDomainCount : Nat := 1 + fvpClusterCount

/-- `topology()`: one top node, the clusters below it, and the cores of each cluster. -/
def topology : List Nat :=
  1 :: fvpClusterCount :: List.replicate fvpClusterCount fvpMaxCpusPerCluster

/-- `NodeIndexInterface::MAX` of the FVP's `NodeIndex = u8`. -/
def nodeIndexMax : Nat := 255

/-- The links of the FVP's tree: what `PowerDomainTree::new` builds from `topology()`. -/
def tree : Topology :=
  (Topology.ofBfs psciMaxPowerLevel coreCount psciNonCpuDomainCount nodeIndexMax
    topology).toOption.getD default

theorem ofBfs_topology :
    Topology.ofBfs psciMaxPowerLevel coreCount psciNonCpuDomainCount nodeIndexMax topology =
      .ok tree := by
  rfl

/-- The tree is well formed. -/
theorem tree_wellFormed : tree.WellFormed where
  maxPowerLevel_pos := by decide
  chain_length := by decide
  ancestors_nodup := by decide
  ancestor_lt := by decide
  cpuRange_iff := by decide
  cpuRange_le := by decide
  cpuRange_nonempty := by decide
  nonCpuRange_le := by decide
  nonCpuRange_iff := by decide

/-- `FvpPowerState`. -/
inductive FvpPowerState where
  | run
  | retention
  | off
  deriving DecidableEq, Repr

/-- The discriminant, `value as usize`, which orders the states. -/
def FvpPowerState.toNat : FvpPowerState → Nat
  | .run => 0
  | .retention => 1
  | .off => 2

theorem FvpPowerState.toNat_injective : Function.Injective FvpPowerState.toNat := by
  intro a b h
  cases a <;> cases b <;> first | rfl | simp [FvpPowerState.toNat] at h

instance : LinearOrder FvpPowerState :=
  LinearOrder.lift' FvpPowerState.toNat FvpPowerState.toNat_injective

instance : PlatformPowerState FvpPowerState where
  off := .off
  run := .run
  powerStateType
    | .run => .run
    | .retention => .standbyOrRetention
    | .off => .powerDown

instance : LawfulPowerState FvpPowerState where
  run_le s := by cases s <;> decide
  type_run := rfl
  eq_run_of_type s h := by
    cases s
    · rfl
    · cases h
    · cases h
  powerDown_of_le s t hst h := by
    cases s <;> cases t <;> first | rfl | exact absurd hst (by decide) | cases h

instance : OffDeepest FvpPowerState where
  le_off s := by cases s <;> decide
  off_ne_run := by decide

/-- The local states of a power-down request, by its twelve StateID bits: the core, or the core
    and its cluster. The system level is never suspended through `CPU_SUSPEND`. -/
def powerDownStates (stateId : Nat) : Option (List FvpPowerState) :=
  match stateId with
  | 0x002 => some [.off, .run, .run]
  | 0x022 => some [.off, .off, .run]
  | 0x222 => some [.off, .off, .run]
  | _ => none

theorem length_powerDownStates {stateId : Nat} {states : List FvpPowerState}
    (h : powerDownStates stateId = some states) : states.length = 3 := by
  unfold powerDownStates at h
  split at h <;> first | cases h; rfl | cases h

/-- `try_parse_power_state`: a retention state of the core alone, or a power down with the last
    power level in the four bits above the three local states. -/
def tryParsePowerState : PowerState → Option (CompositePowerState FvpPowerState)
  | .standbyOrRetention v =>
    if v = 0x01 then some ⟨[.retention, .run, .run], none⟩ else none
  | .powerDown value => do
    let states ← powerDownStates (value &&& 0x0000_0fff).toNat
    let lastAtPowerLevel := ((value >>> 12) &&& 0xf).toNat
    if lastAtPowerLevel > psciMaxPowerLevel then none
    else some ⟨states, some lastAtPowerLevel⟩

/-- The FVP's `PsciPlatformInterface`, with its entry point check. `cpu_default_suspend_power_state`
    is the trait's default, which panics, as the platform does not offer the call. -/
def platform {ε : Type} (isValidNsEntrypoint : ε → Bool) : PsciPlatform FvpPowerState ε where
  osInitiatedMode := true
  systemSuspend := true
  cpuDefaultSuspend := false
  tryParsePowerState := tryParsePowerState
  isValidNsEntrypoint := isValidNsEntrypoint
  sysSuspendPowerState := CompositePowerState.allOff (psciMaxPowerLevel + 1)
  cpuDefaultSuspendPowerState :=
    throw (.explicit "not implemented: CPU_DEFAULT_SUSPEND is not implemented for the platform")

theorem tree_maxPowerLevel : tree.maxPowerLevel = 2 := by decide

/-- Every composite state of the FVP has `STATE_COUNT = 3` levels. -/
theorem platform_stateCount {ε : Type} (isValidNsEntrypoint : ε → Bool) :
    (platform isValidNsEntrypoint).StateCount tree where
  tryParsePowerState_length powerState c h := by
    rw [tree_maxPowerLevel]
    cases powerState with
    | standbyOrRetention v =>
      simp only [platform, tryParsePowerState] at h
      split_ifs at h
      cases h
      rfl
    | powerDown value =>
      change tryParsePowerState (.powerDown value) = some c at h
      rw [tryParsePowerState] at h
      cases hs : powerDownStates (value &&& 0x0000_0fff).toNat with
      | none =>
        rw [hs] at h
        cases h
      | some states =>
        rw [hs] at h
        change (if _ then none else some _) = some c at h
        split_ifs at h
        cases h
        exact length_powerDownStates hs
  sysSuspendPowerState_length := by
    rw [tree_maxPowerLevel]
    rfl

theorem tree_cpuCount : tree.cpuCount = 8 := by decide

/-- `Psci::new` on core 0, then core 0 switches to OS-initiated mode, which it may do as the last
    CPU on, in the three sections of `set_suspend_mode`: the run, and what it leaves. -/
theorem osInitiated_of_new {ε : Type} (isValidNsEntrypoint : ε → Bool) :
    ∃ s₀, System.new tree 0 = .ok s₀ ∧
      ∃ s, System.runChecked tree (platform isValidNsEntrypoint) s₀
          [⟨0, .setSuspendMode .osInitiated⟩, ⟨0, .setSuspendModeCheck⟩,
            ⟨0, .setSuspendModeWrite⟩] = some s ∧
        s.psci.suspendMode = .osInitiated ∧ s.phase 0 = .executing ∧
        s.psci.powerDomainTree.isLastCpu tree 0 = .ok true ∧
        ∀ c < tree.cpuCount, c ≠ 0 → (s.psci.powerDomainTree.cpuPowerNodes c).affinityInfo = .off := by
  refine ⟨_, rfl, _, rfl, rfl, rfl, rfl, ?_⟩
  intro c hc hne
  rw [tree_cpuCount] at hc
  interval_cases c <;> first | rfl | exact absurd rfl hne

/-- `Psci::new` on core 0 and the switch to OS-initiated mode; then core 0 turns core 1 on, core 1
    boots and powers itself down with an OS-initiated vote for the core alone: the run, and the
    phases it leaves. Core 1 is still on, so core 0 is not the last CPU. -/
theorem coreSuspended_of_new :
    ∃ s₀, System.new tree 0 = .ok s₀ ∧
      ∃ s : System FvpPowerState Nat, System.runChecked tree (platform fun _ => true) s₀
          [⟨0, .setSuspendMode .osInitiated⟩, ⟨0, .setSuspendModeCheck⟩,
            ⟨0, .setSuspendModeWrite⟩, ⟨0, .cpuOn (some 1) 0x8800_0000 (.ok ())⟩, ⟨1, .boot⟩,
            ⟨1, .cpuSuspend (.powerDown 0x0002) 0x8800_0000⟩, ⟨1, .coordinate false (.ok ())⟩] =
          some s ∧
        s.psci.suspendMode = .osInitiated ∧ s.phase 0 = .executing ∧
        s.phase 1 = .suspended 0x8800_0000 true ∧
        s.psci.powerDomainTree.isLastCpu tree 0 = .ok false :=
  ⟨_, rfl, _, rfl, rfl, rfl, rfl, rfl⟩

/-- In OS-initiated mode the FVP cannot suspend the system. After `Psci::new` on core 0, with the
    other cores off, core 0 switches to OS-initiated mode and calls `SYSTEM_SUSPEND` with a valid
    entry point. The call passes every check of `system_suspend` and locks all ancestors, but
    `PsciCompositePowerState::OFF` names no level at which the caller is last, so the validation
    of the OS-initiated branch returns `InvalidParameters`, and so does the call. -/
theorem systemSuspend_osInitiated_invalidParameters {ε : Type} (isValidNsEntrypoint : ε → Bool)
    {entry : ε} (hentry : isValidNsEntrypoint entry = true) :
    ∃ s₀ s s₁ s₂, System.new tree 0 = .ok s₀ ∧
      Transition.Reachable (System.Step tree (platform isValidNsEntrypoint)) s₀ s ∧
      s.psci.suspendMode = .osInitiated ∧
      (∀ c < tree.cpuCount, c ≠ 0 →
        (s.psci.powerDomainTree.cpuPowerNodes c).affinityInfo = .off) ∧
      PsciState.SystemSuspendAccepted tree (platform isValidNsEntrypoint) s.psci 0 entry ∧
      System.Step tree (platform isValidNsEntrypoint) s ⟨0, .systemSuspend entry⟩ s₁ ∧
      System.step tree (platform isValidNsEntrypoint) s₁ ⟨0, .coordinate false (.ok ())⟩ =
        .ok (s₂, .returned (.error .invalidParameters)) := by
  obtain ⟨s₀, hnew, s, hrun, hmode, hphase, hlast, hoff⟩ := osInitiated_of_new isValidNsEntrypoint
  have hcpu : 0 < tree.cpuCount := by decide
  have haccepted : PsciState.SystemSuspendAccepted tree (platform isValidNsEntrypoint) s.psci 0
      entry := ⟨hcpu, rfl, hlast, hentry, rfl, rfl, rfl⟩
  have hosi : s.psci.isInOsiMode (platform isValidNsEntrypoint) = true := by
    simp [PsciState.isInOsiMode, hmode, platform]
  -- the suspend section and the coordination, as `Suspend.lean` gives them for any platform
  have hsections := PsciState.systemSuspend_coordinate_of_osInitiated tree
    (platform isValidNsEntrypoint) tree_wellFormed haccepted hosi rfl (.ok ())
  have hsuspend : System.step tree (platform isValidNsEntrypoint) s ⟨0, .systemSuspend entry⟩ =
      .ok (⟨s.psci, Function.update s.phase 0 (.suspending tree.maxPowerLevel tree.maxPowerLevel
        (platform isValidNsEntrypoint).sysSuspendPowerState entry true)⟩, _) :=
    @System.step_eq _ _ _ _ tree _ s ⟨0, .systemSuspend entry⟩ _ _
      (by simpa [System.runSection] using hsections.1) (by simp)
  have hcoordinate : System.step tree (platform isValidNsEntrypoint)
      ⟨s.psci, Function.update s.phase 0 (.suspending tree.maxPowerLevel tree.maxPowerLevel
        (platform isValidNsEntrypoint).sysSuspendPowerState entry true)⟩
      ⟨0, .coordinate false (.ok ())⟩ = .ok (_, .returned (.error .invalidParameters)) :=
    @System.step_eq _ _ _ _ tree _ _ ⟨0, .coordinate false (.ok ())⟩ _ _
      (by simpa [System.runSection] using hsections.2) (by simp)
  exact ⟨s₀, s, _, _, hnew, System.reachable_of_runChecked tree _ hrun, hmode, hoff, haccepted,
    ⟨hcpu, by simp [hphase, enabled], _, hsuspend⟩, hcoordinate⟩

/-- The run above with an entry point check that accepts the entry point `0x8800_0000`. -/
theorem systemSuspend_osInitiated_fails :
    ∃ s₀ s s₁ s₂, System.new tree 0 = .ok s₀ ∧
      Transition.Reachable (System.Step tree (platform fun _ : Nat => true)) s₀ s ∧
      s.psci.suspendMode = .osInitiated ∧
      (∀ c < tree.cpuCount, c ≠ 0 →
        (s.psci.powerDomainTree.cpuPowerNodes c).affinityInfo = .off) ∧
      PsciState.SystemSuspendAccepted tree (platform fun _ => true) s.psci 0 0x8800_0000 ∧
      System.Step tree (platform fun _ => true) s ⟨0, .systemSuspend 0x8800_0000⟩ s₁ ∧
      System.step tree (platform fun _ => true) s₁ ⟨0, .coordinate false (.ok ())⟩ =
        .ok (s₂, .returned (.error .invalidParameters)) :=
  systemSuspend_osInitiated_invalidParameters (fun _ => true) rfl

end RustedFirmware.Psci.Fvp
