import RustedFirmware.Psci.Coordination

set_option autoImplicit false

/-! The PSCI calls that change the power state (`Psci` in `src/services/psci.rs`).

    A call runs on one core and takes locks one after another: its CPU node, that node's
    ancestors up to some level, or the suspend mode. Each function below is one locked section of
    a call, from one release of the locks to the next that another core can observe; the
    interleaving of sections is `Psci/System.lean`'s. `cpu_suspend_start` is three sections: it
    reads the suspend mode to choose how many ancestors to lock, then coordinates with the locks
    held and, after the wake-up, restores the running state. A CPU standby is two.
    `set_suspend_mode` is three: it compares the stored mode under its lock, reads the CPU nodes
    to decide whether the caller may change it, and takes the lock again to write it.

    What the platform decides is a parameter: the `PsciPlatform` functions, and for each section
    the answers of the platform calls it makes (a pending interrupt, the result of
    `power_domain_on`, `power_domain_validate_suspend` or `power_domain_off_early`). A section's
    outcome says where the core goes next. Calls to the SPM and the platform's power controller
    change no state of the model. `is_last_cpu` and `are_all_cpus_on` lock one CPU at a time and
    are read here within the section that uses them. -/

namespace RustedFirmware.Psci

open Rust PlatformPowerState

/-- The state of `Psci`: the power domain tree and the suspend mode. -/
structure PsciState (σ ε : Type) where
  powerDomainTree : PowerDomainTree σ ε
  suspendMode : SuspendMode

/-- The platform's part of `PsciPlatformInterface` that the calls read. -/
structure PsciPlatform (σ ε : Type) where
  /-- `FEATURES` contains `OS_INITIATED_MODE`. -/
  osInitiatedMode : Bool
  /-- `FEATURES` contains `SYSTEM_SUSPEND`. -/
  systemSuspend : Bool
  /-- `FEATURES` contains `CPU_DEFAULT_SUSPEND`. -/
  cpuDefaultSuspend : Bool
  tryParsePowerState : PowerState → Option (CompositePowerState σ)
  isValidNsEntrypoint : ε → Bool
  sysSuspendPowerState : CompositePowerState σ
  /-- `cpu_default_suspend_power_state`, whose default implementation panics. -/
  cpuDefaultSuspendPowerState : Except Panic PowerState

/-- The arrays of a platform's composite states have `STATE_COUNT = MAX_POWER_LEVEL + 1` entries,
    which the model's lists do not record in their type. -/
structure PsciPlatform.StateCount {σ ε : Type} (T : Topology) (P : PsciPlatform σ ε) : Prop where
  tryParsePowerState_length : ∀ powerState c, P.tryParsePowerState powerState = some c →
    c.states.length = T.maxPowerLevel + 1
  sysSuspendPowerState_length : P.sysSuspendPowerState.states.length = T.maxPowerLevel + 1

/-- `WakeUpReason`, what `handle_cpu_boot` returns. -/
inductive WakeUpReason (ε : Type) where
  | cpuOn (entry : ε)
  | suspendFinished (entry : ε)
  deriving DecidableEq, Repr

/-- Where a core goes after a section of a call. -/
inductive Outcome (σ ε : Type) where
  /-- The call returns to the normal world. -/
  | returned (result : Except ErrorCode Unit)
  /-- `cpu_suspend` waits in `cpu_standby`. -/
  | standby
  /-- `cpu_suspend_start` has read the suspend mode and locks up to `levelToLockTo`. -/
  | suspending (levelToLockTo highestAffectedLevel : Nat) (composite : CompositePowerState σ)
      (entry : ε) (isPowerDownState : Bool)
  /-- `cpu_suspend_start` has coordinated and the core executes its `wfi`. -/
  | suspended (entry : ε) (isPowerDownState : Bool)
  /-- `cpu_off` has turned the core off. -/
  | off
  /-- `handle_cpu_boot` returns to the normal world at the entry point. -/
  | wakeUp (reason : WakeUpReason ε)
  /-- `set_suspend_mode` has found the stored mode other than `mode` and released its lock. -/
  | suspendModeDiffers (mode : SuspendMode)
  /-- `set_suspend_mode` has found on the CPU nodes that the caller may switch to `mode`. -/
  | suspendModeAllowed (mode : SuspendMode)

namespace PsciState

variable {σ ε : Type} [LinearOrder σ] [PlatformPowerState σ] (T : Topology)
  (P : PsciPlatform σ ε)

/-- The same state with another tree. -/
def withTree (s : PsciState σ ε) (t : PowerDomainTree σ ε) : PsciState σ ε :=
  { s with powerDomainTree := t }

/-- `is_in_osi_mode`. -/
def isInOsiMode (s : PsciState σ ε) : Bool :=
  P.osInitiatedMode && s.suspendMode == .osInitiated

/-- The CPU node of the calling core after `f`, written back through its guard. -/
def updateCpu (t : PowerDomainTree σ ε) (cpu : Nat) (f : CpuPowerNode σ ε → CpuPowerNode σ ε) :
    PowerDomainTree σ ε :=
  t.setCpu cpu (f (t.cpuPowerNodes cpu))

/-- The first section of `cpu_suspend_start`: with the CPU node locked, read the suspend mode to
    choose how many ancestors to lock. -/
def cpuSuspendStart (s : PsciState σ ε) (cpu : Nat) (entry : ε) (highestAffectedLevel : Nat)
    (composite : CompositePowerState σ) (isPowerDownState : Bool) :
    Except Panic (PsciState σ ε × Outcome σ ε) := do
  let _ ← s.powerDomainTree.lockedCpuNode T cpu
  let levelToLockTo := if s.isInOsiMode P then T.maxPowerLevel else highestAffectedLevel
  pure (s, .suspending levelToLockTo highestAffectedLevel composite entry isPowerDownState)

/-- `cpu_suspend`: parse and check the request, then stand by for a retention state of the CPU
    alone, or start a suspend. -/
def cpuSuspend (s : PsciState σ ε) (cpu : Nat) (powerState : PowerState) (entry : ε) :
    Except Panic (PsciState σ ε × Outcome σ ε) :=
  match P.tryParsePowerState powerState with
  | none => pure (s, .returned (.error .invalidParameters))
  | some composite => do
    let isPowerDownState := match powerState with
      | .powerDown _ => true
      | .standbyOrRetention _ => false
    if !composite.isValidSuspendRequest T.maxPowerLevel isPowerDownState then
      throw (.assertFailed "composite_state.is_valid_suspend_request(is_power_down_state)")
    let some highestAffectedLevel := composite.findHighestNonRunLevel
      | throw (.explicit "Invalid target power level for suspend operation")
    if !isPowerDownState && highestAffectedLevel = 0 then do
      let node ← s.powerDomainTree.lockedCpuNode T cpu
      let t := s.powerDomainTree.setCpu cpu { node with localState := composite.cpuLevelState }
      pure (s.withTree t, .standby)
    else if isPowerDownState && !P.isValidNsEntrypoint entry then
      pure (s, .returned (.error .invalidAddress))
    else s.cpuSuspendStart T P cpu entry highestAffectedLevel composite isPowerDownState

/-- The second section of a CPU standby: after the interrupt, the CPU runs again. -/
def cpuStandbyWake (s : PsciState σ ε) (cpu : Nat) : Except Panic (PsciState σ ε × Outcome σ ε) := do
  let node ← s.powerDomainTree.lockedCpuNode T cpu
  let t := s.powerDomainTree.setCpu cpu { node with localState := run }
  pure (s.withTree t, .returned (.ok ()))

/-- The locked closure of `cpu_suspend_start`: with the ancestors locked up to `levelToLockTo`,
    back off on a pending interrupt; otherwise coordinate the request the way the suspend mode
    says now, and for a power-down state store the entry point. -/
def cpuSuspendCoordinate (s : PsciState σ ε) (cpu levelToLockTo highestAffectedLevel : Nat)
    (composite : CompositePowerState σ) (entry : ε) (isPowerDownState : Bool)
    (hasPendingInterrupts : Bool) (validateSuspend : Except ErrorCode Unit) :
    Except Panic (PsciState σ ε × Outcome σ ε) := do
  let ancestors ← AncestorPowerDomains.newWithMaxLevel T (T.cpuParent cpu) levelToLockTo
  if hasPendingInterrupts then
    pure (s, .returned (.ok ()))
  else
    let coordinated : Except Panic (Except ErrorCode (PowerDomainTree σ ε)) :=
      if s.isInOsiMode P then do
        let resolved := composite.createHighestAffectedLevelResolvedState highestAffectedLevel
        match ← resolved.validateStateCoordination T cpu highestAffectedLevel ancestors
            s.powerDomainTree with
        | .error e => pure (.error e)
        | .ok () =>
          match validateSuspend with
          | .error e => pure (.error e)
          | .ok () =>
            .ok <$> composite.applyCoordinatedStateToPowerDomainTree T highestAffectedLevel cpu
              ancestors resolved s.powerDomainTree
      else do
        let (composite, t) ← composite.coordinateState T cpu ancestors s.powerDomainTree
        pure (.ok (updateCpu t cpu fun node => { node with localState := composite.cpuLevelState }))
    match ← coordinated with
    | .error e => pure (s, .returned (.error e))
    | .ok t =>
      if isPowerDownState then do
        let node ← (t.cpuPowerNodes cpu).setEntryPoint entry
        pure (s.withTree (t.setCpu cpu node), .suspended entry isPowerDownState)
      else pure (s.withTree t, .suspended entry isPowerDownState)

/-- The last section of `cpu_suspend_start`, after the `wfi` returns (a retention state, or an
    abandoned power down): the CPU and all its ancestors run again, and the entry point of an
    abandoned power down is dropped. -/
def cpuSuspendWake (s : PsciState σ ε) (cpu : Nat) (isPowerDownState : Bool) :
    Except Panic (PsciState σ ε × Outcome σ ε) := do
  let _ ← s.powerDomainTree.lockedCpuNode T cpu
  let ancestors ← AncestorPowerDomains.newWithMaxLevel T (T.cpuParent cpu) T.maxPowerLevel
  let t := s.powerDomainTree
  let t := if isPowerDownState then t.setCpu cpu (t.cpuPowerNodes cpu).popEntryPoint.2 else t
  let t := updateCpu t cpu fun node => { node with localState := run }
  let t ← AncestorPowerDomains.setRunning T cpu ancestors t
  pure (s.withTree t, .returned (.ok ()))

/-- `cpu_off`: after the platform's early callback, the CPU and its ancestors vote `OFF` and the
    CPU is marked off. -/
def cpuOff (s : PsciState σ ε) (cpu : Nat) (powerDomainOffEarly : Except ErrorCode Unit) :
    Except Panic (PsciState σ ε × Outcome σ ε) := do
  let _ ← s.powerDomainTree.lockedCpuNode T cpu
  match powerDomainOffEarly with
  | .error e => pure (s, .returned (.error e))
  | .ok () =>
    let ancestors ← AncestorPowerDomains.newWithMaxLevel T (T.cpuParent cpu) T.maxPowerLevel
    let t := updateCpu s.powerDomainTree cpu fun node => { node with localState := off }
    let (_, t) ← (CompositePowerState.allOff (T.maxPowerLevel + 1)).coordinateState T cpu
      ancestors t
    let t := updateCpu t cpu fun node => { node with affinityInfo := .off }
    pure (s.withTree t, .off)

/-- `cpu_on`: a CPU that is off becomes pending with the entry point, or goes back to off if the
    platform fails to power it on. `target` is the index `try_get_cpu_index_by_mpidr` gives. -/
def cpuOn (s : PsciState σ ε) (target : Option Nat) (entry : ε)
    (powerDomainOn : Except ErrorCode Unit) : Except Panic (PsciState σ ε × Outcome σ ε) :=
  match target with
  | none => pure (s, .returned (.error .invalidParameters))
  | some target =>
    if !P.isValidNsEntrypoint entry then pure (s, .returned (.error .invalidAddress))
    else do
      let node ← s.powerDomainTree.lockedCpuNode T target
      match node.affinityInfo with
      | .on => pure (s, .returned (.error .alreadyOn))
      | .onPending => pure (s, .returned (.error .onPending))
      | .off =>
        let node := { node with affinityInfo := .onPending }
        match powerDomainOn with
        | .ok () => do
          let node ← node.setEntryPoint entry
          pure (s.withTree (s.powerDomainTree.setCpu target node), .returned (.ok ()))
        | .error e =>
          let node := { node with affinityInfo := .off }
          pure (s.withTree (s.powerDomainTree.setCpu target node), .returned (.error e))

/-- `handle_cpu_boot`: a CPU that was pending comes on, one that was on wakes from a power-down
    suspend; either way it and all its ancestors run, and it leaves with its entry point. -/
def handleCpuBoot (s : PsciState σ ε) (cpu : Nat) :
    Except Panic (PsciState σ ε × Outcome σ ε) := do
  let node ← s.powerDomainTree.lockedCpuNode T cpu
  let affinityInfo := node.affinityInfo
  if affinityInfo = .off then throw (.explicit "Unexpected affinity info state")
  let ancestors ← AncestorPowerDomains.newWithMaxLevel T (T.cpuParent cpu) T.maxPowerLevel
  let composite := (CompositePowerState.allRun (T.maxPowerLevel + 1)).setLocalStatesFromNodes
    node ancestors s.powerDomainTree
  let (t, wakeFromSuspend) ← if affinityInfo = .onPending then
      pure (updateCpu s.powerDomainTree cpu fun node => { node with affinityInfo := .on }, false)
    else do
      if affinityInfo ≠ .on then throw (.assertFailed "assert_eq!(affinity_info, AffinityInfo::On)")
      if powerStateType composite.cpuLevelState ≠ .powerDown then
        throw (.assertFailed
          "assert_eq!(composite_state.cpu_level_state().power_state_type(), PowerStateType::PowerDown)")
      pure (s.powerDomainTree, true)
  let t := updateCpu t cpu fun node => { node with localState := run }
  let t ← AncestorPowerDomains.setRunning T cpu ancestors t
  let (entryPoint, node) := (t.cpuPowerNodes cpu).popEntryPoint
  let t := t.setCpu cpu node
  let some entryPoint := entryPoint | throw (.explicit "entry point not set for booting CPU")
  let reason := if wakeFromSuspend then WakeUpReason.suspendFinished entryPoint
    else WakeUpReason.cpuOn entryPoint
  pure (s.withTree t, .wakeUp reason)

/-- `system_suspend`: the last CPU on suspends the whole system, with the platform's state. -/
def systemSuspend (s : PsciState σ ε) (cpu : Nat) (entry : ε) :
    Except Panic (PsciState σ ε × Outcome σ ε) :=
  if !P.systemSuspend then pure (s, .returned (.error .notSupported))
  else do
    let isLast ← s.powerDomainTree.isLastCpu T cpu
    if !isLast then pure (s, .returned (.error .denied))
    else if !P.isValidNsEntrypoint entry then pure (s, .returned (.error .invalidAddress))
    else
      let state := P.sysSuspendPowerState
      if state.findHighestNonRunLevel ≠ some T.maxPowerLevel then
        pure (s, .returned (.error .denied))
      else do
        if !state.isValidSuspendRequest T.maxPowerLevel true then
          throw (.assertFailed "state.is_valid_suspend_request(true)")
        if powerStateType state.highestLevelState ≠ .powerDown then
          throw (.assertFailed
            "assert_eq!(state.highest_level_state().power_state_type(), PowerStateType::PowerDown)")
        s.cpuSuspendStart T P cpu entry T.maxPowerLevel state true

/-- `cpu_default_suspend`: `cpu_suspend` with the platform's default power state. -/
def cpuDefaultSuspend (s : PsciState σ ε) (cpu : Nat) (entry : ε) :
    Except Panic (PsciState σ ε × Outcome σ ε) :=
  if !P.cpuDefaultSuspend then pure (s, .returned (.error .notSupported))
  else do
    let powerState ← P.cpuDefaultSuspendPowerState
    s.cpuSuspend T P cpu powerState entry

/-- The first section of `set_suspend_mode`: on a platform with OS-initiated mode, compare the
    stored mode with the request under the mode's lock. -/
def setSuspendMode (s : PsciState σ ε) (mode : SuspendMode) :
    Except Panic (PsciState σ ε × Outcome σ ε) :=
  if !P.osInitiatedMode then pure (s, .returned (.error .notSupported))
  else if s.suspendMode = mode then pure (s, .returned (.ok ()))
  else pure (s, .suspendModeDiffers mode)

/-- The second section of `set_suspend_mode`, with the lock released: platform-coordinated mode
    only from the last CPU on, OS-initiated mode when all CPUs are on or from the last one. -/
def setSuspendModeCheck (s : PsciState σ ε) (cpu : Nat) (mode : SuspendMode) :
    Except Panic (PsciState σ ε × Outcome σ ε) := do
  let allowed ← match mode with
    | .platformCoordinated => s.powerDomainTree.isLastCpu T cpu
    | .osInitiated =>
      if s.powerDomainTree.areAllCpusOn T then pure true
      else s.powerDomainTree.isLastCpu T cpu
  if !allowed then pure (s, .returned (.error .denied))
  else pure (s, .suspendModeAllowed mode)

/-- The last section of `set_suspend_mode`: take the mode's lock again and write the mode. -/
def setSuspendModeWrite (s : PsciState σ ε) (mode : SuspendMode) :
    Except Panic (PsciState σ ε × Outcome σ ε) :=
  pure ({ s with suspendMode := mode }, .returned (.ok ()))

end PsciState

end RustedFirmware.Psci
