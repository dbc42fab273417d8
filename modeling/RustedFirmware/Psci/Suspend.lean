import RustedFirmware.Psci.System

set_option autoImplicit false

/-! What the sections of a suspend return.

    A `CPU_SUSPEND` or a `SYSTEM_SUSPEND` first reads the suspend mode to choose how many ancestors
    to lock, then coordinates with them locked. In OS-initiated mode it first validates the
    request against the other CPUs' votes, and a request the validation rejects returns the error
    with nothing changed. The validation needs the level at which the caller claims to be the
    last CPU running; a request without one is `InvalidParameters`. A system suspend always locks every ancestor and requests the platform's
    `sys_suspend_power_state`, so in OS-initiated mode it depends on that state naming a level. -/

namespace RustedFirmware.Psci

open Rust PlatformPowerState

namespace PsciState

variable {σ ε : Type} [LinearOrder σ] [PlatformPowerState σ] (T : Topology)
  (P : PsciPlatform σ ε)

omit [LinearOrder σ] [PlatformPowerState σ] in
/-- The first section of a suspend locks up to `MAX_POWER_LEVEL` in OS-initiated mode and up to
    the highest affected level otherwise, and changes nothing. -/
theorem cpuSuspendStart_eq (s : PsciState σ ε) {cpu : Nat} (hcpu : cpu < T.cpuCount) (entry : ε)
    (highestAffectedLevel : Nat) (composite : CompositePowerState σ) (isPowerDownState : Bool) :
    s.cpuSuspendStart T P cpu entry highestAffectedLevel composite isPowerDownState =
      .ok (s, .suspending (if s.isInOsiMode P then T.maxPowerLevel else highestAffectedLevel)
        highestAffectedLevel composite entry isPowerDownState) := by
  simp [cpuSuspendStart, PowerDomainTree.lockedCpuNode, hcpu]

section SystemSuspend

variable {s : PsciState σ ε} {cpu : Nat} {entry : ε}

/-- What `system_suspend` checks of the call before it suspends: the feature, the last CPU on, the
    entry point, and a platform state that powers down the highest level and passes the asserts. -/
structure SystemSuspendAccepted (s : PsciState σ ε) (cpu : Nat) (entry : ε) : Prop where
  cpu_lt : cpu < T.cpuCount
  feature : P.systemSuspend = true
  isLastCpu : s.powerDomainTree.isLastCpu T cpu = .ok true
  validEntry : P.isValidNsEntrypoint entry = true
  highestNonRun : P.sysSuspendPowerState.findHighestNonRunLevel = some T.maxPowerLevel
  validRequest : P.sysSuspendPowerState.isValidSuspendRequest T.maxPowerLevel true = true
  highestPowerDown : powerStateType P.sysSuspendPowerState.highestLevelState = .powerDown

/-- An accepted system suspend goes on to coordinate with every ancestor locked, in either
    mode. -/
theorem systemSuspend_eq (h : SystemSuspendAccepted T P s cpu entry) :
    s.systemSuspend T P cpu entry = .ok (s, .suspending T.maxPowerLevel T.maxPowerLevel
      P.sysSuspendPowerState entry true) := by
  simp [systemSuspend, h.feature, h.isLastCpu, h.validEntry, h.highestNonRun, h.validRequest,
    h.highestPowerDown, cpuSuspendStart_eq T P s h.cpu_lt]

end SystemSuspend

section Coordinate

variable {s s' : PsciState σ ε} {cpu levelToLockTo highestAffectedLevel : Nat}
  {composite : CompositePowerState σ} {entry : ε} {isPowerDownState : Bool}
  {validateSuspend : Except ErrorCode Unit}

/-- In OS-initiated mode, a request that `validate_state_coordination` rejects returns the error
    to the caller and leaves the state as it was. -/
theorem cpuSuspendCoordinate_of_rejected {ancestors : List Nat}
    (hancestors : AncestorPowerDomains.newWithMaxLevel T (T.cpuParent cpu) levelToLockTo =
      .ok ancestors)
    (hosi : s.isInOsiMode P = true) {e : ErrorCode}
    (hrejected : (composite.createHighestAffectedLevelResolvedState
      highestAffectedLevel).validateStateCoordination T cpu highestAffectedLevel ancestors
        s.powerDomainTree = .ok (.error e)) :
    s.cpuSuspendCoordinate T P cpu levelToLockTo highestAffectedLevel composite entry
      isPowerDownState false validateSuspend = .ok (s, .returned (.error e)) := by
  simp [cpuSuspendCoordinate, hancestors, hosi, hrejected]

/-- In OS-initiated mode, a request that names no level at which the caller is last is rejected
    as invalid and leaves the state as it was. -/
theorem cpuSuspendCoordinate_of_lastAtPowerLevel_none {ancestors : List Nat}
    (hancestors : AncestorPowerDomains.newWithMaxLevel T (T.cpuParent cpu) levelToLockTo =
      .ok ancestors)
    (hosi : s.isInOsiMode P = true) (hnone : composite.lastAtPowerLevel = none) :
    s.cpuSuspendCoordinate T P cpu levelToLockTo highestAffectedLevel composite entry
      isPowerDownState false validateSuspend = .ok (s, .returned (.error .invalidParameters)) := by
  have hresolved :
      (composite.createHighestAffectedLevelResolvedState highestAffectedLevel).lastAtPowerLevel =
        none := by
    simpa using hnone
  exact cpuSuspendCoordinate_of_rejected T P hancestors hosi
    (CompositePowerState.validateStateCoordination_of_none T hresolved cpu highestAffectedLevel
      ancestors s.powerDomainTree)

/-- In OS-initiated mode an accepted system suspend is rejected as invalid at its coordination
    when the platform's state names no level at which the caller is last, as
    `PsciCompositePowerState::OFF` does. -/
theorem systemSuspend_coordinate_of_osInitiated (hwf : T.WellFormed)
    (h : SystemSuspendAccepted T P s cpu entry) (hosi : s.isInOsiMode P = true)
    (hnone : P.sysSuspendPowerState.lastAtPowerLevel = none)
    (validateSuspend : Except ErrorCode Unit) :
    s.systemSuspend T P cpu entry = .ok (s, .suspending T.maxPowerLevel T.maxPowerLevel
      P.sysSuspendPowerState entry true) ∧
    s.cpuSuspendCoordinate T P cpu T.maxPowerLevel T.maxPowerLevel P.sysSuspendPowerState entry
      true false validateSuspend = .ok (s, .returned (.error .invalidParameters)) :=
  ⟨systemSuspend_eq T P h, cpuSuspendCoordinate_of_lastAtPowerLevel_none T P
    (AncestorPowerDomains.newWithMaxLevel_eq T hwf h.cpu_lt _) hosi hnone⟩

end Coordinate

end PsciState

end RustedFirmware.Psci
