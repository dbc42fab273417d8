import RustedFirmware.Psci.Calls
import RustedFirmware.Lib.Transition

set_option autoImplicit false

/-! The PSCI service on all cores at once.

    Each core is in a phase of the calls it makes: off, pending after a `CPU_ON`, executing the
    normal world, waiting in a CPU standby, in `cpu_suspend_start` between reading the suspend
    mode and coordinating, suspended between the coordination and the wake-up, or between the
    sections of `set_suspend_mode`. A step is one
    locked section of one core, any core, in any order; the sections a core can run are those of
    its phase. A suspended core wakes in the last section of `cpu_suspend_start`, or, after a
    power down, boots through `handle_cpu_boot`, as a pending core does.

    `Psci::new` builds the tree on the primary core and marks it and its ancestors running; every
    other core starts off. -/

namespace RustedFirmware.Psci

open Rust PlatformPowerState

/-- The phase of a core. -/
inductive Phase (σ ε : Type) where
  | off
  | onPending (entry : ε)
  | executing
  | standby
  | suspending (levelToLockTo highestAffectedLevel : Nat) (composite : CompositePowerState σ)
      (entry : ε) (isPowerDownState : Bool)
  | suspended (entry : ε) (isPowerDownState : Bool)
  | suspendModeDiffers (mode : SuspendMode)
  | suspendModeAllowed (mode : SuspendMode)

/-- The core runs with its ancestors running: it executes, stands by at the CPU level, has only
    read the suspend mode in a suspend, or is in `set_suspend_mode`. -/
def Phase.Running {σ ε : Type} : Phase σ ε → Prop
  | .executing | .standby | .suspending .. | .suspendModeDiffers _ | .suspendModeAllowed _ => True
  | _ => False

/-- One locked section a core runs, with the platform's answers inside it. -/
inductive Action (σ ε : Type) where
  | cpuSuspend (powerState : PowerState) (entry : ε)
  | cpuDefaultSuspend (entry : ε)
  | systemSuspend (entry : ε)
  | cpuOff (powerDomainOffEarly : Except ErrorCode Unit)
  | cpuOn (target : Option Nat) (entry : ε) (powerDomainOn : Except ErrorCode Unit)
  | setSuspendMode (mode : SuspendMode)
  | setSuspendModeCheck
  | setSuspendModeWrite
  | standbyWake
  | coordinate (hasPendingInterrupts : Bool) (validateSuspend : Except ErrorCode Unit)
  | wake
  | boot

/-- The sections a core can run in each phase: an executing core makes PSCI calls, the others
    go on with the call they are in, and a core boots when it was turned on or, suspended in a
    power-down state, is woken through its reset vector. -/
def enabled {σ ε : Type} : Phase σ ε → Action σ ε → Bool
  | .executing, .cpuSuspend .. | .executing, .cpuDefaultSuspend _
  | .executing, .systemSuspend _ | .executing, .cpuOff _ | .executing, .cpuOn .. => true
  | .executing, .setSuspendMode _ => true
  | .suspendModeDiffers _, .setSuspendModeCheck | .suspendModeAllowed _, .setSuspendModeWrite => true
  | .standby, .standbyWake => true
  | .suspending .., .coordinate .. => true
  | .suspended _ _, .wake => true
  | .suspended _ true, .boot => true
  | .onPending _, .boot => true
  | _, _ => false

/-- The cores and the PSCI state. -/
structure System (σ ε : Type) where
  psci : PsciState σ ε
  phase : Nat → Phase σ ε

/-- The phase a core is in after a section with this outcome. -/
def Outcome.next {σ ε : Type} : Outcome σ ε → Phase σ ε
  | .returned _ => .executing
  | .standby => .standby
  | .suspending levelToLockTo highestAffectedLevel composite entry isPowerDownState =>
    .suspending levelToLockTo highestAffectedLevel composite entry isPowerDownState
  | .suspended entry isPowerDownState => .suspended entry isPowerDownState
  | .off => .off
  | .wakeUp _ => .executing
  | .suspendModeDiffers mode => .suspendModeDiffers mode
  | .suspendModeAllowed mode => .suspendModeAllowed mode

/-- A step's label: the core and its section. -/
structure Label (σ ε : Type) where
  cpu : Nat
  action : Action σ ε

namespace System

variable {σ ε : Type} [LinearOrder σ] [PlatformPowerState σ] (T : Topology)
  (P : PsciPlatform σ ε)

/-- `Psci::new` on the primary core: a fresh tree in which the primary CPU is on and it and its
    ancestors run, in platform-coordinated mode. -/
def newPsci (primary : Nat) : Except Panic (PsciState σ ε) := do
  let t : PowerDomainTree σ ε := PowerDomainTree.new
  let node ← t.lockedCpuNode T primary
  let ancestors ← AncestorPowerDomains.newWithMaxLevel T (T.cpuParent primary) T.maxPowerLevel
  let t := t.setCpu primary { node with affinityInfo := .on, localState := run }
  let t ← AncestorPowerDomains.setRunning T primary ancestors t
  pure ⟨t, .platformCoordinated⟩

/-- The system after `Psci::new`: the primary core executes, the others are off. -/
def new (primary : Nat) : Except Panic (System σ ε) := do
  let psci ← newPsci T primary
  pure ⟨psci, fun c => if c = primary then .executing else .off⟩

/-- The section `a` of core `cpu` in phase `ph`. -/
def runSection (s : PsciState σ ε) (ph : Phase σ ε) (cpu : Nat) :
    Action σ ε → Except Panic (PsciState σ ε × Outcome σ ε)
  | .cpuSuspend powerState entry => s.cpuSuspend T P cpu powerState entry
  | .cpuDefaultSuspend entry => s.cpuDefaultSuspend T P cpu entry
  | .systemSuspend entry => s.systemSuspend T P cpu entry
  | .cpuOff offEarly => s.cpuOff T cpu offEarly
  | .cpuOn target entry powerDomainOn => s.cpuOn T P target entry powerDomainOn
  | .setSuspendMode mode => s.setSuspendMode P mode
  | .setSuspendModeCheck =>
    match ph with
    | .suspendModeDiffers mode => s.setSuspendModeCheck T cpu mode
    | _ => pure (s, .returned (.ok ()))
  | .setSuspendModeWrite =>
    match ph with
    | .suspendModeAllowed mode => s.setSuspendModeWrite mode
    | _ => pure (s, .returned (.ok ()))
  | .standbyWake => s.cpuStandbyWake T cpu
  | .coordinate hasPendingInterrupts validateSuspend =>
    match ph with
    | .suspending levelToLockTo highestAffectedLevel composite entry isPowerDownState =>
      s.cpuSuspendCoordinate T P cpu levelToLockTo highestAffectedLevel composite entry
        isPowerDownState hasPendingInterrupts validateSuspend
    | _ => pure (s, .returned (.ok ()))
  | .wake =>
    match ph with
    | .suspended _ isPowerDownState => s.cpuSuspendWake T cpu isPowerDownState
    | _ => pure (s, .returned (.ok ()))
  | .boot => s.handleCpuBoot T cpu

/-- One section of one core: the PSCI state it leaves, the core's next phase, and, for a
    `CPU_ON` that succeeds, the target pending with the entry point. -/
def step (s : System σ ε) (l : Label σ ε) : Except Panic (System σ ε × Outcome σ ε) := do
  let (psci, o) ← runSection T P s.psci (s.phase l.cpu) l.cpu l.action
  let phase := Function.update s.phase l.cpu o.next
  let phase := match l.action, o with
    | .cpuOn (some target) entry _, .returned (.ok ()) =>
      Function.update phase target (.onPending entry)
    | _, _ => phase
  pure (⟨psci, phase⟩, o)

/-- A section other than a `CPU_ON` moves only the calling core to its next phase. -/
theorem step_eq {s : System σ ε} {l : Label σ ε} {psci : PsciState σ ε} {o : Outcome σ ε}
    (hsection : runSection T P s.psci (s.phase l.cpu) l.cpu l.action = .ok (psci, o))
    (hcpuOn : ∀ target entry powerDomainOn, l.action ≠ .cpuOn target entry powerDomainOn) :
    step T P s l = .ok (⟨psci, Function.update s.phase l.cpu o.next⟩, o) := by
  simp only [step, hsection, ok_bind]
  split
  case h_1 _ _ target entry powerDomainOn haction => exact absurd haction (hcpuOn _ _ _)
  case h_2 => rfl

/-- A step of the system: a section that some core can run in its phase, and that does not
    panic. -/
def Step (s : System σ ε) (l : Label σ ε) (s' : System σ ε) : Prop :=
  l.cpu < T.cpuCount ∧ enabled (s.phase l.cpu) l.action = true ∧ ∃ o, step T P s l = .ok (s', o)

/-- The steps with labels `ls` from `s`, as long as each core can run its section and none
    panics. -/
def runChecked (s : System σ ε) : List (Label σ ε) → Option (System σ ε)
  | [] => some s
  | l :: ls =>
    if l.cpu < T.cpuCount ∧ enabled (s.phase l.cpu) l.action = true then
      match step T P s l with
      | .ok (s', _) => runChecked s' ls
      | .error _ => none
    else none

theorem reachable_of_runChecked {s s' : System σ ε} {ls : List (Label σ ε)}
    (h : runChecked T P s ls = some s') :
    Transition.Reachable (Step T P) s s' := by
  induction ls generalizing s with
  | nil =>
    cases h
    exact Transition.Reachable.refl _
  | cons l ls ih =>
    simp only [runChecked] at h
    split at h
    case isTrue hen =>
      split at h
      case h_1 s₁ o hstep => exact Transition.Reachable.head ⟨hen.1, hen.2, o, hstep⟩ (ih h)
      case h_2 => cases h
    case isFalse => cases h

end System

end RustedFirmware.Psci
