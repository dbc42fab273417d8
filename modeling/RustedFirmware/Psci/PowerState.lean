import RustedFirmware.Lib.Rust

set_option autoImplicit false

/-! Power states of the PSCI service (`src/services/psci.rs`).

    A platform gives its own type of power states, ordered from the running state up to the
    deepest power-down state, with `OFF` and `RUN` and the category of each state
    (`PlatformPowerStateInterface`). A composite power state is one local state per power level,
    from the CPU level (`CPU_POWER_LEVEL = 0`) up to `MAX_POWER_LEVEL`, and the level at which the
    caller claims to be the last running CPU, which only OS-initiated suspends use.

    The order the trait asks for is `LawfulPowerState`: `RUN` is the shallowest state and the
    only running one, and every state deeper than a power-down state is a power-down state.
    The arrays of `STATE_COUNT = MAX_POWER_LEVEL + 1` states are lists; an index into them that
    the source makes is below `STATE_COUNT` (the highest level of a state array, or a level it
    found in it), and the model reads it with `getD`. -/

namespace RustedFirmware.Psci

open Rust

/-- `PowerStateType`: the category of a power state. -/
inductive PowerStateType where
  | powerDown
  | standbyOrRetention
  | run
  deriving DecidableEq, Repr

/-- `PlatformPowerStateInterface`: a platform's power states, with the states of a CPU turned
    off and of a running CPU and the category of each state. The order is the type's `Ord`. -/
class PlatformPowerState (σ : Type) where
  off : σ
  run : σ
  powerStateType : σ → PowerStateType

open PlatformPowerState

/-- The order the trait documents: "in ascending order from running state to power down
    state". `RUN` is the shallowest state and the only one of the running category, and a
    state deeper than a power-down state is a power-down state. -/
class LawfulPowerState (σ : Type) [LinearOrder σ] [PlatformPowerState σ] : Prop where
  run_le : ∀ s : σ, run ≤ s
  type_run : powerStateType (run : σ) = .run
  eq_run_of_type : ∀ s : σ, powerStateType s = .run → s = run
  powerDown_of_le : ∀ s t : σ, s ≤ t → powerStateType s = .powerDown →
    powerStateType t = .powerDown

/-- What the trait's order says of `OFF`, the state of a CPU turned off: it ends the order "from
    running state to power down state", and it is not `RUN`. -/
class OffDeepest (σ : Type) [LinearOrder σ] [PlatformPowerState σ] : Prop where
  le_off : ∀ s : σ, s ≤ off
  off_ne_run : (off : σ) ≠ run

/-- `arm_psci::PowerState`, the `power_state` argument of `CPU_SUSPEND`. -/
inductive PowerState where
  | standbyOrRetention (v : UInt32)
  | powerDown (v : UInt32)
  deriving DecidableEq, Repr

/-- `arm_psci::ErrorCode`, the errors a PSCI call returns. -/
inductive ErrorCode where
  | notSupported
  | invalidParameters
  | denied
  | alreadyOn
  | onPending
  | internalFailure
  | notPresent
  | disabled
  | invalidAddress
  deriving DecidableEq, Repr

/-- `arm_psci::SuspendMode`. -/
inductive SuspendMode where
  | platformCoordinated
  | osInitiated
  deriving DecidableEq, Repr

/-- `is_sorted_by(|a, b| a >= b)`: each state is at least as deep as the next. -/
def isSortedDesc {σ : Type} [LinearOrder σ] : List σ → Bool
  | a :: b :: rest => decide (b ≤ a) && isSortedDesc (b :: rest)
  | _ => true

/-- `PsciCompositePowerState`: the local power state at each level, CPU level first, and the
    highest level at which the caller is the last running CPU. -/
structure CompositePowerState (σ : Type) where
  states : List σ
  lastAtPowerLevel : Option Nat
  deriving DecidableEq, Repr

namespace CompositePowerState

variable {σ : Type} [LinearOrder σ] [PlatformPowerState σ]

/-- `PsciCompositePowerState::OFF`, for `STATE_COUNT` levels. -/
def allOff (stateCount : Nat) : CompositePowerState σ := ⟨List.replicate stateCount off, none⟩

/-- `PsciCompositePowerState::RUN`, for `STATE_COUNT` levels. -/
def allRun (stateCount : Nat) : CompositePowerState σ := ⟨List.replicate stateCount run, none⟩

/-- `cpu_level_state`: `states[CPU_POWER_LEVEL]`. -/
def cpuLevelState (c : CompositePowerState σ) : σ := c.states.getD 0 run

/-- `highest_level_state`: `states[STATE_COUNT - 1]`. -/
def highestLevelState (c : CompositePowerState σ) : σ := c.states.getLastD run

/-- `find_highest_non_run_level`. -/
def findHighestNonRunLevel (c : CompositePowerState σ) : Option Nat :=
  rposition (fun s => powerStateType s != .run) c.states

/-- `find_highest_power_down_level`. -/
def findHighestPowerDownLevel (c : CompositePowerState σ) : Option Nat :=
  rposition (fun s => powerStateType s == .powerDown) c.states

/-- `is_valid_suspend_request`: some level is not running, the states get no deeper going up,
    the last power level is at most `MAX_POWER_LEVEL`, and a power-down request has a power-down
    level while a retention request has none. -/
def isValidSuspendRequest (maxPowerLevel : Nat) (c : CompositePowerState σ)
    (isPowerDownState : Bool) : Bool :=
  if c.findHighestNonRunLevel.isNone then false
  else if !isSortedDesc c.states then false
  else if (match c.lastAtPowerLevel with
      | some last => decide (last > maxPowerLevel)
      | none => false) then false
  else if isPowerDownState then c.findHighestPowerDownLevel.isSome
  else c.findHighestPowerDownLevel.isNone

/-- `create_highest_affected_level_resolved_state`: the states from `highestAffectedLevel` up
    set to the state at that level, the caller's vote at each level in OS-initiated mode. -/
def createHighestAffectedLevelResolvedState (c : CompositePowerState σ)
    (highestAffectedLevel : Nat) : CompositePowerState σ :=
  let atHighest := c.states.getD highestAffectedLevel run
  { c with states := c.states.mapIdx fun i s => if highestAffectedLevel ≤ i then atHighest else s }

omit [LinearOrder σ] in
@[simp] theorem lastAtPowerLevel_createHighestAffectedLevelResolvedState
    (c : CompositePowerState σ) (highestAffectedLevel : Nat) :
    (c.createHighestAffectedLevelResolvedState highestAffectedLevel).lastAtPowerLevel =
      c.lastAtPowerLevel := rfl

omit [LinearOrder σ] in
/-- Up to the highest affected level the resolved state keeps the request's states. -/
theorem getD_createHighestAffectedLevelResolvedState (c : CompositePowerState σ)
    {highestAffectedLevel l : Nat} (hl : l ≤ highestAffectedLevel) :
    (c.createHighestAffectedLevelResolvedState highestAffectedLevel).states.getD l run =
      c.states.getD l run := by
  simp only [createHighestAffectedLevelResolvedState, List.getD_eq_getElem?_getD,
    List.getElem?_mapIdx]
  rcases Nat.lt_or_ge l highestAffectedLevel with hlt | hge
  · cases c.states[l]? <;> simp [Nat.not_le.mpr hlt]
  · obtain rfl : l = highestAffectedLevel := le_antisymm hl hge
    cases c.states[l]? <;> simp

end CompositePowerState

end RustedFirmware.Psci
