import RustedFirmware.Lib.Transition
import RustedFirmware.Services.Spmd

set_option autoImplicit false

/-! The run loop of one core and the SPMD's state over whole runs (`src/services.rs`).

    A core is booted cold (`Spmd::new` on the primary core) or warm (`Services::warmboot`), and
    then runs `run_loop`: it enters the Secure World until that hands over to the Normal World,
    then, unless the RMM failed to boot, the Realm World likewise, and then loops, entering
    whichever world the last exit asked for. Each exit of a lower EL is an SMC, dispatched by
    `handle_smc` to the service that owns its function ID, an interrupt (`handle_interrupt`), or
    a trapped system register access. A PSCI call of the Normal World may power the core off,
    power it down in a suspend (from which a warm boot wakes it), or turn the system off; on the
    way it forwards the request to the SPMC and tells the SPMD.

    `step` is one such event for one core, as a function of the core's SPMD state and phase. The
    SPMD's per-core state is touched only by its own core, so a core is modelled alone. What the
    rest of the firmware answers (the FF-A message in the registers, the PSCI call's outcome,
    the RMMD's choice of world, the RMM boot status, the Secure World's replies) is part of the
    event. Which wake-up reason `handle_cpu_boot` reports is the PSCI contract: `CpuOn` for a
    core that was off, `SuspendFinished` for one powered down in a suspend.

    The main result, `spmc_state_fits_world`: in every state reachable from before cold boot,
    the Normal and Realm Worlds are entered only at `Runtime`, the Secure World never at `Off`,
    and a powered-off core is at `Off`; so no step from there fails an assert of the SPMD or of
    the run loop, nor hits the `panic!()` for a secure call at `Off`. -/

namespace RustedFirmware

open Rust Ffa Spmd

namespace Services

/-- `InterruptType` (`gicv3.rs`): the kind of the pending interrupt. -/
inductive InterruptType where
  | el3
  | secure
  | nonSecure
  | invalid
  deriving DecidableEq, Repr

/-- What a PSCI call of the Normal World does with the SPM (`psci.rs`): `other` is a call that
    does not reach it (it fails first, retains its state, or returns on a pending interrupt);
    `CPU_OFF`; a power-down `CPU_SUSPEND` or `SYSTEM_SUSPEND` that powers the core down, or one
    abandoned at the final `WFI`; and `SYSTEM_OFF` or `SYSTEM_RESET`. Each request forwarded
    carries the Secure World's reply to it. -/
inductive PsciCall where
  | other
  | cpuOff (reply : SecureReturn)
  | suspend (function : PsciFunction) (reply : SecureReturn)
  | suspendAbandoned (function : PsciFunction) (reply reply' : SecureReturn)
  | systemOff (function : PsciFunction) (reply : SecureReturn)

/-- One SMC of the core: its function ID, and what the parts of the firmware outside this model
    answer for it: the FF-A message in its registers (read by the SPMD), what a PSCI call does
    with the SPM, and whether the RMMD passes the call to the other world (an RMI call of the
    Normal World once the RMM booted, or the RMM's return to the Normal World). -/
structure Smc where
  functionId : FunctionId
  msg : Except DecodeError Interface
  psci : PsciCall
  rmmdSwitches : Bool

/-- A return of the lower EL to EL3 (`RunResult`). -/
inductive Exit where
  | smc (call : Smc)
  | interrupt (type : InterruptType)
  | sysregTrap

/-- What a core does once EL3 has handled an exit: run a world, or stop running: powered off by
    `CPU_OFF`, powered down by a suspend, or with the system turned off or reset. -/
inductive Next where
  | world (w : World)
  | cpuOff
  | powerDown
  | systemOff

/-- The part of `Psci::handle_non_secure_smc` the SPMD takes part in: `forward_psci_request`,
    then `notify_cpu_off` or `notify_cpu_suspend_powerdown_abandoned` where `psci.rs` calls
    them. -/
def psciNonSecure (spmd : Spmd) : PsciCall → Except Panic (Spmd × Next)
  | .other => pure (spmd, .world .nonSecure)
  | .cpuOff reply => do
    let _ ← forwardPsciRequest spmd .cpuOff reply
    let spmd ← notifyCpuOff spmd
    pure (spmd, .cpuOff)
  | .suspend function reply => do
    let _ ← forwardPsciRequest spmd function reply
    pure (spmd, .powerDown)
  | .suspendAbandoned function reply reply' => do
    let _ ← forwardPsciRequest spmd function reply
    let spmd ← notifyCpuSuspendPowerdownAbandoned spmd reply'
    pure (spmd, .world .nonSecure)
  | .systemOff function reply => do
    let _ ← forwardPsciRequest spmd function reply
    pure (spmd, .systemOff)

/-- `Services::handle_smc` for a call from `world`: the SPMD afterwards and what the core does
    next. An invalid or unowned ID, and a service's default handler, answer `NOT_SUPPORTED` in
    the calling world; so do the architecture, errata management and TRNG services, which
    answer every call in the world that made it. -/
def handleSmc (spmd : Spmd) (call : Smc) (world : World) : Except Panic (Spmd × Next) :=
  if !call.functionId.valid then pure (spmd, .world world)
  else
    match Service.owner call.functionId, world with
    | some .spmd, .nonSecure => do
      let (_, next) ← handleNonSecureSmc spmd call.functionId call.msg
      pure (spmd, .world next)
    | some .spmd, .secure => do
      let (_, next, spmd) ← handleSecureSmc spmd call.functionId call.msg
      pure (spmd, .world next)
    | some .psci, .nonSecure => psciNonSecure spmd call.psci
    | some .rmmd, .nonSecure =>
      pure (spmd, .world (if call.rmmdSwitches then .realm else .nonSecure))
    | some .rmmd, .realm =>
      pure (spmd, .world (if call.rmmdSwitches then .nonSecure else .realm))
    | _, _ => pure (spmd, .world world)

/-- `Services::handle_interrupt`: the SPMD afterwards and the world to run next. A secure
    interrupt in the Normal World goes to the SPMC; a group 0 interrupt is handled in EL3. -/
def handleInterrupt (spmd : Spmd) (type : InterruptType) (world : World) :
    Except Panic (Spmd × World) :=
  match type, world with
  | .secure, .nonSecure => do
    let (_, next, spmd) ← forwardSecureInterrupt spmd
    pure (spmd, next)
  | .el3, .secure => throw (.explicit "not yet implemented")
  | .el3, .nonSecure => pure (spmd, .nonSecure)
  | .invalid, _ => pure (spmd, world)
  | _, _ => throw (.explicit "Unsupported interrupt routing.")

/-- One turn of `per_world_loop` in `world`: the SPMD afterwards and what the core does next. A
    trapped system register access is answered with an undefined instruction exception in the
    same world. -/
def handleExit (spmd : Spmd) (world : World) : Exit → Except Panic (Spmd × Next)
  | .smc call => handleSmc spmd call world
  | .interrupt type => do
    let (spmd, next) ← handleInterrupt spmd type world
    pure (spmd, .world next)
  | .sysregTrap => pure (spmd, .world world)

/-- Where a core is. `secureBoot` and `realmBoot` are the first two passes of `run_loop`, each
    until its world hands over to the Normal World; `running w` is its main loop, about to
    enter `w`; `halted` is after `SYSTEM_OFF` or `SYSTEM_RESET`. -/
inductive Phase where
  | off
  | suspended
  | halted
  | secureBoot
  | realmBoot
  | running (w : World)
  deriving DecidableEq, Repr

/-- The world a core in this phase runs. -/
def Phase.world : Phase → Option World
  | .secureBoot => some .secure
  | .realmBoot => some .realm
  | .running w => some w
  | _ => none

/-- `run_loop` once `per_world_loop` of the phase's world returned `next`: it stays in the world
    while the exits ask for it, after the Secure World's pass enters the Realm World unless the
    RMM failed to boot, and asserts that each of the first two passes ends in the Normal
    World. -/
def runLoop (phase : Phase) (next : Next) (rmmBootFailed : Bool) : Except Panic Phase :=
  match next with
  | .cpuOff => pure .off
  | .powerDown => pure .suspended
  | .systemOff => pure .halted
  | .world w =>
    match phase with
    | .secureBoot =>
      if w = .secure then pure .secureBoot
      else if w = .nonSecure then pure (if rmmBootFailed then .running .nonSecure else .realmBoot)
      else throw (.assertFailed "assert_eq!(next_world, World::NonSecure)")
    | .realmBoot =>
      if w = .realm then pure .realmBoot
      else if w = .nonSecure then pure (.running .nonSecure)
      else throw (.assertFailed "assert_eq!(next_world, World::NonSecure)")
    | .running _ => pure (.running w)
    | phase => pure phase

/-- One core: the SPMD as it sees it, and where it is. -/
structure Core where
  spmd : Spmd
  phase : Phase
  deriving DecidableEq, Repr

/-- A core before cold boot: powered off, its `SpmdLocal` at `Off`. -/
def Core.init : Core := ⟨initial, .off⟩

/-- What happens to a core: a cold boot (on the primary core, or leaving a secondary one off),
    a warm boot, or an exit of the lower EL it runs, with the RMM boot status `run_loop` reads
    when the Secure World's pass ends. -/
inductive Event where
  | coldBoot (primary : Bool)
  | warmBoot
  | exit (e : Exit) (rmmBootFailed : Bool)

/-- One event. An event that cannot happen in the core's phase (a warm boot of a running core,
    an exit of a core that runs no world) leaves it as it is. `isCompatibleTo` is
    `Version::is_compatible_to` of the `arm_ffa` crate, which `Spmd::new` calls. -/
def step (isCompatibleTo : Version → Version → Bool) (c : Core) : Event → Except Panic Core
  | .coldBoot true => do
    let spmd ← Spmd.new isCompatibleTo
    pure ⟨spmd, .secureBoot⟩
  | .coldBoot false => pure Core.init
  | .warmBoot =>
    match c.phase with
    | .off => do
      let spmd ← handleWakeFromCpuOff c.spmd
      pure ⟨spmd, .secureBoot⟩
    | .suspended => do
      let (_, spmd) ← handleWakeFromCpuSuspend c.spmd
      pure ⟨spmd, .secureBoot⟩
    | _ => pure c
  | .exit e rmmBootFailed =>
    match c.phase.world with
    | some w => do
      let (spmd, next) ← handleExit c.spmd w e
      let phase ← runLoop c.phase next rmmBootFailed
      pure ⟨spmd, phase⟩
    | none => pure c

/-- The step relation of a core: the events that do not abort. -/
def Step (isCompatibleTo : Version → Version → Bool) (c : Core) (e : Event) (c' : Core) : Prop :=
  step isCompatibleTo c e = .ok c'

/-! ### The SPMC state each world needs -/

/-- The SPMC states in which a world may be entered: the Normal and Realm Worlds only at
    `Runtime`, the Secure World in any state but `Off`. -/
def WorldFits (s : SpmcState) : World → Prop
  | .nonSecure => s = .runtime
  | .secure => s ≠ .off
  | .realm => s = .runtime

/-- The SPMC state a core may have after an exit: that of the world it runs next, `Off` once
    powered off, `Runtime` when powered down in a suspend. -/
def NextFits (s : SpmcState) : Next → Prop
  | .world w => WorldFits s w
  | .cpuOff => s = .off
  | .powerDown => s = .runtime
  | .systemOff => True

/-- The SPMC state a core may have in each phase. -/
def Phase.Fits (s : SpmcState) : Phase → Prop
  | .off => s = .off
  | .suspended => s = .runtime
  | .halted => True
  | .secureBoot => WorldFits s .secure
  | .realmBoot => WorldFits s .realm
  | .running w => WorldFits s w

/-- The invariant of a core: its SPMC state fits its phase. -/
def Core.Consistent (c : Core) : Prop := c.phase.Fits c.spmd.spmcState

/-- The worlds an exit of `w` leads to: `w` itself, or from or to the Normal World. -/
def Leads (w : World) : Next → Prop
  | .world w' => w' = w ∨ w' = .nonSecure ∨ w = .nonSecure
  | _ => True

/-! ### One step keeps the SPMC state fitting the world -/

section Contracts

variable {spmd : Spmd}

/-- Every exit of the Normal World leads where it may. -/
theorem leads_nonSecure (next : Next) : Leads .nonSecure next := by
  cases next <;> simp [Leads]

theorem Phase.fits_of_world {p : Phase} {w : World} {s : SpmcState} (h : p.world = some w) :
    p.Fits s ↔ WorldFits s w := by
  cases p <;> simp_all [Phase.world, Phase.Fits]

/-- The PSCI calls of the Normal World, at `Runtime`: `CPU_OFF` leaves the SPMC at `Off`, every
    other call at `Runtime`. -/
theorem psciNonSecure_post (hs : spmd.spmcState = .runtime) (call : PsciCall) :
    (psciNonSecure spmd call).Post (¬ StateCheck ·) (fun r => NextFits r.1.spmcState r.2) := by
  -- every forwarded request first waits for the SPMC's reply, which aborts only as it allows
  have hfwd : ∀ (function : PsciFunction) (reply : SecureReturn) {β : Type}
      (f : Int → Except Panic β) (Q : β → Prop), (∀ status, (f status).Post (¬ StateCheck ·) Q) →
      (forwardPsciRequest spmd function reply >>= f).Post (¬ StateCheck ·) Q := by
    intro function reply β f Q hf
    exact Except.Post.bind ((forwardPsciRequest_post function reply).mono (fun _ h => h)
      (fun status _ => hf status))
  cases call with
  | other => exact hs
  | cpuOff reply =>
    refine hfwd _ reply _ _ (fun _ => ?_)
    simp [notifyCpuOff_of_runtime hs, NextFits]
  | suspend function reply => exact hfwd _ reply _ _ (fun _ => hs)
  | suspendAbandoned function reply reply' =>
    refine hfwd _ reply _ _ (fun _ => Except.Post.bind ?_)
    exact (notifyCpuSuspendPowerdownAbandoned_post hs reply').mono (fun _ h => h)
      (fun _ h => h)
  | systemOff function reply => exact hfwd _ reply _ _ (fun _ => trivial)

/-- An SMC from a world whose SPMC state fits it leads to a world, or a power state, that fits
    the SPMC state afterwards, and leaves the Secure and Realm Worlds only for the Normal
    World. -/
theorem handleSmc_post {call : Smc} {world : World} (hw : WorldFits spmd.spmcState world) :
    (handleSmc spmd call world).Post (¬ StateCheck ·)
      (fun r => NextFits r.1.spmcState r.2 ∧ Leads world r.2) := by
  unfold handleSmc
  split
  · -- case: an invalid function ID
    exact ⟨hw, .inl rfl⟩
  split
  · -- case: the SPMD, from the Normal World
    rename_i howner
    have hf := Service.callType_of_owns (Service.owns_of_owner howner)
    apply Except.Post.bind
    refine (handleNonSecureSmc_post hf hw).mono (fun _ h => h) ?_
    rintro ⟨_, next⟩ hnext
    rcases hnext with rfl | rfl
    · exact ⟨hw, .inl rfl⟩
    · exact ⟨by simp [NextFits, WorldFits, show spmd.spmcState = .runtime from hw], .inr (.inr rfl)⟩
  · -- case: the SPMD, from the Secure World
    rename_i howner
    have hf := Service.callType_of_owns (Service.owns_of_owner howner)
    apply Except.Post.bind
    refine (handleSecureSmc_post hf hw).mono (fun _ h => h) ?_
    rintro ⟨_, next, spmd'⟩ hexit
    rcases hexit with ⟨rfl, hs'⟩ | ⟨rfl, hs'⟩
    · exact ⟨hs', .inr (.inl rfl)⟩
    · exact ⟨hs' ▸ hw, .inl rfl⟩
  · -- case: PSCI, from the Normal World
    exact (psciNonSecure_post hw _).mono (fun _ h => h) (fun r h => ⟨h, leads_nonSecure r.2⟩)
  · -- case: the RMMD, from the Normal World
    split_ifs
    · exact ⟨hw, .inr (.inr rfl)⟩
    · exact ⟨hw, .inl rfl⟩
  · -- case: the RMMD, from the Realm World
    split_ifs
    · exact ⟨hw, .inr (.inl rfl)⟩
    · exact ⟨hw, .inl rfl⟩
  · -- case: every other service, and no service, answer in the calling world
    exact ⟨hw, .inl rfl⟩

/-- An interrupt keeps the SPMC state fitting the world: a secure interrupt in the Normal World
    moves the SPMC to `SecureInterrupt` and the core to the Secure World. -/
theorem handleInterrupt_post {type : InterruptType} {world : World}
    (hw : WorldFits spmd.spmcState world) :
    (handleInterrupt spmd type world).Post (¬ StateCheck ·)
      (fun r => WorldFits r.1.spmcState r.2 ∧ Leads world (.world r.2)) := by
  unfold handleInterrupt
  split
  · -- case: a secure interrupt in the Normal World
    rw [forwardSecureInterrupt_of_runtime hw]
    simp [WorldFits, Leads]
  · simp [StateCheck, explicitPanic]
  · exact ⟨hw, .inl rfl⟩
  · exact ⟨hw, .inl rfl⟩
  · simp [StateCheck, explicitPanic]

theorem handleExit_post {world : World} (hw : WorldFits spmd.spmcState world) (e : Exit) :
    (handleExit spmd world e).Post (¬ StateCheck ·)
      (fun r => NextFits r.1.spmcState r.2 ∧ Leads world r.2) := by
  cases e with
  | smc call => exact handleSmc_post hw
  | interrupt type =>
    exact Except.Post.bind ((handleInterrupt_post hw).mono (fun _ h => h) (fun _ h => h))
  | sysregTrap => exact ⟨hw, .inl rfl⟩

/-- After an exit that fits the SPMC state, the run loop's next phase fits it too, and its
    asserts hold: the first two passes end only in the Normal World. -/
theorem runLoop_post {phase : Phase} {w : World} {next : Next} {s : SpmcState}
    (hp : phase.world = some w) (hn : NextFits s next) (hl : Leads w next)
    (rmmBootFailed : Bool) :
    (runLoop phase next rmmBootFailed).Post (¬ StateCheck ·) (Phase.Fits s) := by
  cases next with
  | cpuOff => exact hn
  | powerDown => exact hn
  | systemOff => trivial
  | world w' =>
    cases phase with
    | secureBoot =>
      cases hp
      -- the Secure World hands over only to the Normal World
      rcases hl with rfl | rfl | hns
      · exact hn
      · cases rmmBootFailed
        · exact hn
        · exact hn
      · cases hns
    | realmBoot =>
      cases hp
      rcases hl with rfl | rfl | hns
      · exact hn
      · exact hn
      · cases hns
    | running _ => exact hn
    | off => cases hp
    | suspended => cases hp
    | halted => cases hp

theorem Core.consistent_init : Core.init.Consistent := rfl

/-- One event keeps a core consistent, and fails no state check. -/
theorem step_post {isCompatibleTo : Version → Version → Bool}
    (hcompat : ∀ v, isCompatibleTo v v = true) {c : Core} (hc : c.Consistent) (e : Event) :
    (step isCompatibleTo c e).Post (¬ StateCheck ·) Core.Consistent := by
  cases e with
  | coldBoot primary =>
    cases primary
    · exact Core.consistent_init
    · rw [step, new_eq hcompat]
      simp [Core.Consistent, Phase.Fits, WorldFits]
  | warmBoot =>
    simp only [step]
    split
    · -- case: a core turned on by `CPU_ON`
      rename_i hoff
      have hs : c.spmd.spmcState = .off := by
        rw [Core.Consistent, hoff] at hc
        exact hc
      simp [handleWakeFromCpuOff_of_off hs, Core.Consistent, Phase.Fits, WorldFits]
    · -- case: a core woken from a power-down suspend
      rename_i hsus
      have hs : c.spmd.spmcState = .runtime := by
        rw [Core.Consistent, hsus] at hc
        exact hc
      simp [handleWakeFromCpuSuspend_of_runtime hs, Core.Consistent, Phase.Fits, WorldFits]
    · exact hc
  | exit e rmmBootFailed =>
    simp only [step]
    split
    · rename_i w hw
      have hfit : WorldFits c.spmd.spmcState w := (Phase.fits_of_world hw).mp hc
      apply Except.Post.bind
      refine (handleExit_post hfit e).mono (fun _ h => h) ?_
      rintro ⟨spmd', next⟩ ⟨hn, hl⟩
      apply Except.Post.bind
      exact (runLoop_post hw hn hl rmmBootFailed).mono (fun _ h => h) (fun _ h => h)
    · exact hc

theorem Core.consistent_of_reachable {isCompatibleTo : Version → Version → Bool}
    (hcompat : ∀ v, isCompatibleTo v v = true) {c : Core}
    (hr : Transition.Reachable (Step isCompatibleTo) Core.init c) : c.Consistent :=
  hr.invariant (I := Core.Consistent) Core.consistent_init
    (fun _ e _ hc he => (step_post hcompat hc e).of_ok he)

end Contracts

/-- In every state a core reaches from before cold boot, the Normal World is entered only at
    `Runtime`, the Secure World never at `Off`, and a powered-off core is at `Off`; so no event
    fails a state check of the SPMD or of the run loop. The compatibility test of FF-A versions
    accepts a version with itself. -/
theorem spmc_state_fits_world {isCompatibleTo : Version → Version → Bool}
    (hcompat : ∀ v, isCompatibleTo v v = true) {c : Core}
    (hr : Transition.Reachable (Step isCompatibleTo) Core.init c) :
    (c.phase.world = some .nonSecure → c.spmd.spmcState = .runtime) ∧
    (c.phase.world = some .secure → c.spmd.spmcState ≠ .off) ∧
    (c.phase = .off → c.spmd.spmcState = .off) ∧
    ∀ e p, step isCompatibleTo c e = .error p → ¬ StateCheck p := by
  have hc := Core.consistent_of_reachable hcompat hr
  refine ⟨fun hw => (Phase.fits_of_world hw).mp hc, fun hw => (Phase.fits_of_world hw).mp hc,
    fun hoff => ?_, fun e p he => (step_post hcompat hc e).of_error he⟩
  rw [Core.Consistent, hoff] at hc
  exact hc

/-- The primary core right after cold boot, about to enter the SPMC in `Boot`, with the FF-A
    rule for compatible versions (same major version, minor version no newer). -/
theorem spmc_state_fits_world_coldBoot :
    let isCompatibleTo : Version → Version → Bool :=
      fun v callee => v.major == callee.major && v.minor ≤ callee.minor
    (∀ v, isCompatibleTo v v = true) ∧
      Transition.Reachable (Step isCompatibleTo) Core.init
        ⟨{ initial with spmcState := .boot }, .secureBoot⟩ ∧
      ∀ e p, step isCompatibleTo ⟨{ initial with spmcState := .boot }, .secureBoot⟩ e = .error p →
        ¬ StateCheck p := by
  intro isCompatibleTo
  have hcompat : ∀ v, isCompatibleTo v v = true := by
    intro v
    simp [isCompatibleTo]
  have hr : Transition.Reachable (Step isCompatibleTo) Core.init
      ⟨{ initial with spmcState := .boot }, .secureBoot⟩ :=
    Transition.Reachable.tail (Transition.Reachable.refl _)
      (show Step isCompatibleTo Core.init (.coldBoot true) _ from rfl)
  exact ⟨hcompat, hr, (spmc_state_fits_world hcompat hr).2.2.2⟩

end Services

end RustedFirmware
