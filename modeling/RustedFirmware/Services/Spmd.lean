import RustedFirmware.Lib.Rust
import RustedFirmware.Services.Smccc

set_option autoImplicit false

/-! The FF-A Secure Partition Manager Dispatcher (`src/services/ffa/spmd.rs`).

    The SPMD relays FF-A messages between the Normal World and the SPMC in the Secure World and
    keeps, for each core, the state of the SPMC there (`SpmcState`): `Off` until the core is
    booted, `Boot` until the SPMC signals with `FFA_MSG_WAIT` that it is initialised, `Runtime`
    afterwards, and `SecureInterrupt` or `PsciEventHandling` while the SPMC handles a secure
    interrupt or a power event. Every change of state goes through `switch_spmc_local_state`,
    which asserts the state it expects.

    The FF-A messages are those of the `arm_ffa` crate that `spmd.rs` names, with the fields it
    reads or writes; every other message is `Interface.other`, and payloads the SPMD forwards
    unread are left out. The contract of each handler is stated with `Except.Post`: what it
    returns, and that it aborts only as its source does. -/

namespace RustedFirmware

namespace Ffa

/-- `arm_ffa::Version`. -/
structure Version where
  major : UInt16
  minor : UInt16
  deriving DecidableEq, Repr

/-- The `query_type` of the flags of `FFA_VERSION`. -/
inductive VersionQueryType where
  | negotiate
  | queryNegotiated
  | queryCompatibility
  deriving DecidableEq, Repr

/-- `VersionOut`. -/
inductive VersionOut where
  | notSupported
  | version (v : Version)
  deriving DecidableEq, Repr

/-- `FfaError`. -/
inductive FfaError where
  | notSupported
  | invalidParameters
  | noMemory
  | busy
  | interrupted
  | denied
  | retry
  | aborted
  | noData
  | notReady
  deriving DecidableEq, Repr

/-- `WarmBootType`. -/
inductive WarmBootType where
  | exitFromSuspend
  | exitFromLowPower
  deriving DecidableEq, Repr

/-- The PSCI calls the PSCI service forwards to the SPM, as `arm_psci::Function` values. -/
inductive PsciFunction where
  | cpuSuspend
  | systemSuspend
  | cpuOff
  | systemOff
  | systemOff2
  | systemReset
  | systemReset2
  deriving DecidableEq, Repr

/-- `DirectMsgArgs`: the framework messages the SPMD sends or reads; `payload` is a partition
    message, which it only forwards. -/
inductive DirectMsgArgs where
  | payload
  | versionReq (version : Version) (queryType : VersionQueryType)
  | versionResp (version : Option Version)
  | powerPsciReq64 (function : PsciFunction)
  | powerPsciResp (psciStatus : Int)
  | powerWarmBootReq (bootType : WarmBootType)
  | other
  deriving DecidableEq, Repr

/-- The arguments of `FFA_SUCCESS` the SPMD builds. -/
inductive SuccessArgs where
  | noArgs
  | idGet (id : UInt16)
  | spmIdGet (id : UInt16)
  | other
  deriving DecidableEq, Repr

/-- `SecondaryEpRegisterAddr`. -/
inductive SecondaryEpRegisterAddr where
  | addr32 (addr : UInt32)
  | addr64 (addr : UInt64)
  deriving DecidableEq, Repr

/-- `arm_ffa::Interface`: the messages `spmd.rs` names, and `other` for the rest. -/
inductive Interface where
  | error (errorCode : FfaError)
  | success (args : SuccessArgs)
  | interrupt
  | version (inputVersion : Version) (queryType : VersionQueryType)
  | versionOut (outputVersion : VersionOut)
  | features
  | rxAcquire
  | rxRelease
  | rxTxMap
  | rxTxUnmap
  | partitionInfoGet
  | partitionInfoGetRegs
  | idGet
  | spmIdGet
  | msgWait
  | yield
  | run
  | normalWorldResume
  | secondaryEpRegister (entrypoint : SecondaryEpRegisterAddr)
  | msgSend2 (senderVmId : UInt16)
  | msgSendDirectReq (srcId dstId : UInt16) (args : DirectMsgArgs)
  | msgSendDirectResp (srcId dstId : UInt16) (args : DirectMsgArgs)
  | msgSendDirectReq2 (srcId dstId : UInt16)
  | msgSendDirectResp2 (srcId dstId : UInt16)
  | notificationBitmapCreate
  | notificationBitmapDestroy
  | notificationBind
  | notificationUnbind
  | notificationSet
  | notificationGet
  | notificationInfoGet
  | memDonate
  | memLend
  | memShare
  | memRetrieveReq
  | memRetrieveResp
  | memReclaim
  | memOpPause
  | memOpResume
  | memFragRx
  | memFragTx
  | other
  deriving DecidableEq, Repr

/-- A failure of `Interface::from_regs`: whether it is one of the errors of decoding
    `FFA_VERSION` (`InvalidVersion`, `InvalidVersionFlags`, `InvalidVersionQueryType`), and the
    `FfaError` it converts into. -/
structure DecodeError where
  versionCall : Bool
  code : FfaError
  deriving DecidableEq, Repr

/-- How the Secure World comes back to EL3 after a request (`RunResult`), with the message
    `Interface::from_regs` reads from its registers after an SMC. -/
inductive SecureReturn where
  | smc (msg : Except DecodeError Interface)
  | interrupt
  | sysregTrap

end Ffa

namespace Spmd

open Rust Ffa

/-- `SpmcState`. -/
inductive SpmcState where
  | off
  | boot
  | runtime
  | secureInterrupt
  | psciEventHandling
  deriving DecidableEq, Repr

end Spmd

open Rust Ffa Spmd

/-- `Spmd` as the modelled core sees it: the SPMC's attributes, the secondary entry point it
    registered, and the core's own `SpmdLocal`. -/
structure Spmd where
  spmcId : UInt16
  spmcVersion : Version
  spmcPrimaryEp : Nat
  spmcSecondaryEp : Nat
  spmcState : SpmcState
  deriving DecidableEq, Repr

/-- What a handler of a call from the Secure World leaves: whether the message is written back
    to the registers, the world to run next, the message as the handler rewrote it, and the
    SPMD. -/
structure Handled where
  hasMsg : Bool
  nextWorld : World
  msg : Interface
  spmd : Spmd

namespace Spmd

/-- `Spmd::OWN_ID`. -/
def ownId : UInt16 := 0xffff

/-- `Spmd::VERSION`. -/
def version : Version := ⟨1, 3⟩

/-- `Spmd::NS_EP_ID`. -/
def nsEpId : UInt16 := 0

/-- `Spmd::is_secure_id`. -/
def isSecureId (id : UInt16) : Bool := id &&& 0x8000 != 0

/-- The panic of a bare `panic!()`. -/
def explicitPanic : Panic := .explicit "explicit panic"

/-- The aborts that only an unexpected SPMC state or world can cause: every assert of the SPMD
    and of the run loop, and the bare `panic!()` of `handle_secure_smc` in state `Off`. The
    other aborts of the model are failures of the Secure World or of the platform. -/
def StateCheck : Panic → Prop
  | .assertFailed _ => True
  | p => p = explicitPanic

instance : DecidablePred StateCheck := fun p =>
  match p with
  | .assertFailed _ => isTrue trivial
  | .explicit m => inferInstanceAs (Decidable (Panic.explicit m = explicitPanic))
  | .indexOutOfBounds => inferInstanceAs (Decidable (Panic.indexOutOfBounds = explicitPanic))
  | .unwrapFailed => inferInstanceAs (Decidable (Panic.unwrapFailed = explicitPanic))

/-- `switch_spmc_local_state`: move the core's SPMC state from `expectedState` to `newState`,
    asserting that it was `expectedState`. -/
def switchSpmcLocalState (expectedState newState : SpmcState) (spmd : Spmd) : Except Panic Spmd :=
  if spmd.spmcState = expectedState then pure { spmd with spmcState := newState }
  else throw (.assertFailed "Unexpected starting state while attempting transition")

/-- The SPMD that `Spmd::new` builds, before it moves the core to `Boot`; a core other than the
    primary one keeps it until its first warm boot. The attributes are the constants the source
    sets in place of reading the SPMC manifest. -/
def initial : Spmd :=
  { spmcId := 0x8000, spmcVersion := ⟨1, 3⟩, spmcPrimaryEp := 0x0600_0000,
    spmcSecondaryEp := 0x0600_0000, spmcState := .off }

/-- `Spmd::new`, run once on the primary core at cold boot. `Version::is_compatible_to` of the
    `arm_ffa` crate, which its assert calls, is the parameter `isCompatibleTo`. -/
def new (isCompatibleTo : Version → Version → Bool) : Except Panic Spmd := do
  if !isCompatibleTo initial.spmcVersion version then
    throw (.assertFailed "spmc_version.is_compatible_to(Self::VERSION)")
  switchSpmcLocalState .off .boot initial

/-- `get_smc_regs`: the number of registers of an FF-A call, by its call type. -/
def getSmcRegs (functionId : FunctionId) : Except Panic Nat :=
  match functionId.callType with
  | .fast32 => pure 8
  | .fast64 => pure 18
  | .yielding => throw (.explicit "Yielding calls cannot be FF-A calls")

/-- `handle_secure_call_common`: the answers common to every SPMC state. -/
def handleSecureCallCommon (spmd : Spmd) (msg : Interface) : Handled :=
  let msg : Interface := match msg with
    | .features => .success .noArgs
    | .idGet => .success (.idGet spmd.spmcId)
    | .spmIdGet => .success (.spmIdGet ownId)
    | _ => .error .notSupported
  ⟨true, .secure, msg, spmd⟩

/-- `handle_secure_call_boot`: a call of the SPMC while it boots. `FFA_MSG_WAIT` ends the boot
    and hands the core to the Normal World; an `FFA_ERROR` aborts. -/
def handleSecureCallBoot (spmd : Spmd) (msg : Interface) : Except Panic Handled :=
  match msg with
  | .error _ => throw (.explicit "SPMC init failed with error")
  | .version _ queryType =>
    let v := match queryType with
      | .negotiate | .queryNegotiated => spmd.spmcVersion
      | .queryCompatibility => version
    pure ⟨true, .secure, .versionOut (.version v), spmd⟩
  | .msgWait => do
    let spmd ← switchSpmcLocalState .boot .runtime spmd
    pure ⟨false, .nonSecure, msg, spmd⟩
  | .secondaryEpRegister entrypoint =>
    let secondaryEp := match entrypoint with
      | .addr32 addr => addr.toNat
      | .addr64 addr => addr.toNat
    pure ⟨true, .secure, .success .noArgs, { spmd with spmcSecondaryEp := secondaryEp }⟩
  | .features | .idGet | .spmIdGet | .partitionInfoGetRegs => pure (handleSecureCallCommon spmd msg)
  | _ => pure ⟨true, .secure, .error .denied, spmd⟩

/-- `handle_secure_call_runtime`: a call of the SPMC at runtime; answers to the Normal World are
    forwarded there, after the checks of their endpoint IDs. -/
def handleSecureCallRuntime (spmd : Spmd) (msg : Interface) : Handled :=
  match msg with
  | .normalWorldResume => ⟨true, .secure, .error .denied, spmd⟩
  | .msgSendDirectResp srcId dstId args =>
    if !isSecureId srcId || (isSecureId dstId && dstId != ownId) then
      ⟨true, .secure, .error .invalidParameters, spmd⟩
    else if dstId = ownId then
      match args with
      | .versionResp v =>
        if srcId = spmd.spmcId then
          let out := match v with
            | none => VersionOut.notSupported
            | some v => .version v
          ⟨true, .nonSecure, .versionOut out, spmd⟩
        else ⟨true, .secure, .error .invalidParameters, spmd⟩
      | _ => ⟨true, .secure, .error .invalidParameters, spmd⟩
    else ⟨true, .nonSecure, msg, spmd⟩
  | .msgSendDirectResp2 srcId dstId =>
    if !isSecureId srcId || isSecureId dstId then ⟨true, .secure, .error .invalidParameters, spmd⟩
    else ⟨true, .nonSecure, msg, spmd⟩
  | .features | .idGet | .spmIdGet | .partitionInfoGetRegs => handleSecureCallCommon spmd msg
  | .error _ | .success _ | .interrupt | .msgWait | .yield | .memRetrieveResp | .memOpPause
  | .memFragRx | .memFragTx => ⟨true, .nonSecure, msg, spmd⟩
  | _ => ⟨true, .secure, .error .notSupported, spmd⟩

/-- `handle_secure_call_interrupt`: while the SPMC handles a secure interrupt, only
    `FFA_NORMAL_WORLD_RESUME` is accepted; it resumes the preempted Normal World untouched. -/
def handleSecureCallInterrupt (spmd : Spmd) (msg : Interface) : Except Panic Handled :=
  match msg with
  | .normalWorldResume => do
    let spmd ← switchSpmcLocalState .secureInterrupt .runtime spmd
    pure ⟨false, .nonSecure, msg, spmd⟩
  | _ => pure ⟨true, .secure, .error .denied, spmd⟩

/-- `handle_secure_call_psci_event`: while the SPMC handles a power event, only its direct
    response to the SPMD with a PSCI status is accepted. -/
def handleSecureCallPsciEvent (spmd : Spmd) (msg : Interface) : Except Panic Handled :=
  match msg with
  | .msgSendDirectResp srcId dstId (.powerPsciResp _) =>
    if dstId = ownId ∧ srcId = spmd.spmcId then do
      let spmd ← switchSpmcLocalState .psciEventHandling .runtime spmd
      pure ⟨false, .nonSecure, msg, spmd⟩
    else pure ⟨true, .secure, .error .denied, spmd⟩
  | _ => pure ⟨true, .secure, .error .denied, spmd⟩

/-- `handle_non_secure_call`: a call of the Normal World, answered by the SPMD or forwarded to
    the SPMC; the message as rewritten, and the world to run next. -/
def handleNonSecureCall (spmd : Spmd) (msg : Interface) : Interface × World :=
  match msg with
  | .version inputVersion queryType =>
    (.msgSendDirectReq ownId spmd.spmcId (.versionReq inputVersion queryType), .secure)
  | .idGet => (.success (.idGet nsEpId), .nonSecure)
  | .spmIdGet => (.success (.spmIdGet spmd.spmcId), .nonSecure)
  | .msgSendDirectReq srcId dstId _ | .msgSendDirectReq2 srcId dstId =>
    if isSecureId srcId || !isSecureId dstId then (.error .invalidParameters, .nonSecure)
    else (msg, .secure)
  | .msgSend2 srcId =>
    if isSecureId srcId then (.error .invalidParameters, .nonSecure) else (msg, .secure)
  | .error _ | .success _ | .features | .rxAcquire | .rxRelease | .rxTxMap | .rxTxUnmap
  | .partitionInfoGet | .partitionInfoGetRegs | .run | .notificationBitmapCreate
  | .notificationBitmapDestroy | .notificationBind | .notificationUnbind | .notificationSet
  | .notificationGet | .notificationInfoGet | .memDonate | .memLend | .memShare
  | .memRetrieveReq | .memReclaim | .memOpResume | .memFragRx | .memFragTx => (msg, .secure)
  | _ => (.error .notSupported, .nonSecure)

/-- `<Spmd as Service>::handle_non_secure_smc`: the message written back and the world to run
    next. A call that decodes is handled only in state `Runtime`, which is asserted. -/
def handleNonSecureSmc (spmd : Spmd) (functionId : FunctionId)
    (msg : Except DecodeError Interface) : Except Panic (Interface × World) := do
  let _ ← getSmcRegs functionId
  match msg with
  | .ok msg =>
    if spmd.spmcState ≠ .runtime then
      throw (.assertFailed "assert_eq!(spmc_state, SpmcState::Runtime)")
    pure (handleNonSecureCall spmd msg)
  | .error e =>
    let response : Interface := if e.versionCall then .versionOut .notSupported else .error e.code
    pure (response, .nonSecure)

/-- The `match spmc_state` of `handle_secure_smc`: the handler of the SPMC state; there is none
    for `Off`. -/
def handleSecureCall (spmd : Spmd) (msg : Interface) : Except Panic Handled :=
  match spmd.spmcState with
  | .off => throw explicitPanic
  | .boot => handleSecureCallBoot spmd msg
  | .runtime => pure (handleSecureCallRuntime spmd msg)
  | .secureInterrupt => handleSecureCallInterrupt spmd msg
  | .psciEventHandling => handleSecureCallPsciEvent spmd msg

/-- `<Spmd as Service>::handle_secure_smc`: the message written back (`none` when the registers
    are marked empty), the world to run next, and the SPMD. -/
def handleSecureSmc (spmd : Spmd) (functionId : FunctionId)
    (msg : Except DecodeError Interface) : Except Panic (Option Interface × World × Spmd) := do
  let _ ← getSmcRegs functionId
  match msg with
  | .ok msg =>
    let h ← handleSecureCall spmd msg
    pure (if h.hasMsg then some h.msg else none, h.nextWorld, h.spmd)
  | .error e => pure (some (.error e.code), .secure, spmd)

/-- `forward_secure_interrupt`: a secure interrupt taken in the Normal World is passed to the
    SPMC as `FFA_INTERRUPT`. -/
def forwardSecureInterrupt (spmd : Spmd) : Except Panic (Interface × World × Spmd) := do
  let spmd ← switchSpmcLocalState .runtime .secureInterrupt spmd
  pure (.interrupt, .secure, spmd)

/-- `handle_wake_from_cpu_off`: the core was turned on for the first time or after `CPU_OFF`. -/
def handleWakeFromCpuOff (spmd : Spmd) : Except Panic Spmd :=
  switchSpmcLocalState .off .boot spmd

/-- `handle_wake_from_cpu_suspend`: the core woke from a power-down suspend; the SPMC is told by
    a warm boot request. -/
def handleWakeFromCpuSuspend (spmd : Spmd) : Except Panic (Interface × Spmd) := do
  let spmd ← switchSpmcLocalState .runtime .psciEventHandling spmd
  pure (.msgSendDirectReq ownId spmd.spmcId (.powerWarmBootReq .exitFromLowPower), spmd)

/-- The request `forward_psci_request` sends to the SPMC. -/
def psciRequest (spmd : Spmd) (function : PsciFunction) : Interface :=
  .msgSendDirectReq ownId spmd.spmcId (.powerPsciReq64 function)

/-- The loop of `forward_psci_request` and of `notify_cpu_suspend_powerdown_abandoned` that
    waits for the SPMC's answer to a power request: a direct response from the SPMC to the SPMD
    with a PSCI status. Anything else aborts, with the caller's messages. -/
def awaitPsciResp (unexpectedSmc unexpectedInterrupt : String) (spmd : Spmd) :
    SecureReturn → Except Panic Int
  | .smc (.ok (.msgSendDirectResp srcId dstId (.powerPsciResp psciStatus))) =>
    if dstId = ownId ∧ srcId = spmd.spmcId then pure psciStatus
    else throw (.explicit unexpectedSmc)
  | .smc _ => throw (.explicit unexpectedSmc)
  | .interrupt => throw (.explicit unexpectedInterrupt)
  | .sysregTrap => throw (.explicit "not yet implemented: Handle SysregTrap")

/-- `forward_psci_request`: the PSCI status the SPMC answers to the request (sent as
    `psciRequest`), given how the Secure World came back. The SPMC state is not consulted. -/
def forwardPsciRequest (spmd : Spmd) (_function : PsciFunction) (reply : SecureReturn) :
    Except Panic Int :=
  awaitPsciResp "Unexpected SMC return from forwarding a PSCI request"
    "Unexpected SMC return from forwarding a PSCI request - Interrupts shouldn't be routed to EL3 from SWd"
    spmd reply

/-- `notify_cpu_off`. -/
def notifyCpuOff (spmd : Spmd) : Except Panic Spmd :=
  switchSpmcLocalState .runtime .off spmd

/-- `notify_cpu_suspend_powerdown_abandoned`: the SPMC is sent the warm boot request and, once
    it answers, is back at `Runtime`. -/
def notifyCpuSuspendPowerdownAbandoned (spmd : Spmd) (reply : SecureReturn) :
    Except Panic Spmd := do
  let (_, spmd) ← handleWakeFromCpuSuspend spmd
  let _ ← awaitPsciResp "Unexpected SMC return from PowerWarmBootReq"
    "Unexpected SMC return from PowerWarmBootReq- Interrupts shouldn't be routed to EL3 from SWd"
    spmd reply
  switchSpmcLocalState .psciEventHandling .runtime spmd

/-! ### Contracts of the handlers -/

/-- The world and SPMC state a call from the Secure World may lead to, from state `s`: the
    Normal World with the SPMC at `Runtime`, or the Secure World with the state unchanged. -/
def SecureExit (s : SpmcState) (w : World) (s' : SpmcState) : Prop :=
  (w = .nonSecure ∧ s' = .runtime) ∨ (w = .secure ∧ s' = s)

section Contracts

variable {spmd : Spmd} {msg : Interface}

@[simp] theorem switchSpmcLocalState_of_eq {expectedState : SpmcState} (newState : SpmcState)
    (h : spmd.spmcState = expectedState) :
    switchSpmcLocalState expectedState newState spmd = .ok { spmd with spmcState := newState } := by
  simp [switchSpmcLocalState, h]

/-- The SPMC's version is `Spmd::VERSION`, so a compatibility test that accepts a version with
    itself lets `Spmd::new` through. -/
theorem new_eq {isCompatibleTo : Version → Version → Bool}
    (hcompat : ∀ v, isCompatibleTo v v = true) :
    new isCompatibleTo = .ok { initial with spmcState := .boot } := by
  simp [new, hcompat, initial, version]

theorem getSmcRegs_of_ne {functionId : FunctionId} (h : functionId.callType ≠ .yielding) :
    getSmcRegs functionId = .ok (if functionId.callType = .fast64 then 18 else 8) := by
  unfold getSmcRegs
  split <;> simp_all

/-- In `Boot`, the SPMC either stays in the Secure World or, by `FFA_MSG_WAIT`, reaches
    `Runtime` and hands the core to the Normal World. -/
theorem handleSecureCallBoot_post (hs : spmd.spmcState = .boot) :
    (handleSecureCallBoot spmd msg).Post (¬ StateCheck ·)
      (fun h => SecureExit .boot h.nextWorld h.spmd.spmcState) := by
  unfold handleSecureCallBoot handleSecureCallCommon
  split <;> simp [SecureExit, hs, StateCheck, explicitPanic]

-- The handlers of messages match on every FF-A interface; their equation lemmas are too large
-- to build, so the proofs below unfold them once and split on the message.
theorem handleSecureCallRuntime_spmd (spmd : Spmd) (msg : Interface) :
    (handleSecureCallRuntime spmd msg).spmd = spmd := by
  unfold handleSecureCallRuntime handleSecureCallCommon
  cases msg <;> dsimp only <;> (try split_ifs) <;> (try split) <;> rfl

theorem handleSecureCallRuntime_world (spmd : Spmd) (msg : Interface) :
    (handleSecureCallRuntime spmd msg).nextWorld = .nonSecure ∨
      (handleSecureCallRuntime spmd msg).nextWorld = .secure := by
  unfold handleSecureCallRuntime handleSecureCallCommon
  cases msg <;> dsimp only <;> (try split_ifs) <;> (try split) <;> simp

/-- At runtime the SPMC's call is answered in the Secure World or forwarded to the Normal World,
    and the state stays `Runtime`. -/
theorem handleSecureCallRuntime_exit (hs : spmd.spmcState = .runtime) :
    SecureExit .runtime (handleSecureCallRuntime spmd msg).nextWorld
      (handleSecureCallRuntime spmd msg).spmd.spmcState := by
  rw [handleSecureCallRuntime_spmd, hs]
  rcases handleSecureCallRuntime_world spmd msg with h | h
  · exact .inl ⟨h, rfl⟩
  · exact .inr ⟨h, rfl⟩

theorem handleSecureCallInterrupt_post (hs : spmd.spmcState = .secureInterrupt) :
    (handleSecureCallInterrupt spmd msg).Post (¬ StateCheck ·)
      (fun h => SecureExit .secureInterrupt h.nextWorld h.spmd.spmcState) := by
  unfold handleSecureCallInterrupt
  split <;> simp [SecureExit, hs]

theorem handleSecureCallPsciEvent_post (hs : spmd.spmcState = .psciEventHandling) :
    (handleSecureCallPsciEvent spmd msg).Post (¬ StateCheck ·)
      (fun h => SecureExit .psciEventHandling h.nextWorld h.spmd.spmcState) := by
  unfold handleSecureCallPsciEvent
  split
  · split_ifs <;> simp [SecureExit, hs]
  · simp [SecureExit, hs]

/-- A call from the Secure World in any state but `Off` is handled by the handler of its state,
    which keeps the SPMC state or hands the core to the Normal World at `Runtime`. -/
theorem handleSecureCall_post (hs : spmd.spmcState ≠ .off) :
    (handleSecureCall spmd msg).Post (¬ StateCheck ·)
      (fun h => SecureExit spmd.spmcState h.nextWorld h.spmd.spmcState) := by
  unfold handleSecureCall
  split
  · -- case: `Off`
    contradiction
  all_goals rename_i hstate
  · exact hstate ▸ handleSecureCallBoot_post hstate
  · exact hstate ▸ handleSecureCallRuntime_exit hstate
  · exact hstate ▸ handleSecureCallInterrupt_post hstate
  · exact hstate ▸ handleSecureCallPsciEvent_post hstate

theorem handleSecureSmc_post {functionId : FunctionId} {msg : Except DecodeError Interface}
    (hf : functionId.callType ≠ .yielding) (hs : spmd.spmcState ≠ .off) :
    (handleSecureSmc spmd functionId msg).Post (¬ StateCheck ·)
      (fun r => SecureExit spmd.spmcState r.2.1 r.2.2.spmcState) := by
  unfold handleSecureSmc
  rw [getSmcRegs_of_ne hf, ok_bind]
  rcases msg with e | msg
  · -- case: the registers do not decode; the SPMC is answered with an error
    exact .inr ⟨rfl, rfl⟩
  · apply Except.Post.bind
    exact (handleSecureCall_post hs).mono (fun _ h => h) (fun _ h => h)

theorem handleNonSecureCall_world (spmd : Spmd) (msg : Interface) :
    (handleNonSecureCall spmd msg).2 = .nonSecure ∨ (handleNonSecureCall spmd msg).2 = .secure := by
  unfold handleNonSecureCall
  cases msg <;> dsimp only <;> (try split_ifs) <;> simp

/-- A call from the Normal World at `Runtime` goes on in the Normal or the Secure World and
    leaves the SPMD as it was. -/
theorem handleNonSecureSmc_post {functionId : FunctionId} {msg : Except DecodeError Interface}
    (hf : functionId.callType ≠ .yielding) (hs : spmd.spmcState = .runtime) :
    (handleNonSecureSmc spmd functionId msg).Post (¬ StateCheck ·)
      (fun r => r.2 = .nonSecure ∨ r.2 = .secure) := by
  unfold handleNonSecureSmc
  rw [getSmcRegs_of_ne hf, ok_bind]
  rcases msg with e | msg
  · exact .inl rfl
  · simpa [hs] using handleNonSecureCall_world spmd msg

theorem forwardSecureInterrupt_of_runtime (hs : spmd.spmcState = .runtime) :
    forwardSecureInterrupt spmd =
      .ok (.interrupt, .secure, { spmd with spmcState := .secureInterrupt }) := by
  simp [forwardSecureInterrupt, hs]

theorem handleWakeFromCpuOff_of_off (hs : spmd.spmcState = .off) :
    handleWakeFromCpuOff spmd = .ok { spmd with spmcState := .boot } := by
  simp [handleWakeFromCpuOff, hs]

theorem handleWakeFromCpuSuspend_of_runtime (hs : spmd.spmcState = .runtime) :
    handleWakeFromCpuSuspend spmd =
      .ok (.msgSendDirectReq ownId spmd.spmcId (.powerWarmBootReq .exitFromLowPower),
        { spmd with spmcState := .psciEventHandling }) := by
  simp [handleWakeFromCpuSuspend, hs]

theorem notifyCpuOff_of_runtime (hs : spmd.spmcState = .runtime) :
    notifyCpuOff spmd = .ok { spmd with spmcState := .off } := by
  simp [notifyCpuOff, hs]

/-- Waiting for the SPMC's answer aborts only with the caller's messages or on a trapped system
    register access, none of them a state check. -/
theorem awaitPsciResp_post {unexpectedSmc unexpectedInterrupt : String}
    (hsmc : unexpectedSmc ≠ "explicit panic") (hint : unexpectedInterrupt ≠ "explicit panic")
    (reply : SecureReturn) :
    (awaitPsciResp unexpectedSmc unexpectedInterrupt spmd reply).Post (¬ StateCheck ·)
      (fun _ => True) := by
  unfold awaitPsciResp
  split <;> (try split_ifs) <;> simp_all [StateCheck, explicitPanic]

theorem forwardPsciRequest_post (function : PsciFunction) (reply : SecureReturn) :
    (forwardPsciRequest spmd function reply).Post (¬ StateCheck ·) (fun _ => True) :=
  awaitPsciResp_post (by decide) (by decide) reply

/-- An abandoned power-down suspend takes the SPMC from `Runtime` through `PsciEventHandling`
    back to `Runtime`. -/
theorem notifyCpuSuspendPowerdownAbandoned_post (hs : spmd.spmcState = .runtime)
    (reply : SecureReturn) :
    (notifyCpuSuspendPowerdownAbandoned spmd reply).Post (¬ StateCheck ·)
      (fun spmd' => spmd'.spmcState = .runtime) := by
  unfold notifyCpuSuspendPowerdownAbandoned
  rw [handleWakeFromCpuSuspend_of_runtime hs, ok_bind]
  apply Except.Post.bind
  refine (awaitPsciResp_post (by decide) (by decide) reply).mono (fun _ h => h) ?_
  intro _ _
  simp

end Contracts

end Spmd

end RustedFirmware
