import RustedFirmware.Psci.Sections
import RustedFirmware.Psci.Fvp

set_option autoImplicit false

/-! What the PSCI service keeps over every run.

    Two invariants hold in every state the system reaches from `Psci::new`, whatever the cores
    do and in whatever order their sections run. The first: a core that runs in the normal world,
    or has only read the suspend mode, has its CPU node in `RUN`, and the suspend mode is
    OS-initiated only on a platform that offers the mode. The second: the affinity and the entry
    point of each CPU node are those of the core's phase, and a core suspended in a power-down
    state has its node in a power-down state.

    Each section's contract is read off its inversion lemma in `Sections`. From the invariants:
    `is_in_osi_mode` reads the stored mode alone; `is_last_cpu`, called by a core in the normal
    world, never panics and answers whether every other core is off; and the boot of a core that
    was turned on or woken from a power down never panics and leaves at the entry point it was
    given. -/

namespace RustedFirmware.Psci

open Rust PlatformPowerState

/-! ### Power-down requests -/

namespace CompositePowerState

variable {σ : Type} [LinearOrder σ] [PlatformPowerState σ]

omit [PlatformPowerState σ] in
/-- In a list sorted by `is_sorted_by(|a, b| a >= b)`, no state is deeper than the first. -/
theorem le_of_isSortedDesc : ∀ {a : σ} {rest : List σ}, isSortedDesc (a :: rest) = true →
    ∀ x ∈ rest, x ≤ a
  | _, [], _, _, hx => absurd hx List.not_mem_nil
  | _, _ :: _, hs, x, hx => by
    simp only [isSortedDesc, Bool.and_eq_true, decide_eq_true_eq] at hs
    rcases List.mem_cons.mp hx with rfl | hx
    · exact hs.1
    · exact (le_of_isSortedDesc hs.2 x hx).trans hs.1

/-- A valid power-down request is a power down at the CPU level: its states get no deeper going
    up, and a state at least as deep as a power-down state is one. -/
theorem cpuLevelState_powerDown [LawfulPowerState σ] {c : CompositePowerState σ}
    {maxPowerLevel : Nat} (h : c.isValidSuspendRequest maxPowerLevel true = true) :
    powerStateType c.cpuLevelState = .powerDown := by
  unfold isValidSuspendRequest at h
  rw [if_pos (rfl : true = true)] at h
  split_ifs at h with _ hsorted
  obtain ⟨k, hk⟩ := Option.isSome_iff_exists.mp h
  simp only [Bool.not_eq_true', Bool.not_eq_false] at hsorted
  unfold cpuLevelState
  unfold findHighestPowerDownLevel at hk
  cases hstates : c.states with
  | nil => simp [hstates, rposition] at hk
  | cons a rest =>
    rw [hstates] at hk hsorted
    obtain ⟨hlt, hpd, -⟩ := rposition_eq_some hk
    have hle : (a :: rest).get ⟨k, hlt⟩ ≤ a := by
      rcases List.mem_cons.mp (List.get_mem (a :: rest) ⟨k, hlt⟩) with h | h
      · exact h.le
      · exact le_of_isSortedDesc hsorted _ h
    exact LawfulPowerState.powerDown_of_le _ _ hle (by simpa using hpd)

end CompositePowerState

/-! ### The phases -/

/-- The core runs in the normal world, is in a suspend and has only read the suspend mode, or is
    in `set_suspend_mode`. -/
def Phase.Awake {σ ε : Type} : Phase σ ε → Prop
  | .executing | .suspending .. | .suspendModeDiffers _ | .suspendModeAllowed _ => True
  | _ => False

/-- The core is in `set_suspend_mode`, past its comparison of the mode. -/
def Phase.SettingMode {σ ε : Type} : Phase σ ε → Prop
  | .suspendModeDiffers _ | .suspendModeAllowed _ => True
  | _ => False

/-- Every section but the wake-ups runs on a core that is awake. -/
theorem Phase.awake_of_enabled {σ ε : Type} {ph : Phase σ ε} {a : Action σ ε}
    (hen : enabled ph a = true) (hwake : a ≠ .standbyWake ∧ a ≠ .wake ∧ a ≠ .boot) : ph.Awake := by
  cases ph <;> cases a <;> simp_all [enabled, Phase.Awake]

/-- The calls start on a core that executes. -/
theorem Phase.eq_executing_of_enabled {σ ε : Type} {ph : Phase σ ε} {a : Action σ ε}
    (hen : enabled ph a = true)
    (hcall : a ≠ .standbyWake ∧ a ≠ .wake ∧ a ≠ .boot ∧ (∀ b v, a ≠ .coordinate b v) ∧
      a ≠ .setSuspendModeCheck ∧ a ≠ .setSuspendModeWrite) :
    ph = .executing := by
  cases ph <;> cases a <;> simp_all [enabled]

/-- What the CPU node of a core holds in each phase: a core that is off is off and holds no entry
    point; a pending core holds the entry point of its `CPU_ON`; a core that is on holds none,
    except the entry point of a power-down suspend it has not woken from, and its node is then in
    a power-down state. A core in a suspend has made a request that is a power down at the CPU
    level if it is a power down. -/
def Phase.Holds {σ ε : Type} [PlatformPowerState σ] : Phase σ ε → CpuPowerNode σ ε → Prop
  | .off, node => node.affinityInfo = .off ∧ node.entryPoint = none
  | .onPending entry, node => node.affinityInfo = .onPending ∧ node.entryPoint = some entry
  | .executing, node | .standby, node | .suspendModeDiffers _, node | .suspendModeAllowed _, node =>
    node.affinityInfo = .on ∧ node.entryPoint = none
  | .suspending _ _ composite _ isPowerDownState, node =>
    node.affinityInfo = .on ∧ node.entryPoint = none ∧
      (isPowerDownState = true → powerStateType composite.cpuLevelState = .powerDown)
  | .suspended entry isPowerDownState, node =>
    node.affinityInfo = .on ∧ node.entryPoint = (if isPowerDownState then some entry else none) ∧
      (isPowerDownState = true → powerStateType node.localState = .powerDown)

/-- A core's node is off exactly when the core is. -/
theorem Phase.Holds.affinityInfo_eq_off_iff {σ ε : Type} [PlatformPowerState σ] {ph : Phase σ ε}
    {node : CpuPowerNode σ ε} (h : ph.Holds node) : node.affinityInfo = .off ↔ ph = .off := by
  cases ph <;> simp only [Phase.Holds] at h <;> simp [h.1]

/-! ### The contracts of the sections -/

namespace PsciState

variable {σ ε : Type} [LinearOrder σ] [PlatformPowerState σ] {T : Topology} {P : PsciPlatform σ ε}

/-- What a section of core `cpu` from `s` may leave as `r`: the suspend mode changes, and a core
    goes on in `set_suspend_mode`, only on a platform with OS-initiated mode, no other core's CPU
    node changes its local state, and a core that stays awake has its own CPU node in `RUN`. -/
structure Keeps (P : PsciPlatform σ ε) (cpu : Nat) (s : PsciState σ ε)
    (r : PsciState σ ε × Outcome σ ε) : Prop where
  suspendMode : r.1.suspendMode = s.suspendMode ∨ P.osInitiatedMode = true
  settingMode : r.2.next.SettingMode → P.osInitiatedMode = true
  localState_of_ne : ∀ d, d ≠ cpu → (r.1.powerDomainTree.cpuPowerNodes d).localState =
    (s.powerDomainTree.cpuPowerNodes d).localState
  localState_self : r.2.next.Awake → (r.1.powerDomainTree.cpuPowerNodes cpu).localState = run

variable {cpu : Nat} {s : PsciState σ ε} {r : PsciState σ ε × Outcome σ ε}

omit [LinearOrder σ] in
theorem Keeps.of_unchanged {o : Outcome σ ε}
    (hself : o.next.Awake → (s.powerDomainTree.cpuPowerNodes cpu).localState = run)
    (hset : o.next.SettingMode → P.osInitiatedMode = true) : Keeps P cpu s (s, o) :=
  ⟨.inl rfl, hset, fun _ _ => rfl, hself⟩

omit [LinearOrder σ] in
theorem Keeps.of_withTree {t : PowerDomainTree σ ε} {o : Outcome σ ε}
    (hother : ∀ d, d ≠ cpu →
      (t.cpuPowerNodes d).localState = (s.powerDomainTree.cpuPowerNodes d).localState)
    (hself : o.next.Awake → (t.cpuPowerNodes cpu).localState = run)
    (hset : o.next.SettingMode → P.osInitiatedMode = true) : Keeps P cpu s (s.withTree t, o) :=
  ⟨.inl rfl, hset, hother, hself⟩

theorem SuspendLeaves.keeps {entry : ε}
    (hrun : (s.powerDomainTree.cpuPowerNodes cpu).localState = run)
    (h : SuspendLeaves T P s cpu entry r) : Keeps P cpu s r := by
  cases h with
  | returned => exact .of_unchanged (fun _ => hrun) (by simp [Outcome.next, Phase.SettingMode])
  | standby =>
    exact .of_withTree (fun d hd => by simp [updateCpu, hd]) (by simp [Outcome.next, Phase.Awake])
      (by simp [Outcome.next, Phase.SettingMode])
  | suspending =>
    exact .of_unchanged (fun _ => hrun) (by simp [Outcome.next, Phase.SettingMode])

/-- The contract of any section a core can run in its phase, from a state where the core's CPU
    node is in `RUN` if the core is awake, and where a core in `set_suspend_mode` runs on a
    platform with OS-initiated mode. -/
theorem runSection_keeps {ph : Phase σ ε} {a : Action σ ε} (hen : enabled ph a = true)
    (hrun : ph.Awake → (s.powerDomainTree.cpuPowerNodes cpu).localState = run)
    (hset : ph.SettingMode → P.osInitiatedMode = true)
    (h : System.runSection T P s ph cpu a = .ok r) : Keeps P cpu s r := by
  -- the outcomes other than those of `set_suspend_mode` leave no core setting the mode
  have hreturned : ∀ result : Except ErrorCode Unit,
      (Outcome.returned result : Outcome σ ε).next.SettingMode → P.osInitiatedMode = true := by
    simp [Outcome.next, Phase.SettingMode]
  cases a with
  | standbyWake =>
    rw [cpuStandbyWake_eq_ok h]
    exact .of_withTree (fun d hd => by simp [updateCpu, hd]) (fun _ => by simp [updateCpu])
      (hreturned _)
  | wake =>
    cases ph with
    | suspended =>
      obtain ⟨t, rfl, ht, -⟩ := cpuSuspendWake_cases h
      exact .of_withTree (fun d hd => by simp [ht, hd]) (fun _ => by simp [ht]) (hreturned _)
    | _ => simp [enabled] at hen
  | boot =>
    obtain ⟨-, t, _, -, rfl, ht, -⟩ := handleCpuBoot_cases h
    exact .of_withTree (fun d hd => by simp [ht, hd]) (fun _ => by simp [ht])
      (by simp [Outcome.next, Phase.SettingMode])
  | coordinate =>
    have hawake := hrun (Phase.awake_of_enabled hen (by simp))
    cases ph with
    | suspending =>
      rcases cpuSuspendCoordinate_cases h with ⟨_, rfl⟩ | ⟨t, rfl, -, ht, -⟩
      · exact .of_unchanged (fun _ => hawake) (hreturned _)
      · exact .of_withTree (fun d hd => by simp [ht, hd]) (by simp [Outcome.next, Phase.Awake])
          (by simp [Outcome.next, Phase.SettingMode])
    | _ => simp [enabled] at hen
  | cpuSuspend =>
    exact (cpuSuspend_leaves h).keeps (hrun (Phase.awake_of_enabled hen (by simp)))
  | cpuDefaultSuspend =>
    exact (cpuDefaultSuspend_leaves h).keeps
      (hrun (Phase.awake_of_enabled hen (by simp)))
  | systemSuspend =>
    exact (systemSuspend_leaves h).keeps (hrun (Phase.awake_of_enabled hen (by simp)))
  | cpuOff =>
    have hawake := hrun (Phase.awake_of_enabled hen (by simp))
    rcases cpuOff_cases h with ⟨_, rfl⟩ | ⟨t, rfl, ht, -⟩
    · exact .of_unchanged (fun _ => hawake) (hreturned _)
    · exact .of_withTree (fun d hd => by simp [ht, hd]) (by simp [Outcome.next, Phase.Awake])
        (by simp [Outcome.next, Phase.SettingMode])
  | cpuOn _ entry =>
    have hawake := hrun (Phase.awake_of_enabled hen (by simp))
    rcases cpuOn_cases h with ⟨_, rfl⟩ | ⟨index, -, -, -, -, rfl⟩
    · exact .of_unchanged (fun _ => hawake) (hreturned _)
    -- the target's node changes its affinity and entry point, never its local state
    · have hlocal : ∀ d, ((s.powerDomainTree.setCpu index { s.powerDomainTree.cpuPowerNodes index with
          affinityInfo := .onPending, entryPoint := some entry }).cpuPowerNodes d).localState =
          (s.powerDomainTree.cpuPowerNodes d).localState := by
        intro d
        by_cases hd : d = index <;> simp [hd]
      exact .of_withTree (fun d _ => hlocal d) (fun _ => (hlocal cpu).trans hawake) (hreturned _)
  | setSuspendMode =>
    have hawake := hrun (Phase.awake_of_enabled hen (by simp))
    rcases setSuspendMode_cases h with ⟨_, rfl⟩ | ⟨hosi, rfl⟩
    · exact .of_unchanged (fun _ => hawake) (hreturned _)
    · exact .of_unchanged (fun _ => hawake) fun _ => hosi
  | setSuspendModeCheck =>
    cases ph with
    | suspendModeDiffers mode =>
      rcases setSuspendModeCheck_cases h with rfl | rfl
      · exact .of_unchanged (fun _ => hrun trivial) (hreturned _)
      · exact .of_unchanged (fun _ => hrun trivial) fun _ => hset trivial
    | _ => simp [enabled] at hen
  -- the write itself checks no feature: the core came here through the comparison
  | setSuspendModeWrite =>
    cases ph with
    | suspendModeAllowed mode =>
      rw [setSuspendModeWrite_eq_ok h]
      exact ⟨.inr (hset trivial), hreturned _, fun _ _ => rfl, fun _ => hrun trivial⟩
    | _ => simp [enabled] at hen

/-- What a section of core `cpu` from `s` does to the CPU nodes of the phases, when it is not a
    `CPU_ON` that succeeds: the caller's node holds what its next phase needs, and every other
    node is as it was. -/
structure Tracks (cpu : Nat) (s : PsciState σ ε) (r : PsciState σ ε × Outcome σ ε) : Prop where
  holds : r.2.next.Holds (r.1.powerDomainTree.cpuPowerNodes cpu)
  other : ∀ d, d ≠ cpu → r.1.powerDomainTree.cpuPowerNodes d = s.powerDomainTree.cpuPowerNodes d

omit [LinearOrder σ] in
theorem Tracks.of_unchanged {o : Outcome σ ε}
    (hholds : o.next.Holds (s.powerDomainTree.cpuPowerNodes cpu)) : Tracks cpu s (s, o) :=
  ⟨hholds, fun _ _ => rfl⟩

omit [LinearOrder σ] in
/-- A section that rewrites the caller's CPU node alone. -/
theorem Tracks.of_update {t : PowerDomainTree σ ε} {o : Outcome σ ε} (node : CpuPowerNode σ ε)
    (ht : t.cpuPowerNodes = Function.update s.powerDomainTree.cpuPowerNodes cpu node)
    (hholds : o.next.Holds node) : Tracks cpu s (s.withTree t, o) :=
  ⟨by simpa [withTree, ht] using hholds, fun d hd => by simp [withTree, ht, hd]⟩

theorem SuspendLeaves.tracks [LawfulPowerState σ] {entry : ε}
    (hholds : (Phase.executing : Phase σ ε).Holds (s.powerDomainTree.cpuPowerNodes cpu))
    (h : SuspendLeaves T P s cpu entry r) : Tracks cpu s r := by
  cases h with
  | returned => exact .of_unchanged hholds
  | standby composite =>
    exact .of_update { s.powerDomainTree.cpuPowerNodes cpu with
      localState := composite.cpuLevelState } (by simp [updateCpu]) hholds
  | suspending _ _ _ _ hvalid _ _ =>
    refine .of_unchanged ⟨hholds.1, hholds.2, fun hpd => ?_⟩
    subst hpd
    exact CompositePowerState.cpuLevelState_powerDown hvalid

/-- The contract of any section a core can run in its phase, from a state where the core's CPU
    node holds what its phase needs: a `CPU_ON` that succeeds makes a CPU that is off, and so not
    the caller, pending with the entry point; every other section is tracked. -/
theorem runSection_tracks [LawfulPowerState σ] {ph : Phase σ ε} {a : Action σ ε}
    (hen : enabled ph a = true) (hholds : ph.Holds (s.powerDomainTree.cpuPowerNodes cpu))
    (h : System.runSection T P s ph cpu a = .ok r) :
    Tracks cpu s r ∧ (∀ target entry powerDomainOn,
        a = .cpuOn (some target) entry powerDomainOn → r.2 ≠ .returned (.ok ())) ∨
      ∃ target entry powerDomainOn, a = .cpuOn (some target) entry powerDomainOn ∧
        ph = .executing ∧ target ≠ cpu ∧ r.2 = .returned (.ok ()) ∧
        r.1.powerDomainTree.cpuPowerNodes = Function.update s.powerDomainTree.cpuPowerNodes target
          { s.powerDomainTree.cpuPowerNodes target with
            affinityInfo := .onPending, entryPoint := some entry } := by
  cases a with
  | standbyWake =>
    refine .inl ⟨?_, by simp⟩
    cases ph with
    | standby =>
      rw [cpuStandbyWake_eq_ok h]
      exact .of_update { s.powerDomainTree.cpuPowerNodes cpu with localState := run }
        (by simp [updateCpu]) hholds
    | _ => simp [enabled] at hen
  | wake =>
    refine .inl ⟨?_, by simp⟩
    cases ph with
    | suspended entry isPowerDownState =>
      obtain ⟨t, rfl, ht, -⟩ := cpuSuspendWake_cases h
      refine .of_update _ ht ⟨hholds.1, ?_⟩
      -- the entry point of a power down is taken out, and none is held otherwise
      cases isPowerDownState
      · simpa using hholds.2.1
      · simp
    | _ => simp [enabled] at hen
  | boot =>
    refine .inl ⟨?_, by simp⟩
    obtain ⟨-, t, _, -, rfl, ht, -⟩ := handleCpuBoot_cases h
    exact .of_update _ ht ⟨rfl, rfl⟩
  | coordinate =>
    refine .inl ⟨?_, by simp⟩
    cases ph with
    | suspending =>
      rcases cpuSuspendCoordinate_cases h with ⟨_, rfl⟩ | ⟨t, rfl, -, ht, -⟩
      · exact .of_unchanged ⟨hholds.1, hholds.2.1⟩
      · refine .of_update _ ht ⟨hholds.1, ?_, hholds.2.2⟩
        simp [hholds.2.1]
    | _ => simp [enabled] at hen
  | cpuSuspend =>
    obtain rfl := Phase.eq_executing_of_enabled hen (by simp)
    exact .inl ⟨(cpuSuspend_leaves h).tracks hholds, by simp⟩
  | cpuDefaultSuspend =>
    obtain rfl := Phase.eq_executing_of_enabled hen (by simp)
    exact .inl ⟨(cpuDefaultSuspend_leaves h).tracks hholds, by simp⟩
  | systemSuspend =>
    obtain rfl := Phase.eq_executing_of_enabled hen (by simp)
    exact .inl ⟨(systemSuspend_leaves h).tracks hholds, by simp⟩
  | cpuOff =>
    obtain rfl := Phase.eq_executing_of_enabled hen (by simp)
    refine .inl ⟨?_, by simp⟩
    rcases cpuOff_cases h with ⟨_, rfl⟩ | ⟨t, rfl, ht, -⟩
    · exact .of_unchanged hholds
    · exact .of_update _ ht ⟨rfl, hholds.2⟩
  | setSuspendMode =>
    obtain rfl := Phase.eq_executing_of_enabled hen (by simp)
    refine .inl ⟨?_, by simp⟩
    rcases setSuspendMode_cases h with ⟨_, rfl⟩ | ⟨-, rfl⟩
    all_goals exact .of_unchanged hholds
  | setSuspendModeCheck =>
    refine .inl ⟨?_, by simp⟩
    cases ph with
    | suspendModeDiffers mode =>
      rcases setSuspendModeCheck_cases h with rfl | rfl
      all_goals exact .of_unchanged hholds
    | _ => simp [enabled] at hen
  | setSuspendModeWrite =>
    refine .inl ⟨?_, by simp⟩
    cases ph with
    | suspendModeAllowed mode =>
      rw [setSuspendModeWrite_eq_ok h]
      exact ⟨hholds, fun _ _ => rfl⟩
    | _ => simp [enabled] at hen
  | cpuOn target entry =>
    obtain rfl := Phase.eq_executing_of_enabled hen (by simp)
    rcases cpuOn_cases h with ⟨_, rfl⟩ | ⟨index, rfl, rfl, hoff, -, rfl⟩
    · exact .inl ⟨.of_unchanged hholds, fun _ _ _ _ => by simp⟩
    -- the target is off, so it is not the caller, which is on
    · have hne : index ≠ cpu := by
        rintro rfl
        rw [hholds.1] at hoff
        exact AffinityInfo.noConfusion hoff
      exact .inr ⟨index, entry, _, rfl, rfl, hne, rfl, by simp [withTree]⟩

end PsciState

/-! ### The invariants over whole runs -/

namespace System

variable {σ ε : Type} [LinearOrder σ] [PlatformPowerState σ] {T : Topology} {P : PsciPlatform σ ε}

omit [LinearOrder σ] in
/-- `Psci::new` leaves the primary core executing with its node on and running, every other core
    off with a fresh node, in platform-coordinated mode. -/
theorem new_eq_ok {primary : Nat} {sys : System σ ε} (h : System.new T primary = .ok sys) :
    sys.psci.suspendMode = .platformCoordinated ∧
      sys.phase = (fun c => if c = primary then .executing else .off) ∧
      sys.psci.powerDomainTree.cpuPowerNodes = Function.update (fun _ => CpuPowerNode.new) primary
        { (CpuPowerNode.new : CpuPowerNode σ ε) with affinityInfo := .on, localState := run } ∧
      (PowerDomainTree.new : PowerDomainTree σ ε).SetsRunning T primary
        sys.psci.powerDomainTree := by
  obtain ⟨psci, hpsci, h⟩ := bind_eq_ok.mp h
  cases h
  obtain ⟨node, hnode, hpsci⟩ := bind_eq_ok.mp hpsci
  obtain ⟨-, rfl⟩ := PowerDomainTree.lockedCpuNode_eq_ok hnode
  obtain ⟨A, hA, hpsci⟩ := bind_eq_ok.mp hpsci
  obtain ⟨t, ht, hpsci⟩ := bind_eq_ok.mp hpsci
  cases hpsci
  refine ⟨rfl, rfl, by rw [AncestorPowerDomains.setRunning_cpuPowerNodes ht]; rfl,
    A, _, t, hA, ?_, ht, rfl⟩
  rfl

/-- One step: the section the caller ran, and the phases after it. Only the caller moves, to
    the phase of its outcome, except that the target of a `CPU_ON` that succeeds is pending. -/
theorem step_cases {s s' : System σ ε} {l : Label σ ε} {o : Outcome σ ε}
    (h : step T P s l = .ok (s', o)) :
    runSection T P s.psci (s.phase l.cpu) l.cpu l.action = .ok (s'.psci, o) ∧
      ((∃ target entry powerDomainOn, l.action = .cpuOn (some target) entry powerDomainOn ∧
          o = .returned (.ok ()) ∧
          s'.phase = Function.update (Function.update s.phase l.cpu o.next) target
            (.onPending entry)) ∨
        (∀ target entry powerDomainOn, l.action = .cpuOn (some target) entry powerDomainOn →
          o ≠ .returned (.ok ())) ∧ s'.phase = Function.update s.phase l.cpu o.next) := by
  obtain ⟨⟨psci, _⟩, hsec, h⟩ := bind_eq_ok.mp h
  dsimp only at h
  split at h
  next target entry powerDomainOn hact =>
    cases h
    exact ⟨hsec, .inl ⟨target, entry, powerDomainOn, hact, rfl, rfl⟩⟩
  next hnot =>
    cases h
    exact ⟨hsec, .inr ⟨fun target entry powerDomainOn hact ho => hnot target entry powerDomainOn
      hact ho, rfl⟩⟩

/-- After a step, a core whose phase has a property that no pending core has is the caller, with
    the property after its section, or another core that had it before: the target of a
    `CPU_ON` is pending. -/
theorem step_phase {Q : Phase σ ε → Prop} (hQ : ∀ entry, ¬Q (.onPending entry))
    {s s' : System σ ε} {l : Label σ ε} {o : Outcome σ ε} (h : step T P s l = .ok (s', o))
    (c : Nat) (hc : Q (s'.phase c)) :
    c = l.cpu ∧ Q o.next ∨ c ≠ l.cpu ∧ Q (s.phase c) := by
  have hcaller : Q (Function.update s.phase l.cpu o.next c) := by
    rcases (step_cases h).2 with ⟨target, entry, -, -, -, hphase⟩ | ⟨-, hphase⟩
    · rw [hphase] at hc
      by_cases htarget : c = target
      · subst htarget
        rw [Function.update_self] at hc
        exact absurd hc (hQ entry)
      · rwa [Function.update_of_ne htarget] at hc
    · rwa [hphase] at hc
  by_cases hcpu : c = l.cpu
  · subst hcpu
    exact .inl ⟨rfl, by rwa [Function.update_self] at hcaller⟩
  · exact .inr ⟨hcpu, by rwa [Function.update_of_ne hcpu] at hcaller⟩

end System

/-- The first invariant: the suspend mode is OS-initiated, and a core is in `set_suspend_mode`
    past its comparison, only on a platform that offers the mode, and a core that is awake has
    its CPU node in `RUN`. -/
structure System.Sound {σ ε : Type} [PlatformPowerState σ] (P : PsciPlatform σ ε)
    (sys : System σ ε) : Prop where
  osInitiated : sys.psci.suspendMode = .osInitiated → P.osInitiatedMode = true
  settingMode : ∀ c, (sys.phase c).SettingMode → P.osInitiatedMode = true
  localState_run : ∀ c, (sys.phase c).Awake →
    (sys.psci.powerDomainTree.cpuPowerNodes c).localState = run

/-- The second invariant: every CPU node holds what its core's phase needs. -/
def System.Consistent {σ ε : Type} [PlatformPowerState σ] (sys : System σ ε) : Prop :=
  ∀ c, (sys.phase c).Holds (sys.psci.powerDomainTree.cpuPowerNodes c)

namespace System

variable {σ ε : Type} [LinearOrder σ] [PlatformPowerState σ] {T : Topology} {P : PsciPlatform σ ε}

omit [LinearOrder σ] in
theorem Sound.new {primary : Nat} {sys : System σ ε} (h : System.new T primary = .ok sys) :
    Sound P sys := by
  obtain ⟨hmode, hphase, hcpus, -⟩ := new_eq_ok h
  refine ⟨fun hosi => by simp [hmode] at hosi, fun c hc => ?_, fun c hc => ?_⟩
  -- no core is in `set_suspend_mode`
  · by_cases hprimary : c = primary <;> simp [hphase, hprimary, Phase.SettingMode] at hc
  -- only the primary core is awake
  · obtain rfl : c = primary := by
      by_contra hne
      simp [hphase, hne, Phase.Awake] at hc
    simp [hcpus]

/-- Every step keeps the first invariant: the section's contract covers the caller, the other
    cores and the suspend mode. -/
theorem Sound.step {sys sys' : System σ ε} {l : Label σ ε} (hs : Sound P sys)
    (h : Step T P sys l sys') : Sound P sys' := by
  obtain ⟨-, hen, o, hstep⟩ := h
  have hk := PsciState.runSection_keeps hen (hs.localState_run l.cpu) (hs.settingMode l.cpu)
    (step_cases hstep).1
  constructor
  · intro hosi
    rcases hk.suspendMode with hmode | hP
    · exact hs.osInitiated (hmode ▸ hosi)
    · exact hP
  · intro c hc
    rcases step_phase (Q := Phase.SettingMode) (fun _ => by simp [Phase.SettingMode]) hstep c hc
      with ⟨rfl, hnext⟩ | ⟨-, hsetting⟩
    · exact hk.settingMode hnext
    · exact hs.settingMode c hsetting
  · intro c hc
    rcases step_phase (Q := Phase.Awake) (fun _ => by simp [Phase.Awake]) hstep c hc with
      ⟨rfl, hnext⟩ | ⟨hne, hawake⟩
    · exact hk.localState_self hnext
    · rw [hk.localState_of_ne c hne]
      exact hs.localState_run c hawake

theorem Sound.of_reachable {primary : Nat} {sys₀ sys : System σ ε}
    (h₀ : System.new T primary = .ok sys₀) (hr : Transition.Reachable (Step T P) sys₀ sys) :
    Sound P sys :=
  hr.invariant (Sound.new h₀) fun _ _ _ hs h => hs.step h

omit [LinearOrder σ] in
theorem Consistent.new {primary : Nat} {sys : System σ ε} (h : System.new T primary = .ok sys) :
    Consistent sys := by
  obtain ⟨-, hphase, hcpus, -⟩ := new_eq_ok h
  intro c
  by_cases hc : c = primary
  · subst hc
    simp [hphase, hcpus, Phase.Holds, CpuPowerNode.new]
  · simp [hphase, hcpus, hc, Phase.Holds, CpuPowerNode.new]

/-- Every step keeps the second invariant. -/
theorem Consistent.step [LawfulPowerState σ] {sys sys' : System σ ε} {l : Label σ ε}
    (hs : Consistent sys) (h : Step T P sys l sys') : Consistent sys' := by
  obtain ⟨-, hen, o, hstep⟩ := h
  obtain ⟨hsec, hphase⟩ := step_cases hstep
  intro c
  rcases PsciState.runSection_tracks hen (hs l.cpu) hsec with
    ⟨htr, hnot⟩ | ⟨target, entry, powerDomainOn, hact, hexec, hne, ho, hcpus⟩
  -- a section other than a successful CPU_ON moves the caller alone
  · rcases hphase with ⟨target, entry, powerDomainOn, hact, ho, -⟩ | ⟨-, hphase⟩
    · exact absurd ho (hnot target entry powerDomainOn hact)
    · rw [hphase]
      by_cases hc : c = l.cpu
      · subst hc
        simpa using htr.holds
      · rw [Function.update_of_ne hc, htr.other c hc]
        exact hs c
  -- a successful CPU_ON also makes the target pending with the entry point
  · rcases hphase with ⟨target', entry', _, hact', -, hphase⟩ | ⟨hnot, -⟩
    · obtain ⟨rfl, rfl, -⟩ : target = target' ∧ entry = entry' ∧ _ := by
        simpa [hact] using hact'
      rw [hphase, hcpus]
      by_cases hct : c = target
      · subst hct
        simp [Phase.Holds]
      · rw [Function.update_of_ne hct, Function.update_of_ne hct]
        by_cases hc : c = l.cpu
        · subst hc
          have hcaller := hs l.cpu
          rw [hexec] at hcaller
          simpa [show o = .returned (.ok ()) from ho, Outcome.next] using hcaller
        · rw [Function.update_of_ne hc]
          exact hs c
    · exact absurd ho (hnot target entry powerDomainOn hact)

theorem Consistent.of_reachable [LawfulPowerState σ] {primary : Nat} {sys₀ sys : System σ ε}
    (h₀ : System.new T primary = .ok sys₀) (hr : Transition.Reachable (Step T P) sys₀ sys) :
    Consistent sys :=
  hr.invariant (Consistent.new h₀) fun _ _ _ hs h => hs.step h

/-! ### What the invariants give -/

/-- In every state the system reaches, `is_in_osi_mode` reads the stored suspend mode alone: its
    check of the platform's features never decides. -/
theorem isInOsiMode_of_reachable {primary : Nat} {sys₀ sys : System σ ε}
    (h₀ : System.new T primary = .ok sys₀) (hr : Transition.Reachable (Step T P) sys₀ sys) :
    sys.psci.isInOsiMode P = (sys.psci.suspendMode == .osInitiated) := by
  have hs := Sound.of_reachable h₀ hr
  unfold PsciState.isInOsiMode
  cases hmode : sys.psci.suspendMode with
  | platformCoordinated => simp
  | osInitiated => simp [hs.osInitiated hmode]

/-- On the FVP, after core 0 switched to OS-initiated mode and core 1, turned on, powered itself
    down with an OS-initiated vote. -/
theorem isInOsiMode_of_reachable_fvp :
    ∃ s₀ s : System Fvp.FvpPowerState Nat, System.new Fvp.tree 0 = .ok s₀ ∧
      Transition.Reachable (Step Fvp.tree (Fvp.platform fun _ => true)) s₀ s ∧
      s.psci.suspendMode = .osInitiated ∧ s.phase 1 = .suspended 0x8800_0000 true ∧
      s.psci.isInOsiMode (Fvp.platform fun _ => true) = (s.psci.suspendMode == .osInitiated) := by
  obtain ⟨s₀, h₀, s, hrun, hmode, -, hphase, -⟩ := Fvp.coreSuspended_of_new
  have hr := reachable_of_runChecked _ _ hrun
  exact ⟨s₀, s, h₀, hr, hmode, hphase, isInOsiMode_of_reachable h₀ hr⟩

/-- In every state the system reaches, a core that runs in the normal world, or has only read the
    suspend mode, has its CPU node in `RUN`. -/
theorem localState_run_of_reachable {primary : Nat} {sys₀ sys : System σ ε}
    (h₀ : System.new T primary = .ok sys₀) (hr : Transition.Reachable (Step T P) sys₀ sys) :
    ∀ c, (sys.phase c).Awake → (sys.psci.powerDomainTree.cpuPowerNodes c).localState = run :=
  (Sound.of_reachable h₀ hr).localState_run

/-- On the same run: core 0 runs, core 1 is suspended, and core 0's node is in `RUN`. -/
theorem localState_run_of_reachable_fvp :
    ∃ s₀ s : System Fvp.FvpPowerState Nat, System.new Fvp.tree 0 = .ok s₀ ∧
      Transition.Reachable (Step Fvp.tree (Fvp.platform fun _ => true)) s₀ s ∧
      s.phase 0 = .executing ∧ s.phase 1 = .suspended 0x8800_0000 true ∧
      (∀ c, (s.phase c).Awake → (s.psci.powerDomainTree.cpuPowerNodes c).localState = run) ∧
      (s.psci.powerDomainTree.cpuPowerNodes 0).localState = run := by
  obtain ⟨s₀, h₀, s, hrun, -, hphase₀, hphase₁, -⟩ := Fvp.coreSuspended_of_new
  have hr := reachable_of_runChecked _ _ hrun
  have hlocal := localState_run_of_reachable h₀ hr
  exact ⟨s₀, s, h₀, hr, hphase₀, hphase₁, hlocal, hlocal 0 (by rw [hphase₀]; trivial)⟩

/-- In every state the system reaches, `is_last_cpu` called by a core in the normal world does
    not panic, and it answers whether every other core is off. -/
theorem isLastCpu_of_reachable [LawfulPowerState σ] {primary : Nat} {sys₀ sys : System σ ε}
    (h₀ : System.new T primary = .ok sys₀) (hr : Transition.Reachable (Step T P) sys₀ sys)
    {c : Nat} (hc : sys.phase c = .executing) :
    ∃ isLast, sys.psci.powerDomainTree.isLastCpu T c = .ok isLast ∧
      (isLast = true ↔ ∀ j < T.cpuCount, j ≠ c → sys.phase j = .off) := by
  have hcons := Consistent.of_reachable h₀ hr
  have hon : (sys.psci.powerDomainTree.cpuPowerNodes c).affinityInfo = .on := by
    have hholds := hcons c
    rw [hc] at hholds
    exact hholds.1
  refine ⟨_, PowerDomainTree.isLastCpu_of_on hon, ?_⟩
  rw [decide_eq_true_iff]
  -- a node is off exactly when its core is
  exact forall₂_congr fun j _ => imp_congr_right fun _ => (hcons j).affinityInfo_eq_off_iff

/-- On the same run `is_last_cpu` of core 0 answers no: core 1 is suspended, not off. -/
theorem isLastCpu_of_reachable_fvp :
    ∃ s₀ s : System Fvp.FvpPowerState Nat, System.new Fvp.tree 0 = .ok s₀ ∧
      Transition.Reachable (Step Fvp.tree (Fvp.platform fun _ => true)) s₀ s ∧
      s.phase 0 = .executing ∧ s.phase 1 = .suspended 0x8800_0000 true ∧
      ∃ isLast, s.psci.powerDomainTree.isLastCpu Fvp.tree 0 = .ok isLast ∧
        (isLast = true ↔ ∀ j < Fvp.tree.cpuCount, j ≠ 0 → s.phase j = .off) ∧ isLast = false := by
  obtain ⟨s₀, h₀, s, hrun, -, hphase₀, hphase₁, -⟩ := Fvp.coreSuspended_of_new
  have hr := reachable_of_runChecked _ _ hrun
  obtain ⟨isLast, hlast, hiff⟩ := isLastCpu_of_reachable h₀ hr hphase₀
  -- core 1 is not off, so the answer is no
  have hfalse : isLast = false := by
    rw [Bool.eq_false_iff]
    intro htrue
    have hoff := hiff.mp htrue 1 (by decide) (by decide)
    rw [hphase₁] at hoff
    cases hoff
  exact ⟨s₀, s, h₀, hr, hphase₀, hphase₁, isLast, hlast, hiff, hfalse⟩

/-- In every state the system reaches on a well-formed tree, a core that can boot, pending after
    a `CPU_ON` or suspended in a power-down state, boots without panicking and leaves at the
    entry point it was given. -/
theorem handleCpuBoot_of_reachable [LawfulPowerState σ] (hwf : T.WellFormed) {primary : Nat}
    {sys₀ sys : System σ ε} (h₀ : System.new T primary = .ok sys₀)
    (hr : Transition.Reachable (Step T P) sys₀ sys) {c : Nat} (hc : c < T.cpuCount)
    (hboot : enabled (sys.phase c) .boot = true) :
    (∃ entry psci, sys.phase c = .onPending entry ∧
        sys.psci.handleCpuBoot T c = .ok (psci, .wakeUp (.cpuOn entry))) ∨
      ∃ entry psci, sys.phase c = .suspended entry true ∧
        sys.psci.handleCpuBoot T c = .ok (psci, .wakeUp (.suspendFinished entry)) := by
  have hholds := Consistent.of_reachable h₀ hr c
  cases hph : sys.phase c with
  | onPending entry =>
    rw [hph] at hholds
    obtain ⟨haff, hentry⟩ := hholds
    obtain ⟨psci, hb⟩ := PsciState.handleCpuBoot_eq_ok hwf hc (by simp [haff]) hentry
      (by simp [haff])
    exact .inl ⟨entry, psci, rfl, by simpa [haff] using hb⟩
  | suspended entry isPowerDownState =>
    rw [hph] at hholds hboot
    cases isPowerDownState with
    | false => simp [enabled] at hboot
    | true =>
      obtain ⟨haff, hentry, hpd⟩ := hholds
      obtain ⟨psci, hb⟩ := PsciState.handleCpuBoot_eq_ok hwf hc (by simp [haff])
        (by simpa using hentry) fun _ => ⟨haff, hpd rfl⟩
      exact .inr ⟨entry, psci, rfl, by simpa [haff] using hb⟩
  | _ =>
    rw [hph] at hboot
    simp [enabled] at hboot

/-- On the FVP, core 1 turned on by core 0 boots at the entry point core 0 gave it; and core 1,
    once booted and suspended in a power-down state after an OS-initiated vote, boots back at the
    entry point of its `CPU_SUSPEND`. -/
theorem handleCpuBoot_of_reachable_fvp :
    (∃ s₀ s : System Fvp.FvpPowerState Nat, System.new Fvp.tree 0 = .ok s₀ ∧
      System.runChecked Fvp.tree (Fvp.platform fun _ => true) s₀
        [⟨0, .cpuOn (some 1) 0x8800_0000 (.ok ())⟩] = some s ∧
      s.phase 1 = .onPending 0x8800_0000 ∧
      ∃ psci, s.psci.handleCpuBoot Fvp.tree 1 = .ok (psci, .wakeUp (.cpuOn 0x8800_0000))) ∧
    ∃ s₀ s : System Fvp.FvpPowerState Nat, System.new Fvp.tree 0 = .ok s₀ ∧
      Transition.Reachable (Step Fvp.tree (Fvp.platform fun _ => true)) s₀ s ∧
      s.phase 1 = .suspended 0x8800_0000 true ∧
      ∃ psci, s.psci.handleCpuBoot Fvp.tree 1 =
        .ok (psci, .wakeUp (.suspendFinished 0x8800_0000)) := by
  constructor
  -- the pending core
  · obtain ⟨s₀, s, h₀, hrun, hphase⟩ : ∃ s₀ s : System Fvp.FvpPowerState Nat,
        System.new Fvp.tree 0 = .ok s₀ ∧
        System.runChecked Fvp.tree (Fvp.platform fun _ => true) s₀
          [⟨0, .cpuOn (some 1) 0x8800_0000 (.ok ())⟩] = some s ∧
        s.phase 1 = .onPending 0x8800_0000 := ⟨_, _, rfl, rfl, rfl⟩
    have hr := reachable_of_runChecked _ _ hrun
    rcases handleCpuBoot_of_reachable Fvp.tree_wellFormed h₀ hr (c := 1) (by decide)
        (by rw [hphase]; rfl) with ⟨entry, psci, hph, hb⟩ | ⟨entry, psci, hph, -⟩
    · rw [hphase] at hph
      cases hph
      exact ⟨s₀, s, h₀, hrun, hphase, psci, hb⟩
    · rw [hphase] at hph
      cases hph
  -- the suspended core
  · obtain ⟨s₀, h₀, s, hrun, -, -, hphase, -⟩ := Fvp.coreSuspended_of_new
    have hr := reachable_of_runChecked _ _ hrun
    rcases handleCpuBoot_of_reachable Fvp.tree_wellFormed h₀ hr (c := 1) (by decide)
        (by rw [hphase]; rfl) with ⟨entry, psci, hph, -⟩ | ⟨entry, psci, hph, hb⟩
    · rw [hphase] at hph
      cases hph
    · rw [hphase] at hph
      cases hph
      exact ⟨s₀, s, h₀, hr, hphase, psci, hb⟩

end System

end RustedFirmware.Psci
