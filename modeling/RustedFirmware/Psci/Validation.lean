import RustedFirmware.Lib.Fold
import RustedFirmware.Psci.Fvp

set_option autoImplicit false

/-! What the OS-initiated check of a suspend decides (`validate_state_coordination` in
    `src/services/psci.rs`, section 5.4.5 of the PSCI specification).

    In OS-initiated mode a CPU's vote at one of its ancestors is its requested state when that is
    not `RUN` (a `CPU_OFF` left it there), else the state it voted when it last suspended in
    OS-initiated mode, else `RUN`. A request is checked against the other votes at the caller's
    ancestors: at the level where the caller claims to be the last CPU running no other vote may
    be `RUN`, and at each level up to the highest one the request affects the state requested
    there may be no deeper than any other vote, those of the non-CPU children off the caller's
    path included. A running vote that blocks the request makes it `Denied`; a request blocked
    only by low-power votes, or one without a last level, is `InvalidParameters`.

    `osiVerdict` states that rule over the votes; `validateStateCoordination_eq_osiVerdict`
    proves that the source's folds over the nodes' arrays compute it, on a well-formed tree whose
    nodes keep the assert of `get_osi_minimal_allowed_state_without_core`. -/

namespace RustedFirmware.Psci

open Rust PlatformPowerState

namespace NonCpuPowerNode

variable {σ : Type} [LinearOrder σ] [PlatformPowerState σ] (T : Topology)

/-- The vote of a descendant CPU at a node: its requested state when that is not `RUN`, else its
    OS-initiated suspend vote, else `RUN`. -/
def effectiveVote (node : NonCpuPowerNode σ) (cpu : Nat) : σ :=
  if node.requestedStates cpu ≠ run then node.requestedStates cpu
  else (node.suspendStates cpu).getD run

/-- The votes at a node other than `cpu`'s: those of its other descendant CPUs, and with `child`
    the states recorded for its non-CPU children other than `child`. -/
def OtherVote (index : Nat) (node : NonCpuPowerNode σ) (cpu : Nat) (child : Option Nat)
    (v : σ) : Prop :=
  (∃ j, inRange (T.cpuRange index) j = true ∧ j ≠ cpu ∧ v = node.effectiveVote j) ∨
    ∃ k m, child = some k ∧ inRange (T.nonCpuRange index) m = true ∧ m ≠ k ∧
      v = node.nonCpuStates m

/-- The assert of `get_osi_minimal_allowed_state_without_core` holds at a node: a descendant CPU
    whose requested state is not `RUN` has no OS-initiated vote. -/
def OsiConsistent (index : Nat) (node : NonCpuPowerNode σ) : Prop :=
  ∀ j, inRange (T.cpuRange index) j = true → node.requestedStates j ≠ run →
    node.suspendStates j = none

variable {T} {index : Nat} {node : NonCpuPowerNode σ}

theorem osiVote_eq (hcons : node.OsiConsistent T index) {j : Nat}
    (hj : inRange (T.cpuRange index) j = true) :
    node.osiVote j = .ok (node.effectiveVote j) := by
  unfold osiVote effectiveVote
  by_cases hrun : node.requestedStates j ≠ run
  · rw [if_pos hrun, if_pos hrun, hcons j hj hrun]
    rfl
  · rw [if_neg hrun, if_neg hrun]
    rfl

/-- With the assert holding, `get_osi_minimal_allowed_state_without_core` returns the least of
    `OFF` and the other votes. -/
theorem getOsiMinimalAllowedStateWithoutCore_isLeast (hcons : node.OsiConsistent T index)
    {cpu : Nat} (hcpu : inRange (T.cpuRange index) cpu = true) (child : Option Nat) :
    ∃ v, node.getOsiMinimalAllowedStateWithoutCore T index cpu child = .ok v ∧
      IsLeast {x | x = off ∨ node.OtherVote T index cpu child x} v := by
  set cpus := (rangeIndices (T.cpuRange index)).filter
    fun j => j - (T.cpuRange index).1 != cpu - (T.cpuRange index).1 with hcpus
  -- in the range, the offset from its start tells the CPUs apart
  have hmemCpus : ∀ j, j ∈ cpus ↔ inRange (T.cpuRange index) j = true ∧ j ≠ cpu := by
    intro j
    simp only [inRange, Bool.and_eq_true, decide_eq_true_eq] at hcpu
    simp only [hcpus, List.mem_filter, mem_rangeIndices, inRange, Bool.and_eq_true,
      decide_eq_true_eq, bne_iff_ne, ne_eq]
    omega
  have hfold : cpus.foldlM (fun acc j => do let v ← node.osiVote j; pure (min acc v)) off =
      .ok (cpus.foldl (fun acc j => min acc (node.effectiveVote j)) off) :=
    Loop.foldlM_eq_ok_foldl (fun b j hj => by rw [osiVote_eq hcons ((hmemCpus j).mp hj).1]; rfl)
      off
  have hcpuLeast := Loop.foldl_min_isLeast node.effectiveVote off cpus
  have hcpuVote : ∀ x, (∃ j ∈ cpus, x = node.effectiveVote j) ↔
      ∃ j, inRange (T.cpuRange index) j = true ∧ j ≠ cpu ∧ x = node.effectiveVote j := by
    intro x
    simp only [hmemCpus, and_assoc]
  cases child with
  -- case: no child is left out, and the non-CPU children are not read
  | none =>
    refine ⟨_, by simp only [getOsiMinimalAllowedStateWithoutCore, ← hcpus, hfold, ok_bind]; rfl,
      ?_⟩
    have hset : {x | x = off ∨ node.OtherVote T index cpu none x} =
        insert off {x | ∃ j ∈ cpus, x = node.effectiveVote j} := by
      ext x
      simp only [OtherVote, Set.mem_ofPred_eq, Set.mem_insert_iff, hcpuVote, reduceCtorEq,
        false_and, exists_false, or_false]
    rw [hset]
    exact hcpuLeast
  -- case: the fold goes on over the non-CPU children other than `k`
  | some k =>
    set kids := (rangeIndices (T.nonCpuRange index)).filter fun m => m != k with hkids
    refine ⟨kids.foldl (fun acc m => min acc (node.nonCpuStates m))
      (cpus.foldl (fun acc j => min acc (node.effectiveVote j)) off), ?_, ?_⟩
    · simp only [getOsiMinimalAllowedStateWithoutCore, ← hcpus, ← hkids, hfold, ok_bind]
      rfl
    · have hset : {x | x = off ∨ node.OtherVote T index cpu (some k) x} =
          insert off {x | ∃ j ∈ cpus, x = node.effectiveVote j} ∪
            {x | ∃ m ∈ kids, x = node.nonCpuStates m} := by
        ext x
        simp only [OtherVote, Set.mem_ofPred_eq, Set.mem_insert_iff, Set.mem_union, hcpuVote,
          hkids, List.mem_filter, mem_rangeIndices, bne_iff_ne, ne_eq, Option.some.injEq,
          exists_and_left, exists_eq_left', and_assoc, or_assoc]
      rw [hset]
      exact Loop.IsLeast.insert_union hcpuLeast
        (Loop.foldl_min_isLeast node.nonCpuStates _ kids)

end NonCpuPowerNode

/-! ### The least vote -/

section Least

variable {σ : Type} [LinearOrder σ] [PlatformPowerState σ] [LawfulPowerState σ] [OffDeepest σ]
  {P : σ → Prop} {v : σ}

omit [LawfulPowerState σ] in
/-- A request is no deeper than the least of `OFF` and the votes when it is no deeper than any
    vote, as no state is deeper than `OFF`. -/
theorem le_iff_of_isLeast (hv : IsLeast {x | x = off ∨ P x} v) (x : σ) :
    x ≤ v ↔ ∀ w, P w → x ≤ w := by
  constructor
  · intro hxv w hw
    exact le_trans hxv (hv.2 (Or.inr hw))
  · intro hx
    rcases hv.1 with hoff | hvote
    · exact hoff ▸ OffDeepest.le_off x
    · exact hx v hvote

/-- The least of `OFF` and the votes is `RUN` when some vote is `RUN`, as `OFF` is not. -/
theorem eq_run_iff_of_isLeast (hv : IsLeast {x | x = off ∨ P x} v) : v = run ↔ P run := by
  constructor
  · intro hrun
    rcases hv.1 with hoff | hvote
    · exact absurd (hoff.symm.trans hrun) OffDeepest.off_ne_run
    · exact hrun ▸ hvote
  · intro hrun
    exact le_antisymm (hv.2 (Or.inr hrun)) (LawfulPowerState.run_le v)

end Least

/-! ### The rule over the votes -/

namespace Topology

variable (T : Topology)

/-- The ancestor of `cpu` at power level `l ≥ 1`. -/
def levelAncestor (cpu l : Nat) : Nat := (T.ancestors cpu).getD (l - 1) 0

/-- The child through which `cpu` reaches its ancestor at level `l`; at level 1 the children are
    CPUs, and none is named. -/
def pathChild (cpu l : Nat) : Option Nat :=
  if 2 ≤ l then some (T.levelAncestor cpu (l - 1)) else none

end Topology

namespace PowerDomainTree

variable {σ ε : Type} [LinearOrder σ] [PlatformPowerState σ] (T : Topology)

/-- Every node of the tree keeps the assert of `get_osi_minimal_allowed_state_without_core`. -/
def OsiConsistent (t : PowerDomainTree σ ε) : Prop :=
  ∀ n < T.nonCpuCount, (t.nonCpuPowerNodes n).OsiConsistent T n

/-- The votes other than `cpu`'s at its ancestor at level `l`, as the check there weighs them. -/
def OtherVote (t : PowerDomainTree σ ε) (cpu l : Nat) (v : σ) : Prop :=
  (t.nonCpuPowerNodes (T.levelAncestor cpu l)).OtherVote T (T.levelAncestor cpu l) cpu
    (T.pathChild cpu l) v

/-- The caller is the last CPU to idle at level `L`: no other vote there is `RUN`. -/
def LastToIdle (t : PowerDomainTree σ ε) (cpu L : Nat) : Prop :=
  L = 0 ∨ ∀ v, t.OtherVote T cpu L v → v ≠ run

/-- The state `x` requested at level `l` is no deeper than any other vote there. -/
def Allows (t : PowerDomainTree σ ε) (cpu l : Nat) (x : σ) : Prop :=
  ∀ v, t.OtherVote T cpu l v → x ≤ v

/-- Level `l` is the first of `1..=h` whose requested state the other votes do not allow. -/
def FirstRejection (t : PowerDomainTree σ ε) (cpu h : Nat) (s : CompositePowerState σ)
    (l : Nat) : Prop :=
  1 ≤ l ∧ l ≤ h ∧ (∀ l', 1 ≤ l' → l' < l → t.Allows T cpu l' (s.states.getD l' run)) ∧
    ¬t.Allows T cpu l (s.states.getD l run)

open Classical in
/-- The verdict at one level: allowed, or rejected as `Denied` when a running vote blocks the
    request and as `InvalidParameters` otherwise. -/
noncomputable def levelVerdict (t : PowerDomainTree σ ε) (cpu l : Nat) (x : σ) :
    Except ErrorCode Unit :=
  if t.Allows T cpu l x then .ok ()
  else if t.OtherVote T cpu l run then .error .denied
  else .error .invalidParameters

open Classical in
/-- What the OS-initiated check decides of the request `s` whose highest affected level is `h`:
    the claim to be last first, then the levels from 1 up. -/
noncomputable def osiVerdict (t : PowerDomainTree σ ε) (cpu h : Nat)
    (s : CompositePowerState σ) : Except ErrorCode Unit :=
  match s.lastAtPowerLevel with
  | none => .error .invalidParameters
  | some L =>
    if t.LastToIdle T cpu L then
      (List.range' 1 h).forM fun l => t.levelVerdict T cpu l (s.states.getD l run)
    else .error .denied

variable {T} {t : PowerDomainTree σ ε} {cpu : Nat}

theorem levelVerdict_eq_ok_iff {l : Nat} {x : σ} {u : Unit} :
    t.levelVerdict T cpu l x = .ok u ↔ t.Allows T cpu l x := by
  unfold levelVerdict
  by_cases hallow : t.Allows T cpu l x
  · simp [hallow]
  · by_cases hrun : t.OtherVote T cpu l run <;> simp [hallow, hrun]

theorem levelVerdict_eq_error_iff {l : Nat} {x : σ} {e : ErrorCode} :
    t.levelVerdict T cpu l x = .error e ↔ ¬t.Allows T cpu l x ∧
      (e = .denied ∧ t.OtherVote T cpu l run ∨ e = .invalidParameters ∧ ¬t.OtherVote T cpu l run) := by
  unfold levelVerdict
  by_cases hallow : t.Allows T cpu l x
  · simp [hallow]
  · by_cases hrun : t.OtherVote T cpu l run
    · simp [hallow, hrun, eq_comm]
    · simp [hallow, hrun, eq_comm]

variable {h : Nat} {s : CompositePowerState σ} {L : Nat}

/-- A request with a last level passes when the claim holds and every level allows it. -/
theorem osiVerdict_eq_ok_iff (hL : s.lastAtPowerLevel = some L) {u : Unit} :
    t.osiVerdict T cpu h s = .ok u ↔
      t.LastToIdle T cpu L ∧ ∀ l, 1 ≤ l → l ≤ h → t.Allows T cpu l (s.states.getD l run) := by
  unfold osiVerdict
  rw [hL]
  by_cases hlast : t.LastToIdle T cpu L
  · simp only [hlast, if_true, true_and, Loop.forM_range'_eq_ok, levelVerdict_eq_ok_iff]
    constructor
    · intro hall l hl hlh
      obtain ⟨i, rfl⟩ : ∃ i, l = 1 + i := ⟨l - 1, by omega⟩
      exact hall i (by omega)
    · intro hall i hi
      exact hall (1 + i) (by omega) (by omega)
  · simp [hlast]

/-- A request with a last level fails with `e` when the claim fails, as `Denied`, or when the
    first level that does not allow it fails with `e`. -/
theorem osiVerdict_eq_error_iff (hL : s.lastAtPowerLevel = some L) {e : ErrorCode} :
    t.osiVerdict T cpu h s = .error e ↔
      ¬t.LastToIdle T cpu L ∧ e = .denied ∨
        t.LastToIdle T cpu L ∧ ∃ l, t.FirstRejection T cpu h s l ∧
          t.levelVerdict T cpu l (s.states.getD l run) = .error e := by
  unfold osiVerdict
  rw [hL]
  by_cases hlast : t.LastToIdle T cpu L
  · simp only [hlast, if_true, not_true_eq_false, false_and, true_and, false_or,
      Loop.forM_range'_eq_error]
    constructor
    · rintro ⟨k, hk, hbefore, hfail⟩
      refine ⟨1 + k, ⟨by omega, by omega, fun l' hl' hl'k => ?_, ?_⟩, hfail⟩
      · obtain ⟨i, rfl⟩ : ∃ i, l' = 1 + i := ⟨l' - 1, by omega⟩
        exact levelVerdict_eq_ok_iff.mp (hbefore i (by omega))
      · exact fun hallow => by
          rw [levelVerdict_eq_error_iff] at hfail
          exact hfail.1 hallow
    · rintro ⟨l, ⟨hl, hlh, hbefore, -⟩, hfail⟩
      obtain ⟨k, rfl⟩ : ∃ k, l = 1 + k := ⟨l - 1, by omega⟩
      exact ⟨k, by omega, fun i hi => levelVerdict_eq_ok_iff.mpr (hbefore (1 + i) (by omega)
        (by omega)), hfail⟩
  · simp [hlast, eq_comm]

end PowerDomainTree

/-! ### The source's check computes the rule -/

namespace CompositePowerState

variable {σ ε : Type} [LinearOrder σ] [PlatformPowerState σ] [LawfulPowerState σ] [OffDeepest σ]
  {T : Topology} {t : PowerDomainTree σ ε} {cpu : Nat}

section Tree

variable (hwf : T.WellFormed) (hcons : t.OsiConsistent T) (hcpu : cpu < T.cpuCount)
include hwf hcons hcpu

omit [LawfulPowerState σ] [OffDeepest σ] in
/-- The node check at a level of the caller's ancestors returns the least of `OFF` and the other
    votes there. -/
theorem getOsiMinimalAllowedStateWithoutCore_levelAncestor {l : Nat} (hl : 1 ≤ l)
    (hlmax : l ≤ T.maxPowerLevel) :
    ∃ v, (t.nonCpuPowerNodes (T.levelAncestor cpu l)).getOsiMinimalAllowedStateWithoutCore T
        (T.levelAncestor cpu l) cpu (T.pathChild cpu l) = .ok v ∧
      IsLeast {x | x = off ∨ t.OtherVote T cpu l x} v := by
  have hmem : T.levelAncestor cpu l ∈ T.ancestors cpu := by
    unfold Topology.levelAncestor
    rw [List.getD_eq_getElem _ _ (by rw [hwf.length_ancestors hcpu]; omega)]
    exact List.getElem_mem _
  have hlt := hwf.ancestor_lt cpu hcpu _ hmem
  exact NonCpuPowerNode.getOsiMinimalAllowedStateWithoutCore_isLeast (hcons _ hlt)
    ((hwf.cpuRange_iff cpu hcpu _ hlt).mpr hmem) _

/-- `is_last_cpu_to_idle_at_power_level` answers whether the caller is the last to idle. -/
theorem isLastCpuToIdleAtPowerLevel_eq {L : Nat} (hL : L ≤ T.maxPowerLevel) :
    ∃ b, AncestorPowerDomains.isLastCpuToIdleAtPowerLevel T (T.ancestors cpu) t cpu L = .ok b ∧
      (b = true ↔ t.LastToIdle T cpu L) := by
  have hlen := hwf.length_ancestors hcpu
  by_cases hzero : L = 0
  -- case: a request for the CPU alone claims nothing
  · refine ⟨true, ?_, by simp [PowerDomainTree.LastToIdle, hzero]⟩
    rw [AncestorPowerDomains.isLastCpuToIdleAtPowerLevel, if_pos hzero]
    rfl
  · obtain ⟨v, hv, hleast⟩ :=
      getOsiMinimalAllowedStateWithoutCore_levelAncestor hwf hcons hcpu (l := L) (by omega) hL
    -- the check asks the locked node at level `L`, leaving out the child on the path
    have hcall : AncestorPowerDomains.isLastCpuToIdleAtPowerLevel T (T.ancestors cpu) t cpu L =
        (t.nonCpuPowerNodes (T.levelAncestor cpu L)).isLastCpuToIdle T (T.levelAncestor cpu L)
          cpu (T.pathChild cpu L) := by
      unfold AncestorPowerDomains.isLastCpuToIdleAtPowerLevel Topology.pathChild
        Topology.levelAncestor
      rw [if_neg hzero]
      by_cases htwo : 2 ≤ L
      · rw [if_pos htwo, if_pos htwo, index_of_lt _ _ (by omega), index_of_lt _ _ (by omega)]
        simp only [List.getD_eq_getElem?_getD]
        rw [show L - 1 - 1 = L - 2 by omega, List.getElem?_eq_getElem (by omega),
          List.getElem?_eq_getElem (by omega)]
        rfl
      · rw [if_neg htwo, if_neg htwo, index_of_lt _ _ (by omega)]
        simp only [List.getD_eq_getElem?_getD]
        rw [List.getElem?_eq_getElem (by omega)]
        rfl
    refine ⟨v != run, by rw [hcall, NonCpuPowerNode.isLastCpuToIdle, hv]; rfl, ?_⟩
    rw [bne_iff_ne, ne_eq, eq_run_iff_of_isLeast hleast]
    constructor
    · intro hnone
      exact .inr fun w hw hwrun => hnone (hwrun ▸ hw)
    · rintro (hzero' | hall) hrun
      · exact hzero hzero'
      · exact hall run hrun rfl

/-- The loop of `validate_state_coordination` over the levels `l..l + m` gives the verdicts of
    those levels, in order. -/
theorem validateLoop_eq (R : List σ) :
    ∀ (m l : Nat), 1 ≤ l → l - 1 + m ≤ T.maxPowerLevel → l - 1 + m ≤ R.length →
      validateLoop T cpu t (T.pathChild cpu l) (((T.ancestors cpu).drop (l - 1)).take m)
          ((R.drop (l - 1)).take m) =
        .ok ((List.range' l m).forM fun l' => t.levelVerdict T cpu l' (R.getD (l' - 1) run))
  | 0, l, _, _, _ => rfl
  | m + 1, l, hl, hlm, hlR => by
    have hlen := hwf.length_ancestors hcpu
    have hA : ((T.ancestors cpu).drop (l - 1)).take (m + 1) =
        T.levelAncestor cpu l :: ((T.ancestors cpu).drop (l + 1 - 1)).take m := by
      rw [List.drop_eq_getElem_cons (by omega), List.take_succ_cons, Topology.levelAncestor,
        List.getD_eq_getElem _ _ (by omega), show l - 1 + 1 = l + 1 - 1 by omega]
    have hR : (R.drop (l - 1)).take (m + 1) = R.getD (l - 1) run :: (R.drop (l + 1 - 1)).take m := by
      rw [List.drop_eq_getElem_cons (by omega), List.take_succ_cons,
        List.getD_eq_getElem _ _ (by omega), show l - 1 + 1 = l + 1 - 1 by omega]
    have hchild : T.pathChild cpu (l + 1) = some (T.levelAncestor cpu l) := by
      simp [Topology.pathChild, show 2 ≤ l + 1 by omega]
    obtain ⟨v, hv, hleast⟩ :=
      getOsiMinimalAllowedStateWithoutCore_levelAncestor hwf hcons hcpu hl (by omega)
    have hrest := validateLoop_eq R m (l + 1) (by omega) (by omega) (by omega)
    rw [hA, hR, validateLoop, hv, ok_bind, List.range'_succ, List.forM_eq_forM, List.forM_cons]
    by_cases hallow : t.Allows T cpu l (R.getD (l - 1) run)
    -- case: the level allows the request, and the loop goes on to the next
    · have hle : ¬R.getD (l - 1) run > v := not_lt.mpr ((le_iff_of_isLeast hleast _).mpr hallow)
      rw [if_neg hle, ← hchild, hrest]
      simp only [PowerDomainTree.levelVerdict, if_pos hallow]
      rfl
    -- case: the level rejects it, by the kind of the least vote
    · have hgt : R.getD (l - 1) run > v := lt_of_not_ge fun hle =>
        hallow ((le_iff_of_isLeast hleast _).mp hle)
      rw [if_pos hgt]
      by_cases hrun : t.OtherVote T cpu l run
      · rw [if_pos ((eq_run_iff_of_isLeast hleast).mpr hrun)]
        simp only [PowerDomainTree.levelVerdict, if_neg hallow, if_pos hrun]
        rfl
      · rw [if_neg fun hvrun => hrun ((eq_run_iff_of_isLeast hleast).mp hvrun)]
        simp only [PowerDomainTree.levelVerdict, if_neg hallow, if_neg hrun]
        rfl

/-- The source's `validate_state_coordination`, on the state resolved at the highest affected
    level `h` and the caller's ancestors up to `MAX_POWER_LEVEL`, returns the rule's verdict. -/
theorem validateStateCoordination_eq_osiVerdict {s : CompositePowerState σ}
    (hlen : s.states.length = T.maxPowerLevel + 1) {h : Nat} (hh : h ≤ T.maxPowerLevel)
    (hlast : ∀ L, s.lastAtPowerLevel = some L → L ≤ T.maxPowerLevel) :
    (s.createHighestAffectedLevelResolvedState h).validateStateCoordination T cpu h
        (T.ancestors cpu) t = .ok (t.osiVerdict T cpu h s) := by
  cases hL : s.lastAtPowerLevel with
  | none =>
    rw [validateStateCoordination_of_none T (by simpa using hL)]
    simp [PowerDomainTree.osiVerdict, hL]
  | some L =>
    obtain ⟨b, hb, hbiff⟩ := isLastCpuToIdleAtPowerLevel_eq hwf hcons hcpu (hlast L hL)
    simp only [validateStateCoordination, lastAtPowerLevel_createHighestAffectedLevelResolvedState,
      hL, hb, ok_bind, PowerDomainTree.osiVerdict]
    by_cases hlastOk : t.LastToIdle T cpu L
    · rw [if_pos hlastOk, show b = true from hbiff.mpr hlastOk]
      by_cases hzero : h = 0
      · subst hzero
        rfl
      · have hresolvedLen : (s.createHighestAffectedLevelResolvedState h).states.length =
            T.maxPowerLevel + 1 := by
          simp [createHighestAffectedLevelResolvedState, hlen]
        have hloop := validateLoop_eq hwf hcons hcpu
          ((s.createHighestAffectedLevelResolvedState h).states.drop 1) h 1 le_rfl
          (by omega) (by rw [List.length_drop, hresolvedLen]; omega)
        simp only [Nat.sub_self, List.drop_zero, show T.pathChild cpu 1 = none from rfl] at hloop
        rw [if_neg (by simp), if_neg hzero, hloop]
        congr 1
        -- the levels read the request's own states, which the resolved state keeps up to `h`
        apply Loop.forM_congr
        intro l hl
        rw [List.mem_range'_1] at hl
        rw [List.getD_eq_getElem?_getD, List.getElem?_drop, ← List.getD_eq_getElem?_getD,
          show 1 + (l - 1) = l by omega,
          getD_createHighestAffectedLevelResolvedState s (by omega)]
    · rw [if_neg hlastOk, show b = false from by
        cases b
        · rfl
        · exact absurd (hbiff.mp rfl) hlastOk]
      rfl

end Tree

/-- OS-initiated validation is sound and exact: on a well-formed tree whose nodes keep the
    assert of `get_osi_minimal_allowed_state_without_core`, for a request with a state per level
    whose highest non-`RUN` level is `h`, `validate_state_coordination` of the state resolved at
    `h` returns; without a last level the request is invalid, and with a last level `L` it
    passes when the caller is the last to idle at `L` and every level up to `h` allows its
    state, fails as `Denied` when the claim fails or the first level that rejects the request
    has a running vote, and as `InvalidParameters` when that level has none. -/
theorem validateStateCoordination_exact (hwf : T.WellFormed) (hcons : t.OsiConsistent T)
    (hcpu : cpu < T.cpuCount) {s : CompositePowerState σ}
    (hlen : s.states.length = T.maxPowerLevel + 1) {h : Nat}
    (hh : s.findHighestNonRunLevel = some h)
    (hlast : ∀ L, s.lastAtPowerLevel = some L → L ≤ T.maxPowerLevel) :
    ∃ r, (s.createHighestAffectedLevelResolvedState h).validateStateCoordination T cpu h
        (T.ancestors cpu) t = .ok r ∧
      (s.lastAtPowerLevel = none → r = .error .invalidParameters) ∧
      ∀ L, s.lastAtPowerLevel = some L →
        (r = .ok () ↔ t.LastToIdle T cpu L ∧
          ∀ l, 1 ≤ l → l ≤ h → t.Allows T cpu l (s.states.getD l run)) ∧
        (r = .error .denied ↔ ¬t.LastToIdle T cpu L ∨
          t.LastToIdle T cpu L ∧ ∃ l, t.FirstRejection T cpu h s l ∧ t.OtherVote T cpu l run) ∧
        (r = .error .invalidParameters ↔ t.LastToIdle T cpu L ∧
          ∃ l, t.FirstRejection T cpu h s l ∧ ¬t.OtherVote T cpu l run) := by
  have hhlt : h < s.states.length := (rposition_eq_some hh).1
  refine ⟨_, validateStateCoordination_eq_osiVerdict hwf hcons hcpu hlen (by omega) hlast,
    fun hnone => by simp [PowerDomainTree.osiVerdict, hnone], fun L hL => ⟨?_, ?_, ?_⟩⟩
  · exact PowerDomainTree.osiVerdict_eq_ok_iff hL
  · rw [PowerDomainTree.osiVerdict_eq_error_iff hL]
    constructor
    · rintro (⟨hnot, -⟩ | ⟨hok, l, hfirst, hfail⟩)
      · exact .inl hnot
      · obtain ⟨-, (⟨-, hrun⟩ | ⟨hinv, -⟩)⟩ := PowerDomainTree.levelVerdict_eq_error_iff.mp hfail
        · exact .inr ⟨hok, l, hfirst, hrun⟩
        · cases hinv
    · rintro (hnot | ⟨hok, l, hfirst, hrun⟩)
      · exact .inl ⟨hnot, rfl⟩
      · exact .inr ⟨hok, l, hfirst, PowerDomainTree.levelVerdict_eq_error_iff.mpr
          ⟨hfirst.2.2.2, .inl ⟨rfl, hrun⟩⟩⟩
  · rw [PowerDomainTree.osiVerdict_eq_error_iff hL]
    constructor
    · rintro (⟨-, hden⟩ | ⟨hok, l, hfirst, hfail⟩)
      · cases hden
      · obtain ⟨-, (⟨hden, -⟩ | ⟨-, hnorun⟩)⟩ := PowerDomainTree.levelVerdict_eq_error_iff.mp hfail
        · cases hden
        · exact ⟨hok, l, hfirst, hnorun⟩
    · rintro ⟨hok, l, hfirst, hnorun⟩
      exact .inr ⟨hok, l, hfirst, PowerDomainTree.levelVerdict_eq_error_iff.mpr
        ⟨hfirst.2.2.2, .inr ⟨rfl, hnorun⟩⟩⟩

/-- A tree of the FVP in which core 1 requests `s` at every node, every other core requests
    `OFF`, and no core has an OS-initiated vote. -/
def fvpRequesting (s : Fvp.FvpPowerState) : PowerDomainTree Fvp.FvpPowerState Nat :=
  ⟨fun _ => { NonCpuPowerNode.new with requestedStates := Function.update (fun _ => .off) 1 s },
    fun _ => CpuPowerNode.new⟩

/-- Core 0 asks to power down itself and its cluster, claiming to be the last core running there,
    while core 1 of the same cluster requests `OFF`, `RUN` or retention: the request passes, is
    `Denied` as the claim or a level meets a running vote, or is `InvalidParameters` as the cluster
    level meets a shallower vote that is not `RUN`. -/
theorem validateStateCoordination_exact_fvp :
    Fvp.tree.WellFormed ∧ 0 < Fvp.tree.cpuCount ∧
      [Fvp.FvpPowerState.off, .off, .run].length = Fvp.tree.maxPowerLevel + 1 ∧
      (⟨[.off, .off, .run], some 1⟩ : CompositePowerState Fvp.FvpPowerState).findHighestNonRunLevel =
        some 1 ∧
      (∀ s, (fvpRequesting s).OsiConsistent Fvp.tree) ∧
      (∃ r, validateStateCoordination Fvp.tree (createHighestAffectedLevelResolvedState
          (⟨[.off, .off, .run], some 1⟩ : CompositePowerState Fvp.FvpPowerState) 1) 0 1
          (Fvp.tree.ancestors 0) (fvpRequesting .off) = .ok r ∧ r = .ok () ∧
        (fvpRequesting .off).LastToIdle Fvp.tree 0 1 ∧
        ∀ l, 1 ≤ l → l ≤ 1 → (fvpRequesting .off).Allows Fvp.tree 0 l
          ([Fvp.FvpPowerState.off, .off, .run].getD l run)) ∧
      (∃ r, validateStateCoordination Fvp.tree (createHighestAffectedLevelResolvedState
          (⟨[.off, .off, .run], some 1⟩ : CompositePowerState Fvp.FvpPowerState) 1) 0 1
          (Fvp.tree.ancestors 0) (fvpRequesting .run) = .ok r ∧ r = .error .denied ∧
        (¬(fvpRequesting .run).LastToIdle Fvp.tree 0 1 ∨
          (fvpRequesting .run).LastToIdle Fvp.tree 0 1 ∧ ∃ l, (fvpRequesting .run).FirstRejection
            Fvp.tree 0 1 ⟨[.off, .off, .run], some 1⟩ l ∧
            (fvpRequesting .run).OtherVote Fvp.tree 0 l run)) ∧
      ∃ r, validateStateCoordination Fvp.tree (createHighestAffectedLevelResolvedState
          (⟨[.off, .off, .run], some 1⟩ : CompositePowerState Fvp.FvpPowerState) 1) 0 1
          (Fvp.tree.ancestors 0) (fvpRequesting .retention) = .ok r ∧
        r = .error .invalidParameters ∧ (fvpRequesting .retention).LastToIdle Fvp.tree 0 1 ∧
        ∃ l, (fvpRequesting .retention).FirstRejection Fvp.tree 0 1
          ⟨[.off, .off, .run], some 1⟩ l ∧ ¬(fvpRequesting .retention).OtherVote Fvp.tree 0 l run := by
  have hcons : ∀ s, (fvpRequesting s).OsiConsistent Fvp.tree := fun _ _ _ _ _ _ => rfl
  have hlen : [Fvp.FvpPowerState.off, .off, .run].length = Fvp.tree.maxPowerLevel + 1 := by
    rw [Fvp.tree_maxPowerLevel]
    rfl
  have hh : (⟨[.off, .off, .run], some 1⟩ :
      CompositePowerState Fvp.FvpPowerState).findHighestNonRunLevel = some 1 := by
    decide
  -- the theorem on each tree, read at the answer the check computes there
  have hexact := fun s => validateStateCoordination_exact Fvp.tree_wellFormed (hcons s)
    (by decide : 0 < Fvp.tree.cpuCount) hlen hh
    (fun L hL => by cases hL; rw [Fvp.tree_maxPowerLevel]; decide)
  obtain ⟨r₀, hr₀, -, hL₀⟩ := hexact .off
  obtain ⟨r₁, hr₁, -, hL₁⟩ := hexact .run
  obtain ⟨r₂, hr₂, -, hL₂⟩ := hexact .retention
  have hc₀ : r₀ = .ok () := Except.ok.inj (hr₀.symm.trans (by decide))
  have hc₁ : r₁ = .error .denied := Except.ok.inj (hr₁.symm.trans (by decide))
  have hc₂ : r₂ = .error .invalidParameters := Except.ok.inj (hr₂.symm.trans (by decide))
  exact ⟨Fvp.tree_wellFormed, by decide, hlen, hh, hcons, ⟨r₀, hr₀, hc₀, (hL₀ 1 rfl).1.mp hc₀⟩,
    ⟨r₁, hr₁, hc₁, (hL₁ 1 rfl).2.1.mp hc₁⟩, ⟨r₂, hr₂, hc₂, (hL₂ 1 rfl).2.2.mp hc₂⟩⟩

end CompositePowerState

end RustedFirmware.Psci
