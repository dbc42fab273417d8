import RustedFirmware.Gpt.Programmed
import RustedFirmware.Lib.Transition

set_option autoImplicit false

/-! Granule delegation by the Realm Management Monitor dispatcher (`src/services/rmmd.rs`): the
    `GtsiDelegate` and `GtsiUndelegate` arms of `Rmmd::try_handle_realm_smc`.

    DELEGATE moves a Non-secure granule into the Realm PAS: it checks the alignment of `base_pa`,
    looks the granule up, requires `NonSecure`, flushes the Realm alias from the caches, sets the
    GPI to `Realm` and flushes the Non-secure alias. UNDELEGATE moves a Realm granule back,
    through `NoAccess` between two `set`s. Barriers and the cache maintenance itself change no
    state of the model; `flush_dcache_to_popa_range` keeps the two checks that can make it fail.
    The table is the one `GRANULE_PROTECTION_TABLE` holds after boot, and the cache-enable bit of
    `SCTLR_EL3` that both arms assert is an argument.

    `MovesGranule` states what such a call is for. The main result, `gtsi_calls_move_one_granule`,
    is that every GTSI call made with caches enabled, in every table a sequence of such calls
    reaches from a programmed one, meets it without panicking. -/

namespace RustedFirmware.Rmmd

open Rust Gpt

/-- `RmmCommandReturnCode`, the status of an RMM command. -/
inductive RmmCommandReturnCode where
  | ok | unknown | badAddress | badPas | noMemory | invalidValue | again
  deriving DecidableEq, Repr

/-- `pagetable::Error`. -/
inductive PagetableError where
  | addressOutOfRange | invalidGPI
  deriving DecidableEq, Repr

/-- `PhysicalAddressSpace`, the PAS a cache maintenance operation targets. -/
inductive PhysicalAddressSpace where
  | secure | nonSecure | root | realm
  deriving DecidableEq, Repr

/-- `PhysicalAddressSpace::try_from(GPIAccessType)`. -/
def PhysicalAddressSpace.tryFrom : GPIAccessType → Except PagetableError PhysicalAddressSpace
  | .secure => .ok .secure
  | .nonSecure => .ok .nonSecure
  | .root => .ok .root
  | .realm => .ok .realm
  | _ => .error .invalidGPI

/-- `flush_dcache_to_popa_range`: the address must leave the top byte clear and the GPI must
    name a PAS; the maintenance over `len` bytes changes no state of the model. -/
def flushDcacheToPopaRange (addr _len : Nat) (gpi : GPIAccessType) :
    Except PagetableError Unit := do
  if addr &&& 0xFF00_0000_0000_0000 ≠ 0 then throw .addressOutOfRange
  let _ ← PhysicalAddressSpace.tryFrom gpi
  pure ()

/-- How `try_handle_realm_smc` ends a GTSI call: `Ok(World::Realm)` after
    `regs.set_from(code)`, or `Err(code)` from a `?`. -/
inductive Exit where
  | status (code : RmmCommandReturnCode)
  | err (code : RmmCommandReturnCode)
  deriving DecidableEq, Repr

/-- The status the Realm world reads back: `handle_realm_smc` writes the code of an `Err` to
    the registers as well. -/
def Exit.code : Exit → RmmCommandReturnCode
  | .status code => code
  | .err code => code

/-- The `match gpt.lookup(base_pa)` both arms make: the GPI, `BadAddress` for an unprotected
    address, a panic for a misprogrammed entry. -/
def lookupGranule (gpt : GranuleProtection) (basePa : Nat) :
    Except Panic (Except RmmCommandReturnCode GPIAccessType) := do
  match ← gpt.lookup basePa with
  | .ok gpi => return .ok gpi
  | .error .invalidRequest => return .error .badAddress
  | .error _ => throw (.explicit "Incorrectly programmed GPT.")

/-- The `match gpt.set(base_pa, gpi)` the arms make three times: `BadAddress` for
    `InvalidRequest`, a panic for a misprogrammed entry; and the table afterwards. -/
def setGranule (gpt : GranuleProtection) (basePa : Nat) (gpi : GPIAccessType) :
    Except Panic (Except RmmCommandReturnCode Unit × GranuleProtection) := do
  match ← gpt.set basePa gpi with
  | (.ok (), gpt') => return (.ok (), gpt')
  | (.error .invalidRequest, gpt') => return (.error .badAddress, gpt')
  | (.error _, _) => throw (.explicit "Incorrectly programmed GPT.")

/-- The `GtsiDelegate` arm of `Rmmd::try_handle_realm_smc`. -/
def gtsiDelegate (sctlrC : Bool) (gpt : GranuleProtection) (basePa : Nat) :
    Except Panic (Exit × GranuleProtection) := do
  let pgs := gpt.pgs
  if basePa % pgs ≠ 0 then return (.status .unknown, gpt)
  if !sctlrC then throw (.assertFailed "sctlr.contains(SctlrEl3::C)")
  match ← lookupGranule gpt basePa with
  | .error code => return (.status code, gpt)
  | .ok gpi =>
    -- only NonSecure granules can be delegated
    if gpi ≠ .nonSecure then return (.status .badPas, gpt)
    match flushDcacheToPopaRange basePa pgs .realm with
    | .error _ => return (.err .badAddress, gpt)
    | .ok () =>
      match ← setGranule gpt basePa .realm with
      | (.error code, gpt) => return (.status code, gpt)
      | (.ok (), gpt) =>
        match flushDcacheToPopaRange basePa pgs .nonSecure with
        | .error _ => return (.err .badAddress, gpt)
        | .ok () => return (.status .ok, gpt)

/-- The `GtsiUndelegate` arm of `Rmmd::try_handle_realm_smc`. -/
def gtsiUndelegate (sctlrC : Bool) (gpt : GranuleProtection) (basePa : Nat) :
    Except Panic (Exit × GranuleProtection) := do
  let pgs := gpt.pgs
  if basePa % pgs ≠ 0 then return (.status .unknown, gpt)
  if !sctlrC then throw (.assertFailed "sctlr.contains(SctlrEl3::C)")
  match ← lookupGranule gpt basePa with
  | .error code => return (.status code, gpt)
  | .ok gpi =>
    -- only Realm granules can be undelegated
    if gpi ≠ .realm then return (.status .badPas, gpt)
    -- remove access first, so that no write to the Realm PAS is later visible
    match ← setGranule gpt basePa .noAccess with
    | (.error code, gpt) => return (.status code, gpt)
    | (.ok (), gpt) =>
      match flushDcacheToPopaRange basePa pgs .realm with
      | .error _ => return (.err .badAddress, gpt)
      | .ok () =>
        match flushDcacheToPopaRange basePa pgs .nonSecure with
        | .error _ => return (.err .badAddress, gpt)
        | .ok () =>
          match ← setGranule gpt basePa .nonSecure with
          | (.error code, gpt) => return (.status code, gpt)
          | (.ok (), gpt) => return (.status .ok, gpt)

/-- The GTSI calls of `RmmCall`, as `RmmCall::from_regs` parses them from `x0` and `x1`. -/
inductive GtsiCall where
  | gtsiDelegate (basePa : Nat)
  | gtsiUndelegate (basePa : Nat)
  deriving DecidableEq, Repr

/-- `try_handle_realm_smc` on a GTSI call. -/
def handleGtsi (sctlrC : Bool) : GtsiCall → GranuleProtection →
    Except Panic (Exit × GranuleProtection)
  | .gtsiDelegate basePa, gpt => gtsiDelegate sctlrC gpt basePa
  | .gtsiUndelegate basePa, gpt => gtsiUndelegate sctlrC gpt basePa

/-! ### What a GTSI call is for -/

/-- The PAS a GTSI call moves its granule from. -/
def GtsiCall.src : GtsiCall → GPIAccessType
  | .gtsiDelegate _ => .nonSecure
  | .gtsiUndelegate _ => .realm

/-- The PAS a GTSI call moves its granule to. -/
def GtsiCall.dst : GtsiCall → GPIAccessType
  | .gtsiDelegate _ => .realm
  | .gtsiUndelegate _ => .nonSecure

def GtsiCall.basePa : GtsiCall → Nat
  | .gtsiDelegate basePa => basePa
  | .gtsiUndelegate basePa => basePa

/-- The contract of a call that moves the granule at `basePa` from the PAS `src` to `dst`, with
    status `r` and table `g'` afterwards: it succeeds exactly on an aligned, protected granule
    described by a granule descriptor whose GPI is `src`, and then gives it `dst`; it changes no
    other granule's GPI; and a call that fails changes nothing. -/
structure MovesGranule (src dst : GPIAccessType) (g : GranuleProtection) (basePa : Nat)
    (r : RmmCommandReturnCode) (g' : GranuleProtection) : Prop where
  ok_iff : r = .ok ↔ basePa % g.pgs = 0 ∧ basePa < g.config.pps.size ∧
    g.granuleDescribed basePa ∧ g.lookup basePa = .ok (.ok src)
  moved : r = .ok → g'.lookup basePa = .ok (.ok dst)
  frame : ∀ pa, pa >>> g.config.pgs.width ≠ basePa >>> g.config.pgs.width →
    g'.lookup pa = g.lookup pa
  unchanged : r ≠ .ok → g' = g
  codes : r = .ok ∨ r = .unknown ∨ r = .badAddress ∨ r = .badPas

namespace MovesGranule

variable {src dst : GPIAccessType} {g : GranuleProtection} {basePa : Nat}

/-- A call that fails with one of the codes and leaves the table as it was meets the contract
    when one of the conditions for success fails. -/
theorem of_unchanged {r : RmmCommandReturnCode}
    (hr : r = .unknown ∨ r = .badAddress ∨ r = .badPas)
    (hnot : ¬ (basePa % g.pgs = 0 ∧ basePa < g.config.pps.size ∧
      g.granuleDescribed basePa ∧ g.lookup basePa = .ok (.ok src))) :
    MovesGranule src dst g basePa r g := by
  have hne : r ≠ .ok := by rcases hr with rfl | rfl | rfl <;> decide
  exact ⟨⟨fun h => absurd h hne, fun h => absurd h hnot⟩, fun h => absurd h hne,
    fun _ _ => rfl, fun _ => rfl, Or.inr hr⟩

/-- A call that succeeds, on a granule meeting the conditions, into a table that gives the
    granule `dst` and every other granule its old GPI, meets the contract. -/
theorem of_moved {g' : GranuleProtection}
    (hcond : basePa % g.pgs = 0 ∧ basePa < g.config.pps.size ∧
      g.granuleDescribed basePa ∧ g.lookup basePa = .ok (.ok src))
    (hmoved : g'.lookup basePa = .ok (.ok dst))
    (hframe : ∀ pa, pa >>> g.config.pgs.width ≠ basePa >>> g.config.pgs.width →
      g'.lookup pa = g.lookup pa) :
    MovesGranule src dst g basePa .ok g' :=
  ⟨⟨fun _ => hcond, fun _ => rfl⟩, fun _ => hmoved, hframe, fun h => absurd rfl h, Or.inl rfl⟩

end MovesGranule

/-! ### The steps of the handlers -/

section Steps

variable {g : GranuleProtection}

/-- Every protected address clears the top byte that `flush_dcache_to_popa_range` checks. -/
theorem flushDcacheToPopaRange_ok {addr : Nat} (h : addr < g.config.pps.size) (len : Nat)
    {gpi : GPIAccessType} (hg : gpi = .realm ∨ gpi = .nonSecure) :
    flushDcacheToPopaRange addr len gpi = .ok () := by
  have hsize : g.config.pps.size ≤ 2 ^ 56 := by
    rw [GranuleProtectionConfig.size_eq]
    exact Nat.pow_le_pow_right (by decide) (by cases g.config.pps <;> decide)
  have htop : addr &&& 0xFF00_0000_0000_0000 = 0 := by
    rw [show (0xFF00_0000_0000_0000 : Nat) = 0xFF <<< 56 by decide]
    exact Word.and_shiftLeft_eq_zero_of_lt (lt_of_lt_of_le h hsize) _
  rcases hg with rfl | rfl <;> simp [flushDcacheToPopaRange, htop, PhysicalAddressSpace.tryFrom]

/-- On a programmed table the lookup of a protected address yields its GPI. -/
theorem lookupGranule_of_lt (hc : g.config.Accepted) (hp : g.Programmed) {pa : Nat}
    (hpa : pa < g.config.pps.size) :
    ∃ gpi, g.lookup pa = .ok (.ok gpi) ∧ lookupGranule g pa = .ok (.ok gpi) := by
  obtain ⟨gpi, hl⟩ := GranuleProtection.lookup_ok hc hp hpa
  exact ⟨gpi, hl, by simp [lookupGranule, hl]⟩

theorem lookupGranule_of_ge {pa : Nat} (h : g.config.pps.size ≤ pa) :
    lookupGranule g pa = .ok (.error .badAddress) := by
  simp [lookupGranule, GranuleProtection.lookup_of_ge h]

theorem setGranule_of_set {pa : Nat} {gpi : GPIAccessType} {g' : GranuleProtection}
    (h : g.set pa gpi = .ok (.ok (), g')) : setGranule g pa gpi = .ok (.ok (), g') := by
  simp [setGranule, h]

/-- On a programmed table `set` of a protected granule no granule descriptor describes ends the
    call with `BadAddress` and the table unchanged. -/
theorem setGranule_of_not_described (hc : g.config.Accepted) (hp : g.Programmed) {pa : Nat}
    (hpa : pa < g.config.pps.size) (hd : g.granuleDescribed pa = false) (gpi : GPIAccessType) :
    setGranule g pa gpi = .ok (.error .badAddress, g) := by
  simp [setGranule, GranuleProtection.set_of_not_described hc hp hpa hd gpi]

end Steps

/-! ### The two arms -/

section Arms

variable {g : GranuleProtection}

open GranuleProtection in
/-- DELEGATE with caches enabled, on a programmed table: it does not panic, it moves the granule
    from `NonSecure` to `Realm` as the contract says, and it leaves a programmed table of the same
    configuration. -/
theorem gtsiDelegate_moves (hc : g.config.Accepted) (hp : g.Programmed) (basePa : Nat) :
    ∃ r g', gtsiDelegate true g basePa = .ok (r, g') ∧
      MovesGranule .nonSecure .realm g basePa r.code g' ∧ g'.config = g.config ∧
      g'.Programmed := by
  by_cases halign : basePa % g.pgs = 0
  swap
  · -- misaligned: `Unknown`
    exact ⟨.status .unknown, g, by simp [gtsiDelegate, halign],
      MovesGranule.of_unchanged (.inl rfl) (fun h => halign h.1), rfl, hp⟩
  by_cases hpa : basePa < g.config.pps.size
  swap
  · -- not protected: `BadAddress`
    exact ⟨.status .badAddress, g,
      by simp [gtsiDelegate, halign, lookupGranule_of_ge (Nat.le_of_not_lt hpa)],
      MovesGranule.of_unchanged (.inr (.inl rfl)) (fun h => hpa h.2.1), rfl, hp⟩
  obtain ⟨gpi, hl, hlg⟩ := lookupGranule_of_lt hc hp hpa
  by_cases hns : gpi = .nonSecure
  swap
  · -- another PAS: `BadPas`
    exact ⟨.status .badPas, g, by simp [gtsiDelegate, halign, hlg, hns],
      MovesGranule.of_unchanged (.inr (.inr rfl)) (fun h => hns (by simpa [hl] using h.2.2.2)), rfl, hp⟩
  subst hns
  have hf := flushDcacheToPopaRange_ok hpa g.pgs (.inl rfl)
  have hf' := flushDcacheToPopaRange_ok hpa g.pgs (.inr rfl)
  cases hd : g.granuleDescribed basePa
  · -- a block or a contiguous descriptor: `set` refuses, `BadAddress`
    exact ⟨.status .badAddress, g,
      by simp [gtsiDelegate, halign, hlg, hf, setGranule_of_not_described hc hp hpa hd],
      MovesGranule.of_unchanged (.inr (.inl rfl)) (fun h => by simp [hd] at h), rfl, hp⟩
  · -- a granule descriptor: the granule moves
    obtain ⟨g', hs⟩ := set_of_described hc hp.toWellFormed hpa hd .realm
    exact ⟨.status .ok, g', by simp [gtsiDelegate, halign, hlg, hf, hf', setGranule_of_set hs],
      MovesGranule.of_moved ⟨halign, hpa, hd, hl⟩ (lookup_set_self hs)
        (fun _ hne => lookup_set_frame hp.toWellFormed hs hne),
      (set_ok_level0_config hs).2, set_programmed hp hs⟩

open GranuleProtection in
/-- UNDELEGATE with caches enabled, on a programmed table: it does not panic, it moves the
    granule from `Realm` to `NonSecure` through `NoAccess`, and it leaves a programmed table of
    the same configuration. The second `set` cannot fail: the first one left the granule described
    by a granule descriptor. -/
theorem gtsiUndelegate_moves (hc : g.config.Accepted) (hp : g.Programmed) (basePa : Nat) :
    ∃ r g', gtsiUndelegate true g basePa = .ok (r, g') ∧
      MovesGranule .realm .nonSecure g basePa r.code g' ∧ g'.config = g.config ∧
      g'.Programmed := by
  by_cases halign : basePa % g.pgs = 0
  swap
  · -- misaligned: `Unknown`
    exact ⟨.status .unknown, g, by simp [gtsiUndelegate, halign],
      MovesGranule.of_unchanged (.inl rfl) (fun h => halign h.1), rfl, hp⟩
  by_cases hpa : basePa < g.config.pps.size
  swap
  · -- not protected: `BadAddress`
    exact ⟨.status .badAddress, g,
      by simp [gtsiUndelegate, halign, lookupGranule_of_ge (Nat.le_of_not_lt hpa)],
      MovesGranule.of_unchanged (.inr (.inl rfl)) (fun h => hpa h.2.1), rfl, hp⟩
  obtain ⟨gpi, hl, hlg⟩ := lookupGranule_of_lt hc hp hpa
  by_cases hrealm : gpi = .realm
  swap
  · -- another PAS: `BadPas`
    exact ⟨.status .badPas, g, by simp [gtsiUndelegate, halign, hlg, hrealm],
      MovesGranule.of_unchanged (.inr (.inr rfl)) (fun h => hrealm (by simpa [hl] using h.2.2.2)), rfl,
      hp⟩
  subst hrealm
  cases hd : g.granuleDescribed basePa
  · -- a block or a contiguous descriptor: the first `set` refuses, `BadAddress`
    exact ⟨.status .badAddress, g,
      by simp [gtsiUndelegate, halign, hlg, setGranule_of_not_described hc hp hpa hd],
      MovesGranule.of_unchanged (.inr (.inl rfl)) (fun h => by simp [hd] at h), rfl, hp⟩
  · -- a granule descriptor: `NoAccess`, then `NonSecure`
    obtain ⟨g₁, hs₁⟩ := set_of_described hc hp.toWellFormed hpa hd .noAccess
    have hc₁ := (set_ok_level0_config hs₁).2
    have hp₁ := set_programmed hp hs₁
    obtain ⟨g₂, hs₂⟩ := set_of_described (hc₁ ▸ hc) hp₁.toWellFormed (hc₁ ▸ hpa)
      (granuleDescribed_of_set hs₁) .nonSecure
    have hf := flushDcacheToPopaRange_ok hpa g.pgs (.inl rfl)
    have hf' := flushDcacheToPopaRange_ok hpa g.pgs (.inr rfl)
    refine ⟨.status .ok, g₂,
      by simp [gtsiUndelegate, halign, hlg, setGranule_of_set hs₁, hf, hf', setGranule_of_set hs₂],
      MovesGranule.of_moved ⟨halign, hpa, hd, hl⟩ (lookup_set_self hs₂) ?_,
      (set_ok_level0_config hs₂).2.trans hc₁, set_programmed hp₁ hs₂⟩
    -- another granule keeps its GPI through both writes
    intro pa hne
    have hne₁ : pa >>> g₁.config.pgs.width ≠ basePa >>> g₁.config.pgs.width := by
      rw [hc₁]; exact hne
    exact (lookup_set_frame hp₁.toWellFormed hs₂ hne₁).trans
      (lookup_set_frame hp.toWellFormed hs₁ hne)

/-- Either GTSI call, with caches enabled, on a programmed table. -/
theorem handleGtsi_moves (hc : g.config.Accepted) (hp : g.Programmed) (call : GtsiCall) :
    ∃ r g', handleGtsi true call g = .ok (r, g') ∧
      MovesGranule call.src call.dst g call.basePa r.code g' ∧ g'.config = g.config ∧
      g'.Programmed := by
  cases call with
  | gtsiDelegate basePa => exact gtsiDelegate_moves hc hp basePa
  | gtsiUndelegate basePa => exact gtsiUndelegate_moves hc hp basePa

end Arms

/-! ### Sequences of calls -/

/-- One GTSI call with caches enabled, as a step of the table. -/
def GtsiStep (g : GranuleProtection) (call : GtsiCall) (g' : GranuleProtection) : Prop :=
  ∃ r, handleGtsi true call g = .ok (r, g')

/-- Every table that GTSI calls reach from a programmed one is programmed, with the same
    configuration. -/
theorem reachable_programmed {g₀ g : GranuleProtection} (hc : g₀.config.Accepted)
    (hp : g₀.Programmed) (hr : Transition.Reachable GtsiStep g₀ g) :
    g.config = g₀.config ∧ g.Programmed := by
  refine hr.invariant (I := fun s => s.config = g₀.config ∧ s.Programmed) ⟨rfl, hp⟩ ?_
  rintro s call s' ⟨hcfg, hps⟩ ⟨r, hstep⟩
  obtain ⟨r', s'', hstep', -, hcfg', hps'⟩ := handleGtsi_moves (hcfg ▸ hc) hps call
  rw [hstep] at hstep'
  simp only [Except.ok.injEq, Prod.mk.injEq] at hstep'
  obtain ⟨-, rfl⟩ := hstep'
  exact ⟨hcfg'.trans hcfg, hps'⟩

/-- Granule delegation over sequences of calls: in every table that GTSI calls with caches
    enabled reach from a programmed table, every further DELEGATE or UNDELEGATE, at any
    `base_pa`, returns without panicking and moves exactly its own granule between the
    Non-secure and Realm PAS, or fails and changes nothing. -/
theorem gtsi_calls_move_one_granule {g₀ g : GranuleProtection} (hc : g₀.config.Accepted)
    (hp : g₀.Programmed) (hr : Transition.Reachable GtsiStep g₀ g) (call : GtsiCall) :
    ∃ r g', handleGtsi true call g = .ok (r, g') ∧
      MovesGranule call.src call.dst g call.basePa r.code g' := by
  obtain ⟨hcfg, hpg⟩ := reachable_programmed hc hp hr
  obtain ⟨r, g', hh, hm, -⟩ := handleGtsi_moves (hcfg ▸ hc) hpg call
  exact ⟨r, g', hh, hm⟩

/-- On a table of Non-secure granules, `GTSI_DELEGATE` of the granule at `0x1000` succeeds; from
    the table it leaves, `GTSI_UNDELEGATE` of the same granule succeeds and moves it back. -/
theorem gtsi_calls_move_one_granule_undelegate :
    GranuleProtection.exampleNsGpt.config.Accepted ∧ GranuleProtection.exampleNsGpt.Programmed ∧
      ∃ g₁, handleGtsi true (.gtsiDelegate 0x1000) GranuleProtection.exampleNsGpt =
          .ok (.status .ok, g₁) ∧
        Transition.Reachable GtsiStep GranuleProtection.exampleNsGpt g₁ ∧
        ∃ r g', handleGtsi true (.gtsiUndelegate 0x1000) g₁ = .ok (r, g') ∧
          MovesGranule .realm .nonSecure g₁ 0x1000 r.code g' ∧ r.code = .ok := by
  obtain ⟨g₁, hdelegate, g₂, hundelegate⟩ : ∃ g₁,
      handleGtsi true (.gtsiDelegate 0x1000) GranuleProtection.exampleNsGpt =
        .ok (.status .ok, g₁) ∧
      ∃ g₂, handleGtsi true (.gtsiUndelegate 0x1000) g₁ = .ok (.status .ok, g₂) :=
    ⟨_, rfl, _, rfl⟩
  have hr : Transition.Reachable GtsiStep GranuleProtection.exampleNsGpt g₁ :=
    Transition.Reachable.tail (.refl _) ⟨_, hdelegate⟩
  obtain ⟨r, g', hh, hm⟩ := gtsi_calls_move_one_granule (by decide)
    GranuleProtection.exampleNsGpt_programmed hr (.gtsiUndelegate 0x1000)
  obtain ⟨rfl, -⟩ := Prod.mk.inj (Except.ok.inj (hh.symm.trans hundelegate))
  exact ⟨by decide, GranuleProtection.exampleNsGpt_programmed, g₁, hdelegate, hr, _, g', hh, hm,
    rfl⟩

end RustedFirmware.Rmmd
