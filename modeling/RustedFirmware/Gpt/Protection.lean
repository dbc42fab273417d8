import RustedFirmware.Gpt.Table

set_option autoImplicit false

/-! The Granule Protection Table walk (`src/gpt.rs`): `GranuleProtection::set` and `lookup`.

    A physical address is split by the configuration into three indices: bits
    `[l0gptsz, pps)` select the level 0 entry (`l0_resolve`), bits `[pgs + 4, l0gptsz)` the
    level 1 descriptor inside that entry's table (`l1_resolve`), and bits `[pgs, pgs + 4)` the
    4-bit GPI field inside the descriptor (`granule_resolve`). The level 1 tables live in
    physical memory, modelled as the 64-bit word stored at each byte address; a table
    descriptor's table is the `1 << (l0gptsz - (pgs + 4))` words from its address on. `PA` is
    `usize`, modelled as `Nat`: every index is computed after the check `pa < pps.size()`.

    The main result, `set_lookup_agree`, is the contract of the pair: the walk stays in bounds,
    `set` writes exactly the granule it is given, fails without writing, and `lookup` depends only
    on the granule an address lies in. -/

namespace RustedFirmware.Gpt

open Rust

/-- `GranuleError`. -/
inductive GranuleError where
  | invalidRequest | invalidL0Entry | invalidL1Entry
  deriving DecidableEq, Repr

/-- Protected Physical Address Size (`ProtectedPhysicalAddressSize`). -/
inductive ProtectedPhysicalAddressSize where
  | gb4 | gb64 | tb1 | tb4 | tb16 | tb256 | pb4
  deriving DecidableEq, Repr

def ProtectedPhysicalAddressSize.width : ProtectedPhysicalAddressSize → Nat
  | gb4 => 32
  | gb64 => 36
  | tb1 => 40
  | tb4 => 42
  | tb16 => 44
  | tb256 => 48
  | pb4 => 52

def ProtectedPhysicalAddressSize.size (p : ProtectedPhysicalAddressSize) : Nat := 0x1 <<< p.width

/-- Size of the region one level 0 entry covers (`Level0GptSize`). -/
inductive Level0GptSize where
  | gb1 | gb16 | gb64 | gb512
  deriving DecidableEq, Repr

def Level0GptSize.width : Level0GptSize → Nat
  | gb1 => 30
  | gb16 => 34
  | gb64 => 36
  | gb512 => 39

/-- Physical Granule size (`PhysicalGranuleSize`). -/
inductive PhysicalGranuleSize where
  | kb4 | kb64 | kb16
  deriving DecidableEq, Repr

def PhysicalGranuleSize.width : PhysicalGranuleSize → Nat
  | kb4 => 12
  | kb16 => 14
  | kb64 => 16

def PhysicalGranuleSize.size (p : PhysicalGranuleSize) : Nat := 0x1 <<< p.width

/-- `GranuleProtectionConfig`. -/
structure GranuleProtectionConfig where
  pps : ProtectedPhysicalAddressSize
  l0gptsz : Level0GptSize
  pgs : PhysicalGranuleSize
  deriving DecidableEq, Repr

namespace GranuleProtectionConfig

/-- `mask!(len)`, the low `len` bits. -/
def lowMask (len : Nat) : Nat := (1 <<< len) - 1

def l0Resolve (c : GranuleProtectionConfig) (pa : Nat) : Nat :=
  (pa &&& lowMask c.pps.width) >>> c.l0gptsz.width

def l1Resolve (c : GranuleProtectionConfig) (pa : Nat) : Nat :=
  (pa &&& lowMask c.l0gptsz.width) >>> (c.pgs.width + 4)

def granuleResolve (c : GranuleProtectionConfig) (pa : Nat) : Nat :=
  (pa >>> c.pgs.width) &&& 0xF

/-- Entries of a level 1 table, the slice length of `to_table`. -/
def l1TableLen (c : GranuleProtectionConfig) : Nat := 1 <<< (c.l0gptsz.width - (c.pgs.width + 4))

/-- The configurations `discover` accepts: `pps.width().checked_sub(l0gptsz.width())` succeeds. -/
def Accepted (c : GranuleProtectionConfig) : Prop := c.l0gptsz.width ≤ c.pps.width

instance : DecidablePred Accepted := fun _ => inferInstanceAs (Decidable (_ ≤ _))

/-- Every level 0 region holds at least one level 1 descriptor's sixteen granules. -/
theorem granule_field_le (c : GranuleProtectionConfig) : c.pgs.width + 4 ≤ c.l0gptsz.width := by
  cases c.pgs <;> cases c.l0gptsz <;> decide

theorem granule_le_pps (c : GranuleProtectionConfig) : c.pgs.width ≤ c.pps.width := by
  cases c.pgs <;> cases c.pps <;> decide

/-! ### The three indices as fields of the granule number `pa >>> pgs` -/

section Resolve

variable (c : GranuleProtectionConfig)

theorem size_eq : c.pps.size = 2 ^ c.pps.width := by
  simp [ProtectedPhysicalAddressSize.size, Nat.one_shiftLeft]

theorem l1TableLen_eq : c.l1TableLen = 2 ^ (c.l0gptsz.width - (c.pgs.width + 4)) := by
  simp [l1TableLen, Nat.one_shiftLeft]

theorem lowMask_eq (len : Nat) : lowMask len = 2 ^ len - 1 := by
  simp [lowMask, Nat.one_shiftLeft]

theorem l0Resolve_eq {pa : Nat} (h : pa < c.pps.size) :
    c.l0Resolve pa = (pa >>> c.pgs.width) / 2 ^ (c.l0gptsz.width - c.pgs.width) := by
  have hle : c.pgs.width ≤ c.l0gptsz.width := by have := c.granule_field_le; omega
  rw [size_eq] at h
  rw [l0Resolve, lowMask_eq, Nat.and_two_pow_sub_one_eq_mod, Nat.mod_eq_of_lt h,
    Nat.shiftRight_eq_div_pow, Nat.shiftRight_eq_div_pow, Nat.div_div_eq_div_mul, ← Nat.pow_add,
    Nat.add_sub_cancel' hle]

theorem l1Resolve_eq (pa : Nat) :
    c.l1Resolve pa = (pa >>> c.pgs.width) % 2 ^ (c.l0gptsz.width - c.pgs.width) / 16 := by
  have hle : c.pgs.width ≤ c.l0gptsz.width := by have := c.granule_field_le; omega
  have hsplit : 2 ^ c.l0gptsz.width = 2 ^ c.pgs.width * 2 ^ (c.l0gptsz.width - c.pgs.width) := by
    rw [← Nat.pow_add, Nat.add_sub_cancel' hle]
  rw [l1Resolve, lowMask_eq, Nat.and_two_pow_sub_one_eq_mod, Nat.shiftRight_eq_div_pow,
    Nat.shiftRight_eq_div_pow, Nat.pow_add, ← Nat.div_div_eq_div_mul, hsplit,
    Nat.mod_mul_right_div_self]

theorem granuleResolve_eq (pa : Nat) : c.granuleResolve pa = (pa >>> c.pgs.width) % 16 :=
  Nat.and_two_pow_sub_one_eq_mod _ 4

theorem l0Resolve_lt (hc : c.Accepted) {pa : Nat} (h : pa < c.pps.size) :
    c.l0Resolve pa < 1 <<< (c.pps.width - c.l0gptsz.width) := by
  rw [size_eq] at h
  rw [l0Resolve, lowMask_eq, Nat.and_two_pow_sub_one_eq_mod, Nat.mod_eq_of_lt h,
    Nat.shiftRight_eq_div_pow, Nat.one_shiftLeft, Nat.div_lt_iff_lt_mul (Nat.two_pow_pos _),
    ← Nat.pow_add, Nat.sub_add_cancel hc]
  exact h

theorem l1Resolve_lt (pa : Nat) : c.l1Resolve pa < c.l1TableLen := by
  have hle := c.granule_field_le
  rw [l1Resolve, lowMask_eq, Nat.and_two_pow_sub_one_eq_mod, Nat.shiftRight_eq_div_pow,
    l1TableLen_eq, Nat.div_lt_iff_lt_mul (Nat.two_pow_pos _), ← Nat.pow_add, Nat.sub_add_cancel hle]
  exact Nat.mod_lt _ (Nat.two_pow_pos _)

theorem granuleResolve_lt (pa : Nat) : c.granuleResolve pa < 16 := by
  rw [granuleResolve_eq]
  exact Nat.mod_lt _ (by decide)

/-- Whether an address is protected depends only on its granule. -/
theorem lt_size_iff_of_granule_eq {pa pa' : Nat} (h : pa >>> c.pgs.width = pa' >>> c.pgs.width) :
    pa < c.pps.size ↔ pa' < c.pps.size := by
  have hsplit : 2 ^ c.pps.width = 2 ^ (c.pps.width - c.pgs.width) * 2 ^ c.pgs.width := by
    rw [← Nat.pow_add, Nat.sub_add_cancel c.granule_le_pps]
  have key : ∀ x, x < c.pps.size ↔ x >>> c.pgs.width < 2 ^ (c.pps.width - c.pgs.width) := by
    intro x
    rw [size_eq, Nat.shiftRight_eq_div_pow, Nat.div_lt_iff_lt_mul (Nat.two_pow_pos _), ← hsplit]
  rw [key, key, h]

/-- The three indices determine the granule: `q = l0 * 2^(l0gptsz - pgs) + l1 * 16 + field`. -/
theorem granule_eq_of_resolve_eq {pa pa' : Nat} (hpa : pa < c.pps.size) (hpa' : pa' < c.pps.size)
    (h0 : c.l0Resolve pa = c.l0Resolve pa') (h1 : c.l1Resolve pa = c.l1Resolve pa')
    (h2 : c.granuleResolve pa = c.granuleResolve pa') :
    pa >>> c.pgs.width = pa' >>> c.pgs.width := by
  have hdvd : 16 ∣ 2 ^ (c.l0gptsz.width - c.pgs.width) := by
    have := c.granule_field_le
    exact (Nat.pow_dvd_pow 2 (by omega : 4 ≤ c.l0gptsz.width - c.pgs.width))
  -- the granule number is the sum of its three fields
  have key : ∀ q, q = 2 ^ (c.l0gptsz.width - c.pgs.width) * (q / 2 ^ (c.l0gptsz.width - c.pgs.width))
      + 16 * (q % 2 ^ (c.l0gptsz.width - c.pgs.width) / 16) + q % 16 := by
    intro q
    have e1 := Nat.div_add_mod q (2 ^ (c.l0gptsz.width - c.pgs.width))
    have e2 := Nat.div_add_mod (q % 2 ^ (c.l0gptsz.width - c.pgs.width)) 16
    rw [Nat.mod_mod_of_dvd _ hdvd] at e2
    omega
  rw [l0Resolve_eq c hpa, l0Resolve_eq c hpa'] at h0
  rw [l1Resolve_eq, l1Resolve_eq] at h1
  rw [granuleResolve_eq, granuleResolve_eq] at h2
  rw [key (pa >>> c.pgs.width), key (pa' >>> c.pgs.width), h0, h1, h2]

end Resolve

end GranuleProtectionConfig

/-- `GranuleProtection`: the level 0 table, the physical memory holding the level 1 tables, and
    the configuration. -/
structure GranuleProtection where
  level0 : List Level0Descriptor
  memory : Nat → Level1Descriptor
  config : GranuleProtectionConfig

namespace GranuleProtection

/-- `GranuleProtection::pgs`. -/
def pgs (g : GranuleProtection) : Nat := g.config.pgs.size

/-- `l0_entry.to_table(&config)[i]`: the `i`-th descriptor of a table, read from memory. -/
def l1Entry (g : GranuleProtection) (t : TableDescriptorRef) (i : Nat) :
    Except Panic Level1Descriptor :=
  if i < g.config.l1TableLen then .ok (g.memory (t.address + 8 * i)) else .error .indexOutOfBounds

/-- `GranuleProtection::set`: the result and the table afterwards. The barriers and the TLB
    invalidation that follow the write do not change the table. -/
def set (g : GranuleProtection) (basePa : Nat) (gpi : GPIAccessType) :
    Except Panic (Except GranuleError Unit × GranuleProtection) := do
  if basePa ≥ g.config.pps.size then return (.error .invalidRequest, g)
  let l0Entry ← index g.level0 (g.config.l0Resolve basePa)
  -- changing the GPI of an L0 block descriptor is not supported
  if l0Entry.asBlock.isSome then return (.error .invalidRequest, g)
  match l0Entry.asTable with
  | none => return (.error .invalidL0Entry, g)
  | some t =>
    let l1Idx := g.config.l1Resolve basePa
    let l1Desc ← g.l1Entry t l1Idx
    -- contiguous descriptors are not supported
    if l1Desc.asContig.isSome then return (.error .invalidRequest, g)
    match l1Desc.asGranule with
    | none => return (.error .invalidL1Entry, g)
    | some gran =>
      let d ← gran.setGpi (g.config.granuleResolve basePa) gpi
      return (.ok (), { g with memory := Function.update g.memory (t.address + 8 * l1Idx) d })

/-- The level 1 half of `GranuleProtection::lookup`, from the descriptor on: a contiguous
    descriptor's GPI, or the GPI field `idx` of a granule descriptor. -/
def lookupL1 (l1Desc : Level1Descriptor) (idx : Nat) :
    Except Panic (Except GranuleError GPIAccessType) := do
  match l1Desc.asContig with
  | some contig => return .ok (← contig.gpi)
  | none =>
    match l1Desc.asGranule with
    | none => return .error .invalidL1Entry
    | some granule =>
      match ← granule.gpi idx with
      | some gpi => return .ok gpi
      | none => return .error .invalidL1Entry

/-- `GranuleProtection::lookup`. -/
def lookup (g : GranuleProtection) (basePa : Nat) :
    Except Panic (Except GranuleError GPIAccessType) := do
  if basePa ≥ g.config.pps.size then return .error .invalidRequest
  let l0Entry ← index g.level0 (g.config.l0Resolve basePa)
  match l0Entry.asBlock with
  | some block => return .ok (← block.gpi)
  | none =>
    match l0Entry.asTable with
    | none => return .error .invalidL0Entry
    | some t =>
      let l1Desc ← g.l1Entry t (g.config.l1Resolve basePa)
      lookupL1 l1Desc (g.config.granuleResolve basePa)

/-- A table state as `discover` finds it and the safety comments of `to_table` assume: a level 0
    table of `2^(pps - l0gptsz)` entries, each a block or a table descriptor, and distinct table
    descriptors pointing to disjoint level 1 tables. -/
structure WellFormed (g : GranuleProtection) : Prop where
  level0_length : g.level0.length = 1 <<< (g.config.pps.width - g.config.l0gptsz.width)
  entry_kind : ∀ e ∈ g.level0, e.asBlock.isSome ∨ e.asTable.isSome
  disjoint : ∀ (i j : Nat) (hi : i < g.level0.length) (hj : j < g.level0.length)
    (t t' : TableDescriptorRef), i ≠ j → g.level0[i].asTable = some t →
    g.level0[j].asTable = some t' →
    t.address + 8 * g.config.l1TableLen ≤ t'.address ∨
      t'.address + 8 * g.config.l1TableLen ≤ t.address

/-! ### The level 1 read -/

section L1

variable {d : Level1Descriptor}

theorem asGranule_of_isSome (hd : d.asGranule.isSome) : d.asGranule = some ⟨d⟩ := by
  unfold Level1Descriptor.asGranule at hd ⊢
  split_ifs at hd ⊢ with h
  · rfl
  · simp at hd

/-- A granule descriptor is read through its GPI field `idx`. -/
theorem lookupL1_of_granule (hd : d.asGranule.isSome) {idx : Nat} (hidx : idx < 16) :
    lookupL1 d idx = .ok (match GPIAccessType.tryFrom (d.field idx) with
      | some gpi => .ok gpi
      | none => .error .invalidL1Entry) := by
  simp only [lookupL1, Level1Descriptor.asContig_eq_none_of_asGranule hd, asGranule_of_isSome hd,
    GranuleDescriptorRef.gpi, if_pos hidx, ok_bind]
  split <;> rfl

/-- The only panic of the level 1 read is the `unwrap` of a contiguous descriptor's GPI. -/
theorem lookupL1_panic {idx : Nat} (hidx : idx < 16) {p : Panic} (h : lookupL1 d idx = .error p) :
    p = .unwrapFailed := by
  unfold lookupL1 at h
  split at h
  · rename_i contig _
    unfold ContiguousDescriptorRef.gpi at h
    split at h <;> simp_all
  · split at h
    · simp at h
    · simp only [GranuleDescriptorRef.gpi, if_pos hidx, ok_bind] at h
      split at h <;> simp at h

/-- Writing a GPI into a field of a granule descriptor leaves a granule descriptor: field 0,
    the one `as_granule` inspects, is either the written GPI or unchanged. -/
theorem isGranule_of_field_zero (hd : d.asGranule.isSome) {d' : Level1Descriptor} {idx : Nat}
    {value : GPIAccessType} (h0 : d'.field 0 = if 0 = idx then value.bits else d.field 0) :
    d'.asGranule.isSome := by
  rw [Level1Descriptor.field_zero, Level1Descriptor.field_zero] at h0
  unfold Level1Descriptor.asGranule at hd ⊢
  split_ifs at hd with hg
  · rw [h0]
    by_cases h : 0 = idx
    · simp [h]
    · simp [h, hg]
  · simp at hd

end L1

/-! ### Walking the table -/

section Walk

variable {g : GranuleProtection}

theorem index_eq_ok_iff {α : Type} {xs : List α} {i : Nat} {a : α} :
    index xs i = .ok a ↔ xs[i]? = some a := by
  unfold index
  split <;> simp_all

theorem l1Entry_of_lt (t : TableDescriptorRef) {i : Nat} (hi : i < g.config.l1TableLen) :
    g.l1Entry t i = .ok (g.memory (t.address + 8 * i)) := by
  simp [l1Entry, hi]

/-- A protected address resolves to an entry of the level 0 table. -/
theorem WellFormed.l0Resolve_lt (hw : g.WellFormed) (hc : g.config.Accepted) {pa : Nat}
    (hpa : pa < g.config.pps.size) : g.config.l0Resolve pa < g.level0.length := by
  rw [hw.level0_length]
  exact g.config.l0Resolve_lt hc hpa

theorem lookup_of_ge {pa : Nat} (h : g.config.pps.size ≤ pa) :
    g.lookup pa = .ok (.error .invalidRequest) := by
  simp [lookup, h]

/-- Along a table descriptor, `lookup` is the level 1 read of the resolved descriptor. -/
theorem lookup_of_table {pa : Nat} (hpa : pa < g.config.pps.size) {e : Level0Descriptor}
    (he : g.level0[g.config.l0Resolve pa]? = some e) (hb : e.asBlock = none)
    {t : TableDescriptorRef} (ht : e.asTable = some t) :
    g.lookup pa = lookupL1 (g.memory (t.address + 8 * g.config.l1Resolve pa))
      (g.config.granuleResolve pa) := by
  have hidx : index g.level0 (g.config.l0Resolve pa) = .ok e := index_eq_ok_iff.mpr he
  simp [lookup, Nat.not_le.mpr hpa, hidx, hb, ht, l1Entry_of_lt t (g.config.l1Resolve_lt pa)]

/-- `lookup` reads an address only through its three indices. -/
theorem lookup_congr {pa pa' : Nat} (hs : pa < g.config.pps.size ↔ pa' < g.config.pps.size)
    (hr : pa < g.config.pps.size → g.config.l0Resolve pa = g.config.l0Resolve pa' ∧
      g.config.l1Resolve pa = g.config.l1Resolve pa' ∧
      g.config.granuleResolve pa = g.config.granuleResolve pa') :
    g.lookup pa = g.lookup pa' := by
  by_cases hpa : pa < g.config.pps.size
  · obtain ⟨h0, h1, h2⟩ := hr hpa
    have hpa' := hs.mp hpa
    simp only [lookup, ge_iff_le, Nat.not_le.mpr hpa, Nat.not_le.mpr hpa', if_false, h0, h1, h2]
  · rw [lookup_of_ge (Nat.le_of_not_lt hpa),
      lookup_of_ge (Nat.le_of_not_lt (fun h => hpa (hs.mpr h)))]

/-- The only panic of `lookup` in a well-formed table is an `unwrap` of a block or contiguous
    descriptor's GPI: no index goes out of bounds. -/
theorem lookup_panic (hc : g.config.Accepted) (hw : g.WellFormed) {pa : Nat}
    (hpa : pa < g.config.pps.size) {p : Panic} (h : g.lookup pa = .error p) :
    p = .unwrapFailed := by
  have hlt := hw.l0Resolve_lt hc hpa
  simp only [lookup, ge_iff_le, Nat.not_le.mpr hpa, if_false, index_of_lt _ _ hlt, ok_bind] at h
  split at h
  · -- a block descriptor: the GPI accessor's `unwrap`
    rename_i block _
    unfold BlockDescriptorRef.gpi at h
    split at h <;> simp_all
  · split at h
    · simp at h
    · simp only [l1Entry_of_lt _ (g.config.l1Resolve_lt pa), ok_bind] at h
      exact lookupL1_panic (g.config.granuleResolve_lt pa) h

/-- What a successful `set` did: the address is protected, its level 0 entry is a table, its
    level 1 descriptor a granule descriptor, and afterwards memory holds that descriptor with
    field `granule_resolve pa` rewritten by `set_gpi`. -/
theorem set_ok_inv {pa : Nat} {gpi : GPIAccessType} {g' : GranuleProtection}
    (h : g.set pa gpi = .ok (.ok (), g')) :
    ∃ e t d', pa < g.config.pps.size ∧ g.level0[g.config.l0Resolve pa]? = some e ∧
      e.asBlock = none ∧ e.asTable = some t ∧
      (g.memory (t.address + 8 * g.config.l1Resolve pa)).asGranule.isSome ∧
      GranuleDescriptorRef.setGpi ⟨g.memory (t.address + 8 * g.config.l1Resolve pa)⟩
        (g.config.granuleResolve pa) gpi = .ok d' ∧
      g' = { g with memory :=
        Function.update g.memory (t.address + 8 * g.config.l1Resolve pa) d' } := by
  unfold set at h
  split_ifs at h with hge
  · simp at h
  cases hidx : index g.level0 (g.config.l0Resolve pa) with
  | error p => simp [hidx] at h
  | ok e =>
    simp only [hidx, ok_bind] at h
    split_ifs at h with hb
    · simp at h
    split at h
    · simp at h
    · rename_i t ht
      simp only [l1Entry_of_lt t (g.config.l1Resolve_lt pa), ok_bind] at h
      split_ifs at h with hcont
      · simp at h
      split at h
      · simp at h
      · rename_i gran hgran
        cases hd : gran.setGpi (g.config.granuleResolve pa) gpi with
        | error p => simp [hd] at h
        | ok d' =>
          simp only [hd, ok_bind, pure_eq_ok, Except.ok.injEq, Prod.mk.injEq] at h
          have hgran' := hgran
          unfold Level1Descriptor.asGranule at hgran'
          split_ifs at hgran' with hg
          cases hgran'
          refine ⟨e, t, d', Nat.lt_of_not_le hge, index_eq_ok_iff.mp hidx,
            Option.not_isSome_iff_eq_none.mp hb, ht, by simp [hgran], hd, h.2.symm⟩

/-- The descriptor a successful `set` writes is a granule descriptor holding `gpi` in field
    `granule_resolve pa` and the old fields elsewhere. -/
theorem set_ok_written {pa : Nat} {gpi : GPIAccessType} {g' : GranuleProtection}
    (h : g.set pa gpi = .ok (.ok (), g')) :
    ∃ e t d', pa < g.config.pps.size ∧ g.level0[g.config.l0Resolve pa]? = some e ∧
      e.asBlock = none ∧ e.asTable = some t ∧
      (g.memory (t.address + 8 * g.config.l1Resolve pa)).asGranule.isSome ∧
      d'.asGranule.isSome ∧
      (∀ j < 16, d'.field j = if j = g.config.granuleResolve pa then gpi.bits
        else (g.memory (t.address + 8 * g.config.l1Resolve pa)).field j) ∧
      g' = { g with memory :=
        Function.update g.memory (t.address + 8 * g.config.l1Resolve pa) d' } := by
  obtain ⟨e, t, d', hpa, he, hb, ht, hgr, hd, rfl⟩ := set_ok_inv h
  obtain ⟨d'', hd'', hfield⟩ :=
    GranuleDescriptorRef.setGpi_field ⟨g.memory (t.address + 8 * g.config.l1Resolve pa)⟩
      (g.config.granuleResolve_lt pa) gpi
  rw [hd] at hd''
  cases hd''
  exact ⟨e, t, d', hpa, he, hb, ht, hgr, isGranule_of_field_zero hgr (hfield 0 (by decide)),
    hfield, rfl⟩

/-- `set` never panics on a well-formed table: its two indexings stay in bounds and the field
    index is below 16. -/
theorem set_no_panic (hc : g.config.Accepted) (hw : g.WellFormed) {pa : Nat}
    (hpa : pa < g.config.pps.size) (gpi : GPIAccessType) :
    ∃ r g', g.set pa gpi = .ok (r, g') := by
  have hlt := hw.l0Resolve_lt hc hpa
  simp only [set, ge_iff_le, Nat.not_le.mpr hpa, if_false, index_of_lt _ _ hlt, ok_bind]
  split_ifs
  · exact ⟨_, _, rfl⟩
  split
  · exact ⟨_, _, rfl⟩
  · simp only [l1Entry_of_lt _ (g.config.l1Resolve_lt pa), ok_bind]
    split_ifs
    · exact ⟨_, _, rfl⟩
    split
    · exact ⟨_, _, rfl⟩
    · rename_i gran _
      obtain ⟨d', hd', -⟩ := gran.setGpi_field (g.config.granuleResolve_lt pa) gpi
      simp only [hd', ok_bind]
      exact ⟨_, _, rfl⟩

/-- A failing `set` writes nothing: every error path returns the table it was given. -/
theorem set_error_state {pa : Nat} {gpi : GPIAccessType} {e : GranuleError}
    {g' : GranuleProtection} (h : g.set pa gpi = .ok (.error e, g')) : g' = g := by
  unfold set at h
  split_ifs at h
  · simp only [pure_eq_ok, Except.ok.injEq, Prod.mk.injEq] at h; exact h.2.symm
  cases hidx : index g.level0 (g.config.l0Resolve pa) with
  | error p => simp [hidx] at h
  | ok e =>
    simp only [hidx, ok_bind] at h
    split_ifs at h
    · simp only [pure_eq_ok, Except.ok.injEq, Prod.mk.injEq] at h; exact h.2.symm
    split at h
    · simp only [pure_eq_ok, Except.ok.injEq, Prod.mk.injEq] at h; exact h.2.symm
    · rename_i t _
      simp only [l1Entry_of_lt t (g.config.l1Resolve_lt pa), ok_bind] at h
      split_ifs at h
      · simp only [pure_eq_ok, Except.ok.injEq, Prod.mk.injEq] at h; exact h.2.symm
      split at h
      · simp only [pure_eq_ok, Except.ok.injEq, Prod.mk.injEq] at h; exact h.2.symm
      · rename_i gran _
        cases hd : gran.setGpi (g.config.granuleResolve pa) gpi with
        | error p => simp [hd] at h
        | ok d' => simp [hd] at h

/-- `lookup` reads memory only at the descriptor its table walk resolves to. -/
theorem lookup_memory_congr {g₁ g₂ : GranuleProtection} (hl : g₁.level0 = g₂.level0)
    (hc : g₁.config = g₂.config) {pa : Nat}
    (hm : ∀ e t, g₁.level0[g₁.config.l0Resolve pa]? = some e → e.asBlock = none →
      e.asTable = some t → g₁.memory (t.address + 8 * g₁.config.l1Resolve pa) =
        g₂.memory (t.address + 8 * g₁.config.l1Resolve pa)) :
    g₁.lookup pa = g₂.lookup pa := by
  obtain ⟨l0, m₁, c⟩ := g₁
  obtain ⟨l0', m₂, c'⟩ := g₂
  simp only at hl hc hm
  subst hl hc
  by_cases hpa : pa < c.pps.size
  · cases he : l0[c.l0Resolve pa]? with
    | none => simp [lookup, index, he]
    | some e =>
      cases hb : e.asBlock with
      | some b => simp [lookup, index, he, hb]
      | none =>
        cases ht : e.asTable with
        | none => simp [lookup, index, he, hb, ht]
        | some t =>
          rw [lookup_of_table (g := ⟨l0, m₁, c⟩) hpa he hb ht,
            lookup_of_table (g := ⟨l0, m₂, c⟩) hpa he hb ht]
          simp only [hm e t he hb ht]
  · rw [lookup_of_ge (Nat.le_of_not_lt hpa), lookup_of_ge (Nat.le_of_not_lt hpa)]

/-- After a successful `set`, `lookup` of the same address returns the GPI written. -/
theorem lookup_set_self {pa : Nat} {gpi : GPIAccessType} {g' : GranuleProtection}
    (h : g.set pa gpi = .ok (.ok (), g')) : g'.lookup pa = .ok (.ok gpi) := by
  obtain ⟨e, t, d', hpa, he, hb, ht, -, hgr', hfield, rfl⟩ := set_ok_written h
  rw [lookup_of_table (g := ⟨g.level0,
      Function.update g.memory (t.address + 8 * g.config.l1Resolve pa) d', g.config⟩) hpa he hb ht]
  dsimp only
  rw [Function.update_self,
    lookupL1_of_granule hgr' (g.config.granuleResolve_lt pa),
    hfield _ (g.config.granuleResolve_lt pa), if_pos rfl, GPIAccessType.tryFrom_bits]

/-- A successful `set` changes the lookup of no other granule: another level 0 entry's table is
    disjoint from the written word, another descriptor of the same table is another word, and
    another field of the same descriptor is left as it was. -/
theorem lookup_set_other (hw : g.WellFormed) {pa : Nat} {gpi : GPIAccessType}
    {g' : GranuleProtection} (h : g.set pa gpi = .ok (.ok (), g')) {pa' : Nat}
    (hpa' : pa' < g.config.pps.size)
    (hne : pa' >>> g.config.pgs.width ≠ pa >>> g.config.pgs.width) :
    g'.lookup pa' = g.lookup pa' := by
  obtain ⟨e, t, d', hpa, he, hb, ht, hgr, hgr', hfield, rfl⟩ := set_ok_written h
  by_cases hr : ∀ e' t', g.level0[g.config.l0Resolve pa']? = some e' → e'.asBlock = none →
      e'.asTable = some t' →
      t'.address + 8 * g.config.l1Resolve pa' ≠ t.address + 8 * g.config.l1Resolve pa
  · -- the walk of `pa'` reads another word
    refine @lookup_memory_congr ⟨g.level0,
      Function.update g.memory (t.address + 8 * g.config.l1Resolve pa) d', g.config⟩ g
      rfl rfl pa' ?_
    intro e' t' he' hb' ht'
    exact Function.update_of_ne (hr e' t' he' hb' ht') _ _
  · -- the walk of `pa'` reads the written word: same entry, same descriptor, another field
    push Not at hr
    obtain ⟨e', t', he', hb', ht', hrw⟩ := hr
    have hlen := g.config.l1Resolve_lt pa
    have hlen' := g.config.l1Resolve_lt pa'
    obtain ⟨hi, hei⟩ := List.getElem?_eq_some_iff.mp he
    obtain ⟨hi', hei'⟩ := List.getElem?_eq_some_iff.mp he'
    have h0 : g.config.l0Resolve pa' = g.config.l0Resolve pa := by
      by_contra hne0
      rcases hw.disjoint _ _ hi' hi t' t hne0 (hei' ▸ ht') (hei ▸ ht) with hdis | hdis <;> omega
    have hee : e' = e := by
      rw [h0] at he'
      exact Option.some.inj (he'.symm.trans he)
    subst hee
    rw [ht] at ht'
    cases ht'
    have h1 : g.config.l1Resolve pa' = g.config.l1Resolve pa := by omega
    have h2 : g.config.granuleResolve pa' ≠ g.config.granuleResolve pa := fun h2 =>
      hne (g.config.granule_eq_of_resolve_eq hpa' hpa h0 h1 h2)
    rw [lookup_of_table (g := ⟨g.level0,
        Function.update g.memory (t.address + 8 * g.config.l1Resolve pa) d', g.config⟩) hpa' he' hb' ht,
      lookup_of_table hpa' he' hb' ht]
    dsimp only
    rw [hrw, Function.update_self,
      lookupL1_of_granule hgr' (g.config.granuleResolve_lt pa'),
      lookupL1_of_granule hgr (g.config.granuleResolve_lt pa'),
      hfield _ (g.config.granuleResolve_lt pa'), if_neg h2]

/-- Addresses in one physical granule look up the same. -/
theorem lookup_granule_congr {pa pa' : Nat}
    (h : pa' >>> g.config.pgs.width = pa >>> g.config.pgs.width) :
    g.lookup pa' = g.lookup pa := by
  apply lookup_congr (g.config.lt_size_iff_of_granule_eq h)
  intro hpa'
  have hpa := (g.config.lt_size_iff_of_granule_eq h).mp hpa'
  refine ⟨?_, ?_, ?_⟩
  · rw [g.config.l0Resolve_eq hpa', g.config.l0Resolve_eq hpa, h]
  · rw [g.config.l1Resolve_eq, g.config.l1Resolve_eq, h]
  · rw [g.config.granuleResolve_eq, g.config.granuleResolve_eq, h]

end Walk

/-- The contract of `set` and `lookup` on a well-formed table: neither indexes out of bounds
    (`set` does not panic at all); a successful `set pa gpi` makes `lookup pa` return `gpi` and
    changes the lookup of no other granule; a failing `set` leaves the table as it was; and
    `lookup` gives one answer per physical granule. -/
theorem set_lookup_agree {g : GranuleProtection} (hc : g.config.Accepted) (hw : g.WellFormed)
    {pa : Nat} (hpa : pa < g.config.pps.size) (gpi : GPIAccessType) :
    (∀ p, g.lookup pa = .error p → p ≠ .indexOutOfBounds) ∧
    (∃ r g', g.set pa gpi = .ok (r, g')) ∧
    (∀ g', g.set pa gpi = .ok (.ok (), g') →
      g'.lookup pa = .ok (.ok gpi) ∧
      ∀ pa', pa' < g.config.pps.size → pa' >>> g.config.pgs.width ≠ pa >>> g.config.pgs.width →
        g'.lookup pa' = g.lookup pa') ∧
    (∀ e g', g.set pa gpi = .ok (.error e, g') → g' = g) ∧
    (∀ pa', pa' >>> g.config.pgs.width = pa >>> g.config.pgs.width → g.lookup pa' = g.lookup pa) := by
  refine ⟨?_, set_no_panic hc hw hpa gpi, ?_, fun _ _ h => set_error_state h,
    fun _ h => lookup_granule_congr h⟩
  · intro p hp hidx
    have := lookup_panic hc hw hpa hp
    rw [hidx] at this
    cases this
  · intro g' h
    exact ⟨lookup_set_self h, fun pa' hpa' hne => lookup_set_other hw h hpa' hne⟩

/-- A 4GB protected space of four 1GB level 0 entries: a table at `0x8000_0000` of `NoAccess`
    granules, then three blocks. -/
def exampleGpt : GranuleProtection where
  level0 := [⟨0x8000_0003⟩, Level0Descriptor.block .secure, Level0Descriptor.block .nonSecure,
    Level0Descriptor.block .realm]
  memory := fun _ => ⟨0⟩
  config := ⟨.gb4, .gb1, .kb4⟩

theorem exampleGpt_wellFormed : exampleGpt.WellFormed where
  level0_length := by decide
  entry_kind := by decide
  disjoint := by
    intro i j hi hj t t' hij h1 h2
    simp only [exampleGpt, List.length_cons, List.length_nil] at hi hj
    interval_cases i <;> interval_cases j <;> simp_all +decide [exampleGpt, Level0Descriptor.asTable,
      Level0Descriptor.block, Level0Descriptor.tagMask, Level0Descriptor.tableTag,
      Level0Descriptor.blockTag, GPIAccessType.mask, GPIAccessType.bits]

theorem set_lookup_agree_exampleGpt :
    exampleGpt.config.Accepted ∧ exampleGpt.WellFormed ∧ 0x1000 < exampleGpt.config.pps.size ∧
      ∃ r g', exampleGpt.set 0x1000 .realm = .ok (r, g') :=
  ⟨by decide, exampleGpt_wellFormed, by decide,
    (set_lookup_agree (by decide) exampleGpt_wellFormed (by decide) .realm).2.1⟩

end GranuleProtection

end RustedFirmware.Gpt
