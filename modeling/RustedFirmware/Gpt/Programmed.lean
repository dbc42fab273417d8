import RustedFirmware.Gpt.Protection

set_option autoImplicit false

/-! Correctly programmed Granule Protection Tables.

    `lookup` reports a misprogrammed entry as `InvalidL0Entry` or `InvalidL1Entry`, and panics
    in the `unwrap` of a block or contiguous descriptor whose GPI does not decode; the RMM
    handlers panic with "Incorrectly programmed GPT." on either error. A table is *programmed*
    when it is well formed and every descriptor a walk can reach decodes: a level 0 entry is a
    table, or a block with a valid GPI; a level 1 descriptor is contiguous with a valid GPI, or a
    granule descriptor whose sixteen fields all hold valid GPIs.

    On a programmed table `lookup` of a protected address always returns a GPI, `set` succeeds
    exactly when the granule is described by a level 1 granule descriptor and otherwise returns
    `InvalidRequest` unchanged, and a successful `set` leaves the table programmed. -/

namespace RustedFirmware.Gpt

open Rust

/-- A level 0 entry `lookup` reads without error: a table, or a block whose GPI decodes. -/
def Level0Descriptor.Valid (e : Level0Descriptor) : Prop :=
  e.asTable.isSome ∨ (e.asBlock.isSome ∧ (GPIAccessType.tryFrom ((e.val >>> 4) &&& 0xF)).isSome)

instance : DecidablePred Level0Descriptor.Valid := fun _ => inferInstanceAs (Decidable (_ ∨ _))

/-- A level 1 descriptor `lookup` reads without error at every field index: a contiguous
    descriptor whose GPI decodes, or a granule descriptor whose sixteen fields all decode. -/
def Level1Descriptor.Valid (d : Level1Descriptor) : Prop :=
  (d.asContig.isSome ∧ (GPIAccessType.tryFrom ((d.val >>> 4) &&& 0xF)).isSome) ∨
    (d.asGranule.isSome ∧ ∀ j < 16, (GPIAccessType.tryFrom (d.field j)).isSome)

instance : DecidablePred Level1Descriptor.Valid := fun _ => inferInstanceAs (Decidable (_ ∨ _))

theorem Level0Descriptor.asBlock_of_isSome {e : Level0Descriptor} (h : e.asBlock.isSome) :
    e.asBlock = some ⟨e⟩ := by
  unfold Level0Descriptor.asBlock at h ⊢
  split_ifs at h ⊢
  · rfl
  · simp at h

theorem Level1Descriptor.asContig_of_isSome {d : Level1Descriptor} (h : d.asContig.isSome) :
    d.asContig = some ⟨d⟩ := by
  unfold Level1Descriptor.asContig at h ⊢
  split_ifs at h ⊢
  · rfl
  · simp at h

namespace GranuleProtection

/-- A well-formed table whose every reachable descriptor decodes (see the module header). -/
structure Programmed (g : GranuleProtection) : Prop extends g.WellFormed where
  level0_valid : ∀ e ∈ g.level0, e.Valid
  level1_valid : ∀ e ∈ g.level0, ∀ t, e.asTable = some t →
    ∀ i < g.config.l1TableLen, (g.memory (t.address + 8 * i)).Valid

/-- The granule of `pa` is described by a level 1 granule descriptor: the one case in which
    `set` writes. -/
def granuleDescribed (g : GranuleProtection) (pa : Nat) : Bool :=
  match g.level0[g.config.l0Resolve pa]? with
  | none => false
  | some e =>
    match e.asTable with
    | none => false
    | some t => (g.memory (t.address + 8 * g.config.l1Resolve pa)).asGranule.isSome

/-! ### Lookups on a programmed table -/

section Lookup

variable {g : GranuleProtection}

/-- A descriptor that decodes is read as a GPI at every field index. -/
theorem lookupL1_ok {d : Level1Descriptor} (hd : d.Valid) {idx : Nat} (hidx : idx < 16) :
    ∃ gpi, lookupL1 d idx = .ok (.ok gpi) := by
  rcases hd with ⟨hc, hg⟩ | ⟨hgr, hf⟩
  · -- contiguous: the descriptor's one GPI
    obtain ⟨gpi, hgpi⟩ := Option.isSome_iff_exists.mp hg
    refine ⟨gpi, ?_⟩
    simp [lookupL1, Level1Descriptor.asContig_of_isSome hc, ContiguousDescriptorRef.gpi, hgpi]
  · -- granule: the field `idx`
    obtain ⟨gpi, hgpi⟩ := Option.isSome_iff_exists.mp (hf idx hidx)
    exact ⟨gpi, by rw [lookupL1_of_granule hgr hidx, hgpi]⟩

/-- Along a block descriptor, `lookup` is the block's GPI. -/
theorem lookup_of_block {pa : Nat} (hpa : pa < g.config.pps.size) {e : Level0Descriptor}
    (he : g.level0[g.config.l0Resolve pa]? = some e) (hb : e.asBlock.isSome) {gpi : GPIAccessType}
    (hgpi : GPIAccessType.tryFrom ((e.val >>> 4) &&& 0xF) = some gpi) :
    g.lookup pa = .ok (.ok gpi) := by
  have hidx : index g.level0 (g.config.l0Resolve pa) = .ok e := index_eq_ok_iff.mpr he
  simp [lookup, Nat.not_le.mpr hpa, hidx, Level0Descriptor.asBlock_of_isSome hb,
    BlockDescriptorRef.gpi, hgpi]

/-- On a programmed table `lookup` of a protected address neither fails nor panics. -/
theorem lookup_ok (hc : g.config.Accepted) (hp : g.Programmed) {pa : Nat}
    (hpa : pa < g.config.pps.size) : ∃ gpi, g.lookup pa = .ok (.ok gpi) := by
  have hlt := hp.l0Resolve_lt hc hpa
  have he := List.getElem?_eq_getElem hlt
  have hmem := List.getElem_mem hlt
  rcases hp.level0_valid _ hmem with ht | ⟨hb, hgpi⟩
  · -- a table: the level 1 descriptor it resolves to decodes
    obtain ⟨t, ht⟩ := Option.isSome_iff_exists.mp ht
    have hb := Level0Descriptor.asBlock_eq_none_of_asTable ht
    rw [lookup_of_table hpa he hb ht]
    exact lookupL1_ok (hp.level1_valid _ hmem t ht _ (g.config.l1Resolve_lt pa))
      (g.config.granuleResolve_lt pa)
  · -- a block: its GPI decodes
    obtain ⟨gpi, hgpi⟩ := Option.isSome_iff_exists.mp hgpi
    exact ⟨gpi, lookup_of_block hpa he hb hgpi⟩

end Lookup

/-! ### `set` on a programmed table -/

section Set

variable {g : GranuleProtection}

/-- `set` of a granule described by a granule descriptor succeeds. -/
theorem set_of_described (hc : g.config.Accepted) (hw : g.WellFormed) {pa : Nat}
    (hpa : pa < g.config.pps.size) (hd : g.granuleDescribed pa) (gpi : GPIAccessType) :
    ∃ g', g.set pa gpi = .ok (.ok (), g') := by
  have hlt := hw.l0Resolve_lt hc hpa
  have he := List.getElem?_eq_getElem hlt
  simp only [granuleDescribed, he] at hd
  split at hd
  · simp at hd
  · rename_i t ht
    have hb := Level0Descriptor.asBlock_eq_none_of_asTable ht
    obtain ⟨d', hd', -⟩ :=
      GranuleDescriptorRef.setGpi_field ⟨g.memory (t.address + 8 * g.config.l1Resolve pa)⟩
        (g.config.granuleResolve_lt pa) gpi
    refine ⟨{ g with memory :=
      Function.update g.memory (t.address + 8 * g.config.l1Resolve pa) d' }, ?_⟩
    simp [set, Nat.not_le.mpr hpa, index_of_lt _ _ hlt, hb, ht,
      l1Entry_of_lt t (g.config.l1Resolve_lt pa), Level1Descriptor.asContig_eq_none_of_asGranule hd,
      asGranule_of_isSome hd, hd']

/-- On a programmed table, `set` of a protected granule that no granule descriptor describes
    (a block, or a contiguous descriptor) returns `InvalidRequest` and writes nothing. -/
theorem set_of_not_described (hc : g.config.Accepted) (hp : g.Programmed) {pa : Nat}
    (hpa : pa < g.config.pps.size) (hd : g.granuleDescribed pa = false) (gpi : GPIAccessType) :
    g.set pa gpi = .ok (.error .invalidRequest, g) := by
  have hlt := hp.l0Resolve_lt hc hpa
  have he := List.getElem?_eq_getElem hlt
  have hmem := List.getElem_mem hlt
  simp only [set, ge_iff_le, Nat.not_le.mpr hpa, if_false, index_of_lt _ _ hlt, ok_bind]
  rcases hp.level0_valid _ hmem with ht | ⟨hb, -⟩
  · -- a table whose descriptor is not a granule descriptor, hence contiguous
    obtain ⟨t, ht⟩ := Option.isSome_iff_exists.mp ht
    have hb := Level0Descriptor.asBlock_eq_none_of_asTable ht
    simp only [granuleDescribed, he, ht] at hd
    rcases hp.level1_valid _ hmem t ht _ (g.config.l1Resolve_lt pa) with ⟨hcont, -⟩ | ⟨hgr, -⟩
    · simp [hb, ht, l1Entry_of_lt t (g.config.l1Resolve_lt pa), hcont]
    · simp [hgr] at hd
  · -- a block
    simp [hb]

/-- A successful `set` keeps the level 0 table and the configuration. -/
theorem set_ok_level0_config {pa : Nat} {gpi : GPIAccessType} {g' : GranuleProtection}
    (h : g.set pa gpi = .ok (.ok (), g')) : g'.level0 = g.level0 ∧ g'.config = g.config := by
  obtain ⟨-, -, -, -, -, -, -, -, -, -, rfl⟩ := set_ok_written h
  exact ⟨rfl, rfl⟩

/-- A successful `set` leaves the granule described by a granule descriptor. -/
theorem granuleDescribed_of_set {pa : Nat} {gpi : GPIAccessType} {g' : GranuleProtection}
    (h : g.set pa gpi = .ok (.ok (), g')) : g'.granuleDescribed pa := by
  obtain ⟨e, t, d', -, he, -, ht, -, hgr', -, rfl⟩ := set_ok_written h
  simpa [granuleDescribed, he, ht] using hgr'

/-- A successful `set` keeps the table programmed: the descriptor it writes is a granule
    descriptor whose fields are the new GPI and the old, valid, ones. -/
theorem set_programmed (hp : g.Programmed) {pa : Nat} {gpi : GPIAccessType}
    {g' : GranuleProtection} (h : g.set pa gpi = .ok (.ok (), g')) : g'.Programmed := by
  obtain ⟨e, t, d', -, he, -, ht, hgr, hgr', hfield, rfl⟩ := set_ok_written h
  have hvalid : d'.Valid := by
    refine Or.inr ⟨hgr', fun j hj => ?_⟩
    rw [hfield j hj]
    split_ifs
    · simp
    · -- an old field of the old granule descriptor
      have hmem := List.mem_of_getElem? he
      rcases hp.level1_valid e hmem t ht _ (g.config.l1Resolve_lt pa) with ⟨hcont, -⟩ | ⟨-, hf⟩
      · simp [Level1Descriptor.asContig_eq_none_of_asGranule hgr] at hcont
      · exact hf j hj
  refine ⟨⟨hp.level0_length, hp.entry_kind, hp.disjoint⟩, hp.level0_valid, ?_⟩
  intro e' he' t' ht' i hi
  by_cases hA : t'.address + 8 * i = t.address + 8 * g.config.l1Resolve pa
  · simp only [hA, Function.update_self]
    exact hvalid
  · simp only [Function.update_of_ne hA]
    exact hp.level1_valid e' he' t' ht' i hi

/-- A successful `set` changes the lookup of no other granule, protected or not. -/
theorem lookup_set_frame (hw : g.WellFormed) {pa : Nat} {gpi : GPIAccessType}
    {g' : GranuleProtection} (h : g.set pa gpi = .ok (.ok (), g')) {pa' : Nat}
    (hne : pa' >>> g.config.pgs.width ≠ pa >>> g.config.pgs.width) :
    g'.lookup pa' = g.lookup pa' := by
  by_cases hpa' : pa' < g.config.pps.size
  · exact lookup_set_other hw h hpa' hne
  · have hge := Nat.le_of_not_lt hpa'
    rw [lookup_of_ge hge, lookup_of_ge ((set_ok_level0_config h).2 ▸ hge)]

end Set

/-- The example table is programmed: its blocks' GPIs decode, and its level 1 table is all
    `NoAccess` granule descriptors. -/
theorem exampleGpt_programmed : exampleGpt.Programmed where
  toWellFormed := exampleGpt_wellFormed
  level0_valid := by decide
  level1_valid := by
    intro _ _ _ _ _ _
    show Level1Descriptor.Valid ⟨0⟩
    decide

/-- The example table with every granule of its level 1 table in the Non-secure PAS, as memory of
    the normal world is before any delegation. -/
def exampleNsGpt : GranuleProtection :=
  { exampleGpt with memory := fun _ => ⟨0x9999_9999_9999_9999⟩ }

/-- The table is programmed: it has the example's level 0 entries, and its level 1 descriptors
    hold sixteen Non-secure granules. -/
theorem exampleNsGpt_programmed : exampleNsGpt.Programmed where
  toWellFormed := ⟨exampleGpt_wellFormed.level0_length, exampleGpt_wellFormed.entry_kind,
    exampleGpt_wellFormed.disjoint⟩
  level0_valid := by decide
  level1_valid := by
    intro _ _ _ _ _ _
    show Level1Descriptor.Valid ⟨0x9999_9999_9999_9999⟩
    decide

end GranuleProtection

end RustedFirmware.Gpt
