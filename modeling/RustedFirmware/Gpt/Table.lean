import RustedFirmware.Lib.Rust

set_option autoImplicit false

/-! Granule Protection Table descriptors (`src/gpt/table.rs`).

    A level 0 descriptor is a *block* (tag `0b0001`, one GPI for the whole L0 region) or a
    *table* (tag `0b0011`, the 4KB-aligned address of a level 1 table). A level 1 descriptor is a
    *contiguous* descriptor (tag `0b0001`) or a *granule* descriptor: sixteen 4-bit GPI fields,
    one per physical granule, recognised by a valid GPI in its low nibble. Descriptors are
    `UInt64` words; a view (`as_table`, `as_granule`, ...) is an `Option` of a wrapper, as in the
    source. Accessors built by `declare_accessor!` end in `unwrap`, so they return
    `Except Panic`. -/

namespace RustedFirmware.Gpt

open Rust

/-- Access control restriction of a memory region (`GPIAccessType`). -/
inductive GPIAccessType where
  | noAccess | secure | nonSecure | root | realm | any
  deriving DecidableEq, Repr

namespace GPIAccessType

/-- The discriminant, `gpi as u64`. -/
def bits : GPIAccessType → UInt64
  | noAccess => 0b0000
  | secure => 0b1000
  | nonSecure => 0b1001
  | root => 0b1010
  | realm => 0b1011
  | any => 0b1111

/-- `GPIAccessType::try_from(u64)`, as derived by `TryFromPrimitive`. -/
def tryFrom (v : UInt64) : Option GPIAccessType :=
  if v = 0b0000 then some noAccess
  else if v = 0b1000 then some secure
  else if v = 0b1001 then some nonSecure
  else if v = 0b1010 then some root
  else if v = 0b1011 then some realm
  else if v = 0b1111 then some any
  else none

/-- `GPIAccessType::MASK`. -/
def mask : UInt64 := 0xF

@[simp] theorem tryFrom_bits (g : GPIAccessType) : tryFrom g.bits = some g := by
  cases g <;> decide

@[simp] theorem bits_and_mask (g : GPIAccessType) : g.bits &&& 15 = g.bits := by
  cases g <;> decide

theorem eq_bits_of_tryFrom {v : UInt64} {g : GPIAccessType} (h : tryFrom v = some g) :
    v = g.bits := by
  unfold tryFrom at h
  split_ifs at h <;> cases h <;> assumption

/-- No GPI is encoded as the contiguous-descriptor tag `0b0001`. -/
theorem bits_ne_one (g : GPIAccessType) : g.bits ≠ 1 := by
  cases g <;> decide

end GPIAccessType

/-- Size of a contiguous descriptor (`ContigSize`). -/
inductive ContigSize where
  | mb2 | mb32 | mb512
  deriving DecidableEq, Repr

namespace ContigSize

/-- The discriminant, `size as u64`. -/
def bits : ContigSize → UInt64
  | mb2 => 0b01
  | mb32 => 0b10
  | mb512 => 0b11

/-- `ContigSize::try_from(u64)`. -/
def tryFrom (v : UInt64) : Option ContigSize :=
  if v = 0b01 then some mb2
  else if v = 0b10 then some mb32
  else if v = 0b11 then some mb512
  else none

/-- `ContigSize::MASK`. -/
def mask : UInt64 := 0b11

end ContigSize

/-! ### Level 0 descriptors -/

/-- A level 0 GPT entry (`Level0Descriptor`). -/
structure Level0Descriptor where
  val : UInt64
  deriving DecidableEq, Repr

/-- View of a level 0 descriptor as a table descriptor (`TableDescriptorRef`). -/
structure TableDescriptorRef where
  desc : Level0Descriptor

/-- View of a level 0 descriptor as a block descriptor (`BlockDescriptorRef`). -/
structure BlockDescriptorRef where
  desc : Level0Descriptor

namespace Level0Descriptor

def tagMask : UInt64 := 0xF
def blockTag : UInt64 := 0b0001
def tableTag : UInt64 := 0b0011

/-- `TABLE_ADDR_MASK = mask!(52, 12)`: address bits 12 to 51. -/
def tableAddrMask : UInt64 :=
  (((1 : UInt64) <<< (52 : UInt64)) - 1) &&& ~~~(((1 : UInt64) <<< (12 : UInt64)) - 1)

def asTable (d : Level0Descriptor) : Option TableDescriptorRef :=
  if d.val &&& tagMask = tableTag then some ⟨d⟩ else none

def asBlock (d : Level0Descriptor) : Option BlockDescriptorRef :=
  if d.val &&& tagMask = blockTag then some ⟨d⟩ else none

/-- `Level0Descriptor::block`. -/
def block (gpi : GPIAccessType) : Level0Descriptor :=
  ⟨blockTag ||| ((gpi.bits &&& GPIAccessType.mask) <<< 4)⟩

/-- `Level0Descriptor::table`, which asserts that the address has no bit outside
    `TABLE_ADDR_MASK`. -/
def table (addr : UInt64) : Except Panic Level0Descriptor :=
  if addr &&& tableAddrMask = addr then pure ⟨tableTag ||| (addr &&& tableAddrMask)⟩
  else throw (.assertFailed "addr & mask == addr")

/-- The bits `TABLE_ADDR_MASK` keeps are bits 12 to 51. -/
theorem testBit_tableAddrMask (i : Nat) :
    tableAddrMask.toNat.testBit i = (decide (12 ≤ i) && decide (i < 52)) := by
  have h : tableAddrMask.toNat = (2 ^ 40 - 1) <<< 12 := by decide
  rw [h, Nat.testBit_shiftLeft, Nat.testBit_two_pow_sub_one]
  by_cases hi : 12 ≤ i
  · simp only [ge_iff_le, hi, decide_true, Bool.true_and]
    congr 1
    exact propext ⟨fun h => by omega, fun h => by omega⟩
  · simp [hi]

/-- A 4KB-aligned address below `2^52` has bits only where `TABLE_ADDR_MASK` has. -/
theorem testBit_of_tableAddr {addr : UInt64} (hlt : addr.toNat < 2 ^ 52)
    (halign : 4096 ∣ addr.toNat) {i : Nat} (hi : addr.toNat.testBit i = true) :
    12 ≤ i ∧ i < 52 := by
  obtain ⟨m, hm⟩ := halign
  constructor
  · rw [hm, show (4096 : Nat) = 2 ^ 12 from rfl, Nat.testBit_two_pow_mul] at hi
    simp only [ge_iff_le, Bool.and_eq_true, decide_eq_true_eq] at hi
    exact hi.1
  · by_contra hge
    rw [Nat.testBit_eq_false_of_lt (lt_of_lt_of_le hlt
      (Nat.pow_le_pow_right (by decide) (by omega)))] at hi
    cases hi

/-- The table tag `0b0011` has bits 0 and 1. -/
theorem testBit_tableTag (i : Nat) : tableTag.toNat.testBit i = decide (i < 2) := by
  rw [show tableTag.toNat = 2 ^ 2 - 1 from rfl, Nat.testBit_two_pow_sub_one]

/-- A descriptor is never both a block and a table: the tags differ. -/
theorem asBlock_eq_none_of_asTable {d : Level0Descriptor} {t : TableDescriptorRef}
    (h : asTable d = some t) : asBlock d = none := by
  unfold asTable at h
  split_ifs at h with ht
  · simp [asBlock, ht, blockTag, tableTag]

end Level0Descriptor

/-- `TableDescriptorRef::address`: the level 1 table's physical address. -/
def TableDescriptorRef.address (t : TableDescriptorRef) : Nat :=
  (t.desc.val &&& Level0Descriptor.tableAddrMask).toNat

/-- `BlockDescriptorRef::gpi`, the accessor for bits 4 to 7 (it unwraps the conversion). -/
def BlockDescriptorRef.gpi (b : BlockDescriptorRef) : Except Panic GPIAccessType :=
  match GPIAccessType.tryFrom ((b.desc.val >>> 4) &&& 0xF) with
  | some g => .ok g
  | none => .error .unwrapFailed

/-! ### Level 1 descriptors -/

/-- A level 1 GPT entry (`Level1Descriptor`). -/
structure Level1Descriptor where
  val : UInt64
  deriving DecidableEq, Repr

/-- View of a level 1 descriptor as a contiguous descriptor (`ContiguousDescriptorRef`). -/
structure ContiguousDescriptorRef where
  desc : Level1Descriptor

/-- View of a level 1 descriptor as a granule descriptor (`GranuleDescriptorRef` and
    `GranuleDescriptorRefMut`). -/
structure GranuleDescriptorRef where
  desc : Level1Descriptor

namespace Level1Descriptor

def tagMask : UInt64 := 0xF
def contigTag : UInt64 := 0b0001

/-- GPI field `idx` of a granule descriptor, `(d >> (idx * 4)) & 0xF`. -/
def field (d : Level1Descriptor) (idx : Nat) : UInt64 := (d.val >>> (idx * 4).toUInt64) &&& 0xF

/-- The low nibble, which `as_granule` inspects, is field 0. -/
theorem field_zero (d : Level1Descriptor) : d.field 0 = d.val &&& GPIAccessType.mask := by
  simp [field, GPIAccessType.mask]

def asContig (d : Level1Descriptor) : Option ContiguousDescriptorRef :=
  if d.val &&& tagMask = contigTag then some ⟨d⟩ else none

/-- `as_granule` and `as_granule_mut`: the low nibble holds a valid GPI. -/
def asGranule (d : Level1Descriptor) : Option GranuleDescriptorRef :=
  if (GPIAccessType.tryFrom (d.val &&& GPIAccessType.mask)).isSome then some ⟨d⟩ else none

/-- `Level1Descriptor::contig`. -/
def contig (size : ContigSize) (gpi : GPIAccessType) : Level1Descriptor :=
  ⟨contigTag ||| ((size.bits &&& ContigSize.mask) <<< 8) ||| ((gpi.bits &&& GPIAccessType.mask) <<< 4)⟩

/-- A granule descriptor is not read as contiguous: no GPI has the contiguous tag. -/
theorem asContig_eq_none_of_asGranule {d : Level1Descriptor} (h : (asGranule d).isSome) :
    asContig d = none := by
  unfold asGranule at h
  split_ifs at h with hg
  swap
  · simp at h
  obtain ⟨g, hg'⟩ := Option.isSome_iff_exists.mp hg
  have hv := GPIAccessType.eq_bits_of_tryFrom hg'
  have hc : ¬ (d.val &&& tagMask = contigTag) := by
    rw [show tagMask = GPIAccessType.mask from rfl, hv]
    exact GPIAccessType.bits_ne_one g
  simp [asContig, hc]

end Level1Descriptor

/-- `ContiguousDescriptorRef::gpi`, the accessor for bits 4 to 7. -/
def ContiguousDescriptorRef.gpi (c : ContiguousDescriptorRef) : Except Panic GPIAccessType :=
  match GPIAccessType.tryFrom ((c.desc.val >>> 4) &&& 0xF) with
  | some g => .ok g
  | none => .error .unwrapFailed

/-- `ContiguousDescriptorRef::size`, the accessor for bits 8 and 9. -/
def ContiguousDescriptorRef.size (c : ContiguousDescriptorRef) : Except Panic ContigSize :=
  match ContigSize.tryFrom ((c.desc.val >>> 8) &&& 0b11) with
  | some s => .ok s
  | none => .error .unwrapFailed

namespace GranuleDescriptorRef

/-- `GranuleDescriptorRef::gpi`: the GPI of granule `idx`, `None` if it is misprogrammed. -/
def gpi (g : GranuleDescriptorRef) (idx : Nat) : Except Panic (Option GPIAccessType) :=
  if idx < 16 then .ok (GPIAccessType.tryFrom (g.desc.field idx))
  else .error (.assertFailed "idx < 16")

/-- `GranuleDescriptorRefMut::set_gpi`: the updated descriptor. -/
def setGpi (g : GranuleDescriptorRef) (idx : Nat) (value : GPIAccessType) :
    Except Panic Level1Descriptor :=
  if idx < 16 then
    .ok ⟨(g.desc.val &&& ~~~((0xF : UInt64) <<< (idx * 4).toUInt64)) |||
      ((value.bits &&& 0xF) <<< (idx * 4).toUInt64)⟩
  else .error (.assertFailed "idx < 16")

/-- `set_gpi idx value` succeeds for `idx < 16`, writes `value` into field `idx` and leaves every
    other field as it was. -/
theorem setGpi_field (g : GranuleDescriptorRef) {idx : Nat} (hidx : idx < 16)
    (value : GPIAccessType) :
    ∃ d, g.setGpi idx value = .ok d ∧
      ∀ j < 16, d.field j = if j = idx then value.bits else g.desc.field j := by
  refine ⟨⟨(g.desc.val &&& ~~~((0xF : UInt64) <<< (idx * 4).toUInt64)) |||
    ((value.bits &&& 0xF) <<< (idx * 4).toUInt64)⟩, by simp only [setGpi, if_pos hidx], ?_⟩
  intro j hj
  simp only [Level1Descriptor.field]
  rw [Word.field4_update _ _ hj hidx, GPIAccessType.bits_and_mask]

end GranuleDescriptorRef

namespace Level1Descriptor

/-- `Level1Descriptor::granule`: a zero descriptor, then `set_gpi(i, gpis[i])` for each index. -/
def granule (gpis : Vector GPIAccessType 16) : Except Panic Level1Descriptor :=
  gpis.toList.zipIdx.foldlM (fun s (gpi, i) => GranuleDescriptorRef.setGpi ⟨s⟩ i gpi) ⟨0⟩

/-- The writes of `granule` from index `k` on: each field `j` they reach holds the GPI given for
    it, and the others are as they were. The induction is on the GPIs still to write. -/
theorem foldlM_setGpi (l : List GPIAccessType) (k : Nat) (hk : k + l.length ≤ 16)
    (d : Level1Descriptor) :
    ∃ d', (l.zipIdx k).foldlM (fun s (gpi, i) => GranuleDescriptorRef.setGpi ⟨s⟩ i gpi) d =
        .ok d' ∧
      ∀ j < 16, d'.field j =
        if k ≤ j ∧ j < k + l.length then (l.getD (j - k) .noAccess).bits else d.field j := by
  induction l generalizing k d with
  | nil =>
    refine ⟨d, rfl, fun j _ => ?_⟩
    rw [if_neg (by simp only [List.length_nil]; omega)]
  | cons g l ih =>
    simp only [List.length_cons] at hk
    -- write field `k`, then the rest from `k + 1`
    obtain ⟨d₁, hd₁, hfield₁⟩ :=
      GranuleDescriptorRef.setGpi_field ⟨d⟩ (show k < 16 by omega) g
    obtain ⟨d', hd', hfield'⟩ := ih (k + 1) (by omega) d₁
    refine ⟨d', ?_, fun j hj => ?_⟩
    · simp only [List.zipIdx_cons, List.foldlM_cons, hd₁, ok_bind]
      exact hd'
    · rw [hfield' j hj, hfield₁ j hj]
      by_cases hjk : j = k
      · subst hjk
        simp
      · by_cases hin : k + 1 ≤ j ∧ j < k + 1 + l.length
        · have hsub : j - k = (j - (k + 1)) + 1 := by omega
          rw [if_pos hin, if_pos (by simp only [List.length_cons]; omega), hsub]
          simp
        · rw [if_neg hin, if_neg hjk, if_neg (by simp only [List.length_cons]; omega)]

/-- `granule` writes each GPI into its own field. -/
theorem granule_field (gpis : Vector GPIAccessType 16) :
    ∃ d, granule gpis = .ok d ∧ ∀ (j : Nat) (hj : j < 16), d.field j = gpis[j].bits := by
  obtain ⟨d, hd, hfield⟩ := foldlM_setGpi gpis.toList 0 (by simp) ⟨0⟩
  refine ⟨d, hd, fun j hj => ?_⟩
  rw [hfield j hj, if_pos (by simp; omega)]
  simp [List.getD_eq_getElem?_getD, hj]

end Level1Descriptor

/-- The descriptor encoders and views agree: a block reads back as a block with its GPI and not
    as a table; a contiguous descriptor as contiguous with its size and GPI and not as a granule
    descriptor; a granule descriptor as a granule descriptor with each of its sixteen GPIs and not
    as contiguous; `set_gpi` changes nibble `i` alone; and a table descriptor for a 4KB-aligned
    address below `2^52` reads back that address. -/
theorem descriptor_encoders_round_trip :
    (∀ g : GPIAccessType, ∃ b, (Level0Descriptor.block g).asBlock = some b ∧ b.gpi = .ok g ∧
      (Level0Descriptor.block g).asTable = none) ∧
    (∀ (size : ContigSize) (g : GPIAccessType), ∃ c,
      (Level1Descriptor.contig size g).asContig = some c ∧ c.size = .ok size ∧ c.gpi = .ok g ∧
      (Level1Descriptor.contig size g).asGranule = none) ∧
    (∀ gpis : Vector GPIAccessType 16, ∃ d gd, Level1Descriptor.granule gpis = .ok d ∧
      d.asGranule = some gd ∧ d.asContig = none ∧
      ∀ (i : Nat) (hi : i < 16), gd.gpi i = .ok (some gpis[i])) ∧
    (∀ (d : Level1Descriptor) (i : Nat) (g : GPIAccessType), i < 16 →
      ∃ d', GranuleDescriptorRef.setGpi ⟨d⟩ i g = .ok d' ∧ d'.field i = g.bits ∧
        ∀ j < 16, j ≠ i → d'.field j = d.field j) ∧
    (∀ addr : UInt64, addr.toNat < 2 ^ 52 → 4096 ∣ addr.toNat →
      ∃ d t, Level0Descriptor.table addr = .ok d ∧ d.asTable = some t ∧
        t.address = addr.toNat) := by
  refine ⟨fun g => ?_, fun size g => ?_, fun gpis => ?_, fun d i g hi => ?_,
    fun addr hlt halign => ?_⟩
  · -- blocks: the tag is `0b0001` and bits 4 to 7 hold the GPI
    refine ⟨⟨Level0Descriptor.block g⟩, ?_, ?_, ?_⟩
    · have htag : (Level0Descriptor.block g).val &&& Level0Descriptor.tagMask =
          Level0Descriptor.blockTag := by cases g <;> decide
      simp only [Level0Descriptor.asBlock, htag, if_true]
    · have hgpi : GPIAccessType.tryFrom (((Level0Descriptor.block g).val >>> 4) &&& 0xF) =
          some g := by cases g <;> decide
      simp only [BlockDescriptorRef.gpi, hgpi]
    · have htag : ¬ ((Level0Descriptor.block g).val &&& Level0Descriptor.tagMask =
          Level0Descriptor.tableTag) := by cases g <;> decide
      simp only [Level0Descriptor.asTable, htag, if_false]
  · -- contiguous descriptors: tag `0b0001`, which no GPI has
    refine ⟨⟨Level1Descriptor.contig size g⟩, ?_, ?_, ?_, ?_⟩
    · have htag : (Level1Descriptor.contig size g).val &&& Level1Descriptor.tagMask =
          Level1Descriptor.contigTag := by cases size <;> cases g <;> decide
      simp only [Level1Descriptor.asContig, htag, if_true]
    · have hsize : ContigSize.tryFrom (((Level1Descriptor.contig size g).val >>> 8) &&& 0b11) =
          some size := by cases size <;> cases g <;> decide
      simp only [ContiguousDescriptorRef.size, hsize]
    · have hgpi : GPIAccessType.tryFrom (((Level1Descriptor.contig size g).val >>> 4) &&& 0xF) =
          some g := by cases size <;> cases g <;> decide
      simp only [ContiguousDescriptorRef.gpi, hgpi]
    · have hlow : GPIAccessType.tryFrom
          ((Level1Descriptor.contig size g).val &&& GPIAccessType.mask) = none := by
        cases size <;> cases g <;> decide
      simp only [Level1Descriptor.asGranule, hlow, Option.isSome_none, Bool.false_eq_true,
        if_false]
  · -- granule descriptors: field 0 holds a valid GPI
    obtain ⟨d, hd, hfield⟩ := Level1Descriptor.granule_field gpis
    have hgranule : (Level1Descriptor.asGranule d).isSome := by
      simp only [Level1Descriptor.asGranule, ← Level1Descriptor.field_zero, hfield 0 (by decide),
        GPIAccessType.tryFrom_bits, Option.isSome_some, if_true]
    refine ⟨d, ⟨d⟩, hd, ?_, Level1Descriptor.asContig_eq_none_of_asGranule hgranule, ?_⟩
    · simp only [Level1Descriptor.asGranule, ← Level1Descriptor.field_zero,
        hfield 0 (by decide), GPIAccessType.tryFrom_bits, Option.isSome_some, if_true]
    · intro i hi
      simp only [GranuleDescriptorRef.gpi, if_pos hi, hfield i hi, GPIAccessType.tryFrom_bits]
  · -- `set_gpi`: the read-after-write of the nibbles
    obtain ⟨d', hd', hfield⟩ := GranuleDescriptorRef.setGpi_field ⟨d⟩ hi g
    refine ⟨d', hd', by simpa using hfield i hi, fun j hj hji => ?_⟩
    rw [hfield j hj, if_neg hji]
  · -- tables: the tag sits below bit 12, where the address has no bit
    have hmask : addr &&& Level0Descriptor.tableAddrMask = addr := by
      apply Word.ext_testBit
      intro i _
      rw [Word.testBit_and, Level0Descriptor.testBit_tableAddrMask]
      cases hbit : addr.toNat.testBit i
      · rfl
      · obtain ⟨h12, h52⟩ := Level0Descriptor.testBit_of_tableAddr hlt halign hbit
        simp [h12, h52]
    -- the tag keeps bits 0 to 3, where the address has none
    have htag : (Level0Descriptor.tableTag ||| addr) &&& Level0Descriptor.tagMask =
        Level0Descriptor.tableTag := by
      apply Word.ext_testBit
      intro i _
      rw [Word.testBit_and, Word.testBit_or, show Level0Descriptor.tagMask = 15 from rfl,
        Word.testBit_fifteen, Level0Descriptor.testBit_tableTag]
      cases hbit : addr.toNat.testBit i
      · by_cases hi4 : i < 4
        · simp [hi4]
        · simp [hi4, show ¬ i < 2 by omega]
      · have h12 := (Level0Descriptor.testBit_of_tableAddr hlt halign hbit).1
        simp [show ¬ i < 4 by omega, show ¬ i < 2 by omega]
    -- the mask keeps bits 12 to 51, where the tag has none
    have haddr : (Level0Descriptor.tableTag ||| addr) &&& Level0Descriptor.tableAddrMask =
        addr := by
      apply Word.ext_testBit
      intro i _
      rw [Word.testBit_and, Word.testBit_or, Level0Descriptor.testBit_tableAddrMask,
        Level0Descriptor.testBit_tableTag]
      cases hbit : addr.toNat.testBit i
      · by_cases hi2 : i < 2
        · simp [hi2, show ¬ 12 ≤ i by omega]
        · simp [hi2]
      · obtain ⟨h12, h52⟩ := Level0Descriptor.testBit_of_tableAddr hlt halign hbit
        simp [h12, h52]
    refine ⟨⟨Level0Descriptor.tableTag ||| addr⟩, ⟨⟨Level0Descriptor.tableTag ||| addr⟩⟩, ?_, ?_,
      ?_⟩
    · simp only [Level0Descriptor.table, hmask, if_true]
      rfl
    · simp only [Level0Descriptor.asTable, htag, if_true]
    · simp only [TableDescriptorRef.address, haddr]

end RustedFirmware.Gpt
