import RustedFirmware.Lib.Rust

set_option autoImplicit false

/-! The early page tables (`src/pagetable/early_pagetable.rs`).

    Before any Rust code runs, the assembly routine `init_early_page_tables` builds the page
    tables that map the platform's early regions one to one. The tables are computed at compile
    time in a compressed form: `build_ranges` walks the table tree it would build, top table of
    `TOP_LEVEL_DESCRIPTOR_COUNT` blocks of 1GB first, and emits a `DescriptorRange` for each run
    of consecutive block descriptors (the first value, the step between values and the count)
    and for each table descriptor (the offset of the next level table in the flattened array).
    Tables are laid out one after another, the top one first, in the order the walk creates
    them. `init_early_page_tables` expands the ranges into a zeroed buffer of
    `EARLY_PAGE_TABLE_SIZE` bytes.

    `build_ranges_for_table` recurses into a next level table only when its assert
    `block_size / next_descriptor_count >= GRANULE_SIZE` holds, so its block size falls at each
    level: the model recurses on the block size. The descriptor loop runs for at most
    `descriptor_count` iterations, its fuel. `ranges` is filled in index order, so it is the
    list of ranges written so far, and `output_index` its length. Addresses are naturals: they
    stay below `TOP_LEVEL_DESCRIPTOR_COUNT * TOP_LEVEL_BLOCK_SIZE`, far from overflow.

    `walk` is the stage 1 translation the MMU makes through the tables (4KB granule, three
    levels from the 1GB blocks down). -/

namespace RustedFirmware.EarlyPagetable

open Rust

/-- `GRANULE_SIZE`. -/
def granuleSize : Nat := 4096

/-- `TOP_LEVEL_BLOCK_SIZE`. -/
def topLevelBlockSize : Nat := 0x4000_0000

/-- `TOP_LEVEL_DESCRIPTOR_COUNT`. -/
def topLevelDescriptorCount : Nat := 512

/-- `EarlyRegion`: an address range `rangeStart..rangeEnd` and the bits of its attributes. -/
structure EarlyRegion where
  rangeStart : Nat
  rangeEnd : Nat
  attributes : Nat
  deriving DecidableEq, Repr

/-- `DescriptorRange`: the byte offset of a descriptor in the flattened tables, the step and
    count of a run of block descriptors (zero for a table descriptor), and the first value. -/
structure DescriptorRange where
  index : Nat
  stepCount : Nat
  value : Nat
  deriving DecidableEq, Repr

/-- `overlaps`: the ranges `aStart..aEnd` and `bStart..bEnd` share an address. The source's
    const `min` and `max` are those of `Nat`. -/
def overlaps (aStart aEnd bStart bEnd : Nat) : Bool := max aStart bStart < min aEnd bEnd

/-- The inner loop of `build_ranges_for_table`: the first region that covers the block
    `blockStart..blockEnd` or overlaps it. -/
def findRegion (regions : List EarlyRegion) (blockStart blockEnd : Nat) : Option EarlyRegion :=
  regions.find? fun r =>
    (r.rangeStart ≤ blockStart && blockEnd ≤ r.rangeEnd) ||
      overlaps blockStart blockEnd r.rangeStart r.rangeEnd

/-- The variables the descriptor loop of `build_ranges_for_table` changes: the ranges written so
    far, `used_entry_count` and `descriptor_index`. -/
structure TableState where
  ranges : List DescriptorRange
  usedEntryCount : Nat
  descriptorIndex : Nat
  deriving DecidableEq, Repr

/-- The recursive call of `build_ranges_for_table` for a next level table, for a block size
    below `blockSize`: from the ranges so far, its first entry, its base address, block size and
    descriptor count, to its entry count and the ranges afterwards. -/
abbrev SubTable (blockSize : Nat) :=
  List DescriptorRange → (startEntry blockBaseAddress nextBlockSize : Nat) →
    nextBlockSize < blockSize → (descriptorCount : Nat) → Except Panic (Nat × List DescriptorRange)

/-- The block size of the next level, `block_size / next_descriptor_count`, is smaller when the
    assert of `build_ranges_for_table` holds. -/
theorem nextBlockSize_lt {blockSize : Nat} (h : blockSize / (granuleSize / 8) ≥ granuleSize) :
    blockSize / (granuleSize / 8) < blockSize := by
  have hpos : 0 < blockSize := by
    by_contra hz
    simp_all [granuleSize]
  exact Nat.div_lt_self hpos (by decide)

/-- One iteration of the descriptor loop of `build_ranges_for_table`, for descriptor
    `descriptor_index`: a block covered by a region starts a run of block descriptors, one
    only overlapped by a region gets a table descriptor and a next level table. -/
def visitDescriptor (regions : List EarlyRegion)
    (startEntry blockBaseAddress blockSize descriptorCount : Nat)
    (subTable : SubTable blockSize) (st : TableState) : Except Panic TableState :=
  let d := st.descriptorIndex
  let blockStart := blockBaseAddress + d * blockSize
  let blockEnd := blockBaseAddress + (d + 1) * blockSize
  match findRegion regions blockStart blockEnd with
  | none => pure st
  | some r =>
    if r.rangeStart ≤ blockStart ∧ blockEnd ≤ r.rangeEnd then
      let repeatCount := min ((r.rangeEnd - blockEnd) / blockSize) (descriptorCount - d)
      let lsb := if granuleSize = blockSize then 0b11 else 0b01
      pure { st with
        ranges := st.ranges ++
          [⟨(d + startEntry) * 8, blockSize ||| (repeatCount + 1),
            blockStart ||| r.attributes ||| lsb⟩],
        descriptorIndex := d + repeatCount }
    else
      let nextDescriptorCount := granuleSize / 8
      if h : blockSize / nextDescriptorCount ≥ granuleSize then do
        let ranges := st.ranges ++
          [⟨(d + startEntry) * 8, 0, ((startEntry + st.usedEntryCount) * 8) ||| 0b11⟩]
        let (newEntryCount, ranges) ← subTable ranges (startEntry + st.usedEntryCount)
          blockStart (blockSize / nextDescriptorCount) (nextBlockSize_lt h) nextDescriptorCount
        pure { st with ranges := ranges, usedEntryCount := st.usedEntryCount + newEntryCount }
      else throw (.assertFailed "block_size / next_descriptor_count >= GRANULE_SIZE")

/-- The descriptor loop of `build_ranges_for_table`, for at most `fuel` more iterations. -/
def descriptorLoop (regions : List EarlyRegion)
    (startEntry blockBaseAddress blockSize descriptorCount : Nat)
    (subTable : SubTable blockSize) : (fuel : Nat) → TableState → Except Panic TableState
  | 0, st => pure st
  | fuel + 1, st =>
    if st.descriptorIndex ≥ descriptorCount then pure st
    else do
      let st ← visitDescriptor regions startEntry blockBaseAddress blockSize descriptorCount
        subTable st
      descriptorLoop regions startEntry blockBaseAddress blockSize descriptorCount subTable fuel
        { st with descriptorIndex := st.descriptorIndex + 1 }

/-- `build_ranges_for_table`: the entry count of the table at `startEntry` with its next level
    tables, and the ranges afterwards. A table takes `GRANULE_SIZE / 8` entries. -/
def buildRangesForTable (regions : List EarlyRegion) (ranges : List DescriptorRange)
    (startEntry blockBaseAddress blockSize descriptorCount : Nat) :
    Except Panic (Nat × List DescriptorRange) := do
  let st ← descriptorLoop regions startEntry blockBaseAddress blockSize descriptorCount
    (fun ranges startEntry blockBaseAddress nextBlockSize _ descriptorCount =>
      buildRangesForTable regions ranges startEntry blockBaseAddress nextBlockSize descriptorCount)
    descriptorCount ⟨ranges, granuleSize / 8, 0⟩
  pure (st.usedEntryCount, st.ranges)
termination_by blockSize
decreasing_by assumption

/-- `build_ranges`: the ranges, and `EARLY_PAGE_TABLE_SIZE`, the size of the tables in bytes. -/
def buildRanges (regions : List EarlyRegion) : Except Panic (List DescriptorRange × Nat) := do
  let (entryCount, ranges) ← buildRangesForTable regions [] 0 0 topLevelBlockSize
    topLevelDescriptorCount
  pure (ranges, entryCount * 8)

-- The repository's test `map_complex`: a 1GB block, a run of 2MB blocks in a level 2 table, and
-- 4KB pages in a level 3 table below another level 2 table.
example :
    buildRanges [⟨0, 0x4000_0000, 0x10⟩, ⟨0x4000_0000, 0x4040_0000, 0x20⟩,
        ⟨0x8000_0000, 0x8000_3000, 0x30⟩] =
      .ok ([⟨0, 0x4000_0001, 0x11⟩, ⟨8, 0, 0x1003⟩, ⟨0x1000, 0x20_0002, 0x4000_0021⟩,
        ⟨0x10, 0, 0x2003⟩, ⟨0x2000, 0, 0x3003⟩, ⟨0x3000, 0x1003, 0x8000_0033⟩], 0x4000) := by
  decide +kernel

/-- The recursive call of `get_range_count_of_table` for a next level table, for a block size
    below `blockSize`: from its block size, base address and descriptor count to its count. -/
abbrev SubCount (blockSize : Nat) :=
  (nextBlockSize : Nat) → nextBlockSize < blockSize → (blockBaseAddress descriptorCount : Nat) →
    Except Panic Nat

/-- One iteration of the loop of `get_range_count_of_table`: the descriptor index and the count
    afterwards. It walks the blocks as `visitDescriptor` does and counts a range for each run and
    for each table descriptor. -/
def countDescriptor (regions : List EarlyRegion) (blockBaseAddress blockSize descriptorCount : Nat)
    (subCount : SubCount blockSize) (d count : Nat) : Except Panic (Nat × Nat) :=
  let blockStart := blockBaseAddress + d * blockSize
  let blockEnd := blockBaseAddress + (d + 1) * blockSize
  match findRegion regions blockStart blockEnd with
  | none => pure (d, count)
  | some r =>
    if r.rangeStart ≤ blockStart ∧ blockEnd ≤ r.rangeEnd then
      pure (d + min ((r.rangeEnd - blockEnd) / blockSize) (descriptorCount - d), count + 1)
    else
      let nextDescriptorCount := granuleSize / 8
      if h : blockSize / nextDescriptorCount ≥ granuleSize then do
        let sub ← subCount (blockSize / nextDescriptorCount) (nextBlockSize_lt h) blockStart
          nextDescriptorCount
        pure (d, count + (sub + 1))
      else throw (.assertFailed "block_size / next_descriptor_count >= granule_size")

/-- The loop of `get_range_count_of_table`, for at most `fuel` more descriptors from
    `descriptorIndex`, with the count so far. -/
def countLoop (regions : List EarlyRegion) (blockBaseAddress blockSize descriptorCount : Nat)
    (subCount : SubCount blockSize) : (fuel descriptorIndex count : Nat) → Except Panic Nat
  | 0, _, count => pure count
  | fuel + 1, d, count =>
    if d ≥ descriptorCount then pure count
    else do
      let (d, count) ← countDescriptor regions blockBaseAddress blockSize descriptorCount
        subCount d count
      countLoop regions blockBaseAddress blockSize descriptorCount subCount fuel (d + 1) count

/-- `get_range_count_of_table`: the number of ranges the table and its next level tables take.
    Its `granule_size` is `GRANULE_SIZE` at every call. -/
def getRangeCountOfTable (regions : List EarlyRegion)
    (blockBaseAddress blockSize descriptorCount : Nat) : Except Panic Nat :=
  countLoop regions blockBaseAddress blockSize descriptorCount
    (fun nextBlockSize _ blockStart nextDescriptorCount =>
      getRangeCountOfTable regions blockStart nextBlockSize nextDescriptorCount)
    descriptorCount 0 0
termination_by blockSize
decreasing_by assumption

/-- `get_range_count`: `EARLY_PAGE_TABLE_RANGE_COUNT`, the length of the array of ranges. -/
def getRangeCount (regions : List EarlyRegion) : Except Panic Nat :=
  getRangeCountOfTable regions 0 topLevelBlockSize topLevelDescriptorCount

example :
    getRangeCount [⟨0, 0x4000_0000, 0x10⟩, ⟨0x4000_0000, 0x4040_0000, 0x20⟩,
      ⟨0x8000_0000, 0x8000_3000, 0x30⟩] = .ok 6 := by
  decide +kernel

/-! ### The descriptor loop -/

section Loop

variable {regions : List EarlyRegion} {startEntry blockBaseAddress blockSize descriptorCount : Nat}
  {subTable : SubTable blockSize}

/-- What one iteration can do: nothing (no region reaches the block), store a run of
    `repeatCount + 1` blocks and move to the last of them, or store a table descriptor and the
    next level table, after the assert on its block size. -/
theorem visitDescriptor_ok {st st' : TableState}
    (h : visitDescriptor regions startEntry blockBaseAddress blockSize descriptorCount subTable st =
      .ok st') :
    st' = st ∨
    (∃ repeatCount value, repeatCount ≤ descriptorCount - st.descriptorIndex ∧
      st' = { st with
        ranges := st.ranges ++
          [⟨(st.descriptorIndex + startEntry) * 8, blockSize ||| (repeatCount + 1), value⟩],
        descriptorIndex := st.descriptorIndex + repeatCount }) ∨
    (∃ (hnext : blockSize / (granuleSize / 8) ≥ granuleSize) (used : Nat)
      (ranges : List DescriptorRange),
      subTable (st.ranges ++ [⟨(st.descriptorIndex + startEntry) * 8, 0,
          ((startEntry + st.usedEntryCount) * 8) ||| 0b11⟩])
        (startEntry + st.usedEntryCount) (blockBaseAddress + st.descriptorIndex * blockSize)
        (blockSize / (granuleSize / 8)) (nextBlockSize_lt hnext) (granuleSize / 8) =
          .ok (used, ranges) ∧
      st' = { st with ranges := ranges, usedEntryCount := st.usedEntryCount + used }) := by
  rcases hfind : findRegion regions (blockBaseAddress + st.descriptorIndex * blockSize)
      (blockBaseAddress + (st.descriptorIndex + 1) * blockSize) with _ | r
  · -- case: no region reaches the block
    simp only [visitDescriptor, hfind, pure_eq_ok, Except.ok.injEq] at h
    exact .inl h.symm
  · simp only [visitDescriptor, hfind] at h
    by_cases hcover : r.rangeStart ≤ blockBaseAddress + st.descriptorIndex * blockSize ∧
        blockBaseAddress + (st.descriptorIndex + 1) * blockSize ≤ r.rangeEnd
    · -- case: a run, clipped to `descriptor_count - descriptor_index` repeats
      simp only [if_pos hcover, pure_eq_ok, Except.ok.injEq] at h
      exact .inr (.inl ⟨_, _, Nat.min_le_right _ _, h.symm⟩)
    · simp only [if_neg hcover] at h
      by_cases hnext : blockSize / (granuleSize / 8) ≥ granuleSize
      · -- case: a table descriptor, then the next level table
        simp only [dif_pos hnext] at h
        obtain ⟨⟨used, ranges⟩, hsub, hret⟩ := bind_eq_ok.mp h
        simp only [pure_eq_ok, Except.ok.injEq] at hret
        exact .inr (.inr ⟨hnext, used, ranges, hsub, hret.symm⟩)
      · simp only [dif_neg hnext] at h
        cases h

/-- An iteration never moves the descriptor index back. -/
theorem visitDescriptor_index_le {st st' : TableState}
    (h : visitDescriptor regions startEntry blockBaseAddress blockSize descriptorCount subTable st =
      .ok st') : st.descriptorIndex ≤ st'.descriptorIndex := by
  rcases visitDescriptor_ok h with rfl | ⟨_, _, _, rfl⟩ | ⟨_, _, _, _, rfl⟩
  · exact le_refl _
  · exact Nat.le_add_right _ _
  · exact le_refl _

/-- The loop ends within `descriptor_count - descriptor_index` iterations: more fuel changes
    nothing. So the fuel `descriptor_count` that `buildRangesForTable` gives it is enough, and the
    model runs the source's loop to its end. -/
theorem descriptorLoop_fuel_add :
    ∀ (fuel k : Nat) (st : TableState), descriptorCount ≤ st.descriptorIndex + fuel →
      descriptorLoop regions startEntry blockBaseAddress blockSize descriptorCount subTable
          (fuel + k) st =
        descriptorLoop regions startEntry blockBaseAddress blockSize descriptorCount subTable fuel st
  | 0, 0, _, _ => rfl
  | 0, k + 1, st, h => by
    have hend : st.descriptorIndex ≥ descriptorCount := by omega
    simp [descriptorLoop, hend]
  | fuel + 1, k, st, h => by
    rw [Nat.add_right_comm]
    simp only [descriptorLoop]
    by_cases hend : st.descriptorIndex ≥ descriptorCount
    · simp only [if_pos hend]
    · simp only [if_neg hend]
      -- the rest of the loop runs from an index one past the one this iteration left
      cases hv : visitDescriptor regions startEntry blockBaseAddress blockSize descriptorCount
          subTable st with
      | error e => rfl
      | ok st' =>
        have hle := visitDescriptor_index_le hv
        simp only [ok_bind]
        exact descriptorLoop_fuel_add fuel k _ (by dsimp only; omega)

end Loop

/-! ### The array of ranges is filled exactly

    The macro sizes the array of ranges by `get_range_count` before `build_ranges` fills it. The
    two walk the same blocks and take the same branches, and `build_ranges` stores a range where
    `get_range_count` counts one. -/

/-- `ranges` extends `r0` by `n` ranges. -/
def Extends (r0 ranges : List DescriptorRange) (n : Nat) : Prop :=
  r0 <+: ranges ∧ ranges.length = r0.length + n

theorem Extends.refl (r0 : List DescriptorRange) : Extends r0 r0 0 :=
  ⟨List.prefix_refl r0, rfl⟩

theorem Extends.trans {r0 rs rs' : List DescriptorRange} {n m : Nat} (h : Extends r0 rs n)
    (h' : Extends rs rs' m) : Extends r0 rs' (n + m) := by
  obtain ⟨hp, hl⟩ := h
  obtain ⟨hp', hl'⟩ := h'
  exact ⟨hp.trans hp', by omega⟩

theorem Extends.append_one {r0 rs : List DescriptorRange} {n : Nat} (h : Extends r0 rs n)
    (r : DescriptorRange) : Extends r0 (rs ++ [r]) (n + 1) :=
  h.trans ⟨List.prefix_append rs [r], by simp⟩

section Agree

variable {regions : List EarlyRegion} {startEntry blockBaseAddress blockSize descriptorCount : Nat}
  {subTable : SubTable blockSize} {subCount : SubCount blockSize}

/-- The recursive calls agree: each builds as many ranges as the other counts. -/
def SubAgree (subTable : SubTable blockSize) (subCount : SubCount blockSize) : Prop :=
  ∀ ranges startEntry blockBaseAddress nextBlockSize (h : nextBlockSize < blockSize)
    descriptorCount,
    Except.Agree (fun out n => Extends ranges out.2 n)
      (subTable ranges startEntry blockBaseAddress nextBlockSize h descriptorCount)
      (subCount nextBlockSize h blockBaseAddress descriptorCount)

/-- One iteration of each loop: they take the same branch, and `build_ranges_for_table` stores a
    range where `get_range_count_of_table` counts one. -/
theorem visitDescriptor_agree (hsub : SubAgree subTable subCount) {r0 : List DescriptorRange}
    {st : TableState} {count : Nat} (hst : Extends r0 st.ranges count) :
    Except.Agree (fun st' dc => st'.descriptorIndex = dc.1 ∧ Extends r0 st'.ranges dc.2)
      (visitDescriptor regions startEntry blockBaseAddress blockSize descriptorCount subTable st)
      (countDescriptor regions blockBaseAddress blockSize descriptorCount subCount
        st.descriptorIndex count) := by
  rcases hfind : findRegion regions (blockBaseAddress + st.descriptorIndex * blockSize)
      (blockBaseAddress + (st.descriptorIndex + 1) * blockSize) with _ | r
  · -- case: no region reaches the block
    simp only [visitDescriptor, countDescriptor, hfind]
    exact ⟨rfl, hst⟩
  · simp only [visitDescriptor, countDescriptor, hfind]
    by_cases hcover : r.rangeStart ≤ blockBaseAddress + st.descriptorIndex * blockSize ∧
        blockBaseAddress + (st.descriptorIndex + 1) * blockSize ≤ r.rangeEnd
    · -- case: a run of blocks
      simp only [if_pos hcover]
      exact ⟨rfl, hst.append_one _⟩
    · simp only [if_neg hcover]
      by_cases hnext : blockSize / (granuleSize / 8) ≥ granuleSize
      · -- case: a table descriptor and the next level table
        simp only [dif_pos hnext]
        apply Except.Agree.bind (hsub _ _ _ _ _ _)
        rintro ⟨used, ranges⟩ sub hsub'
        refine ⟨rfl, ?_⟩
        have := (hst.append_one _).trans hsub'
        simpa [Nat.add_comm 1, Nat.add_assoc] using this
      · simp only [dif_neg hnext]
        trivial

/-- The two loops agree, from any state where the ranges stored so far are those counted. -/
theorem descriptorLoop_agree (hsub : SubAgree subTable subCount) {r0 : List DescriptorRange} :
    ∀ (fuel : Nat) (st : TableState) (count : Nat), Extends r0 st.ranges count →
      Except.Agree (fun st' n => Extends r0 st'.ranges n)
        (descriptorLoop regions startEntry blockBaseAddress blockSize descriptorCount subTable
          fuel st)
        (countLoop regions blockBaseAddress blockSize descriptorCount subCount fuel
          st.descriptorIndex count)
  | 0, _, _, hst => hst
  | fuel + 1, st, count, hst => by
    simp only [descriptorLoop, countLoop]
    by_cases hend : st.descriptorIndex ≥ descriptorCount
    · -- case: past the last descriptor, both loops stop
      simp only [if_pos hend]
      exact hst
    · simp only [if_neg hend]
      apply Except.Agree.bind (visitDescriptor_agree hsub hst)
      rintro st' ⟨d, count'⟩ ⟨hd, hext⟩
      subst hd
      exact descriptorLoop_agree hsub fuel _ count' hext

end Agree

/-- `build_ranges_for_table` stores as many ranges as `get_range_count_of_table` counts, and
    panics where it panics. The induction is on the block size, as the recursion is. -/
theorem buildRangesForTable_agree (regions : List EarlyRegion) (ranges : List DescriptorRange)
    (startEntry blockBaseAddress blockSize descriptorCount : Nat) :
    Except.Agree (fun out n => Extends ranges out.2 n)
      (buildRangesForTable regions ranges startEntry blockBaseAddress blockSize descriptorCount)
      (getRangeCountOfTable regions blockBaseAddress blockSize descriptorCount) := by
  rw [buildRangesForTable, getRangeCountOfTable, ← bind_pure (countLoop _ _ _ _ _ _ _ _)]
  have hsub : @SubAgree blockSize
      (fun ranges startEntry blockBaseAddress nextBlockSize _ descriptorCount =>
        buildRangesForTable regions ranges startEntry blockBaseAddress nextBlockSize
          descriptorCount)
      (fun nextBlockSize _ blockStart nextDescriptorCount =>
        getRangeCountOfTable regions blockStart nextBlockSize nextDescriptorCount) :=
    fun ranges startEntry blockBaseAddress nextBlockSize _ descriptorCount =>
      buildRangesForTable_agree regions ranges startEntry blockBaseAddress nextBlockSize
        descriptorCount
  apply Except.Agree.bind (descriptorLoop_agree hsub descriptorCount ⟨ranges, granuleSize / 8, 0⟩ 0
    (Extends.refl ranges))
  intro st n hst
  exact hst
termination_by blockSize
decreasing_by assumption

/-- The macro sizes the array of ranges by `get_range_count` and `build_ranges` fills it: both
    return or both panic, and `build_ranges` returns exactly as many ranges as the array holds.
    So it never indexes past the array, and leaves no zeroed entry in it (which the expansion
    would store as a table descriptor at offset 0). -/
theorem buildRanges_agree (regions : List EarlyRegion) :
    Except.Agree (fun out n => out.1.length = n) (buildRanges regions) (getRangeCount regions) := by
  rw [buildRanges, getRangeCount, ← bind_pure (getRangeCountOfTable _ _ _ _)]
  apply Except.Agree.bind (buildRangesForTable_agree regions [] 0 0 topLevelBlockSize
    topLevelDescriptorCount)
  rintro ⟨used, ranges⟩ n ⟨-, hlen⟩
  simpa using hlen
/-! ### The expansion of the ranges -/

/-- The stores of `init_early_page_tables` for one range, as (byte offset, value) pairs: a table
    descriptor stores `table_base + value`; a run stores `count = step_count & (GRANULE_SIZE - 1)`
    values from `value` on, `step` apart, at consecutive descriptors. The assembly loop tests for
    its end after each store, so a count of zero would never end it; `build_ranges` writes no
    such run. -/
def rangeWrites (tableBase : Nat) (r : DescriptorRange) : List (Nat × Nat) :=
  if r.stepCount = 0 then [(r.index, tableBase + r.value)]
  else
    let count := r.stepCount &&& (granuleSize - 1)
    let step := r.stepCount - count
    (List.range count).map fun i => (r.index + 8 * i, r.value + i * step)

/-- The stores of `init_early_page_tables`, range after range. -/
def writes (tableBase : Nat) (ranges : List DescriptorRange) : List (Nat × Nat) :=
  ranges.flatMap (rangeWrites tableBase)

/-- The word at byte offset `offset` of the table memory after `writes`, which start from a
    zeroed buffer: the last value stored there. -/
def memory (writes : List (Nat × Nat)) (offset : Nat) : Nat :=
  writes.foldl (fun v w => if w.1 = offset then w.2 else v) 0

/-! ### Where the expansion stores

    Each table keeps its stores between its first entry and the slot right after its last; the
    tables below it follow it in the flattened array. So every store lands in the tables or in
    the one slot after them (`buildRanges_stores_le_size`), and no further. The slot after a table
    is reached: a run is clipped to `descriptor_count - descriptor_index` repeats, one more than
    the slots left after its first block. -/

/-- The block sizes of the levels: `GRANULE_SIZE` times a power of the descriptor count of a
    table. -/
def LevelSize (blockSize : Nat) : Prop := ∃ k, blockSize = granuleSize * (granuleSize / 8) ^ k

theorem levelSize_top : LevelSize topLevelBlockSize := ⟨2, rfl⟩

theorem LevelSize.dvd {blockSize : Nat} (h : LevelSize blockSize) : granuleSize ∣ blockSize := by
  obtain ⟨k, rfl⟩ := h
  exact Dvd.intro _ rfl

/-- Below a level whose assert holds is a level. -/
theorem LevelSize.next {blockSize : Nat} (h : LevelSize blockSize)
    (hnext : blockSize / (granuleSize / 8) ≥ granuleSize) :
    LevelSize (blockSize / (granuleSize / 8)) := by
  obtain ⟨k, rfl⟩ := h
  cases k with
  | zero => exact absurd hnext (by decide)
  | succ k =>
    refine ⟨k, ?_⟩
    rw [pow_succ, ← Nat.mul_assoc, Nat.mul_div_cancel _ (by decide)]

/-! ### Granule-aligned regions never reach the assert

    The assert of both walks fails only for a block of `GRANULE_SIZE` bytes that a region
    overlaps without covering. Blocks start at multiples of their size, so a region whose ends are
    multiples of the granule covers every granule block it overlaps. -/

/-- Both ends of every region are multiples of `GRANULE_SIZE`. -/
def Aligned (regions : List EarlyRegion) : Prop :=
  ∀ r ∈ regions, granuleSize ∣ r.rangeStart ∧ granuleSize ∣ r.rangeEnd

/-- The region the inner loop picks is one of the regions and covers or overlaps the block. -/
theorem findRegion_spec {regions : List EarlyRegion} {blockStart blockEnd : Nat}
    {r : EarlyRegion} (h : findRegion regions blockStart blockEnd = some r) :
    r ∈ regions ∧ ((r.rangeStart ≤ blockStart ∧ blockEnd ≤ r.rangeEnd) ∨
      overlaps blockStart blockEnd r.rangeStart r.rangeEnd = true) := by
  refine ⟨List.mem_of_find?_eq_some h, ?_⟩
  have hp := List.find?_some h
  simpa only [Bool.or_eq_true, Bool.and_eq_true, decide_eq_true_eq] using hp

/-- An aligned region that overlaps an aligned granule block covers it. -/
theorem covers_of_overlaps {r : EarlyRegion} {blockStart : Nat}
    (hr : granuleSize ∣ r.rangeStart ∧ granuleSize ∣ r.rangeEnd)
    (hb : granuleSize ∣ blockStart)
    (h : overlaps blockStart (blockStart + granuleSize) r.rangeStart r.rangeEnd = true) :
    r.rangeStart ≤ blockStart ∧ blockStart + granuleSize ≤ r.rangeEnd := by
  obtain ⟨⟨a, ha⟩, ⟨b, hb'⟩⟩ := hr
  obtain ⟨c, rfl⟩ := hb
  simp only [overlaps, decide_eq_true_eq, ha, hb', granuleSize] at h ⊢
  omega

section Aligned

variable {regions : List EarlyRegion} {blockBaseAddress blockSize descriptorCount : Nat}
  {subCount : SubCount blockSize}

/-- One iteration of the counting walk succeeds on aligned regions, at a level whose blocks are
    granule aligned, when the next level table's walk does. -/
theorem countDescriptor_ok (haligned : Aligned regions) (hbs : LevelSize blockSize)
    (hbase : granuleSize ∣ blockBaseAddress)
    (hsub : ∀ (hnext : blockSize / (granuleSize / 8) ≥ granuleSize) (base : Nat),
      granuleSize ∣ base → ∃ n, subCount (blockSize / (granuleSize / 8)) (nextBlockSize_lt hnext)
        base (granuleSize / 8) = .ok n)
    (d count : Nat) :
    ∃ r, countDescriptor regions blockBaseAddress blockSize descriptorCount subCount d count =
      .ok r := by
  have hblock : granuleSize ∣ blockBaseAddress + d * blockSize :=
    Nat.dvd_add hbase (Dvd.dvd.mul_left hbs.dvd d)
  rcases hfind : findRegion regions (blockBaseAddress + d * blockSize)
      (blockBaseAddress + (d + 1) * blockSize) with _ | r
  · -- case: no region reaches the block
    simp only [countDescriptor, hfind]
    exact ⟨_, rfl⟩
  · simp only [countDescriptor, hfind]
    by_cases hcover : r.rangeStart ≤ blockBaseAddress + d * blockSize ∧
        blockBaseAddress + (d + 1) * blockSize ≤ r.rangeEnd
    · -- case: a run of blocks
      simp only [if_pos hcover]
      exact ⟨_, rfl⟩
    · simp only [if_neg hcover]
      by_cases hnext : blockSize / (granuleSize / 8) ≥ granuleSize
      · -- case: a next level table, whose walk succeeds
        obtain ⟨n, hn⟩ := hsub hnext _ hblock
        simp only [dif_pos hnext, hn, ok_bind]
        exact ⟨_, rfl⟩
      · -- case: the assert; the block is a granule, which the region would cover
        exfalso
        obtain ⟨hmem, hcov | hover⟩ := findRegion_spec hfind
        · exact hcover hcov
        · obtain ⟨k, rfl⟩ := hbs
          cases k with
          | succ k =>
            apply hnext
            rw [pow_succ, ← Nat.mul_assoc, Nat.mul_div_cancel _ (by decide)]
            exact Nat.le_mul_of_pos_right _ (Nat.pow_pos (by decide))
          | zero =>
            have hend : blockBaseAddress + (d + 1) * (granuleSize * (granuleSize / 8) ^ 0) =
                blockBaseAddress + d * (granuleSize * (granuleSize / 8) ^ 0) + granuleSize := by
              rw [pow_zero, Nat.mul_one, Nat.add_mul, Nat.one_mul, Nat.add_assoc]
            rw [hend] at hover hcover
            exact hcover (covers_of_overlaps (haligned r hmem) hblock hover)

/-- The counting loop succeeds when each of its iterations does. -/
theorem countLoop_ok
    (hstep : ∀ d count, ∃ r, countDescriptor regions blockBaseAddress blockSize descriptorCount
      subCount d count = .ok r) :
    ∀ (fuel d count : Nat), ∃ n,
      countLoop regions blockBaseAddress blockSize descriptorCount subCount fuel d count = .ok n
  | 0, _, _ => ⟨_, rfl⟩
  | fuel + 1, d, count => by
    simp only [countLoop]
    by_cases hend : d ≥ descriptorCount
    · simp only [if_pos hend]
      exact ⟨_, rfl⟩
    · simp only [if_neg hend]
      obtain ⟨⟨d', count'⟩, hd⟩ := hstep d count
      simp only [hd, ok_bind]
      exact countLoop_ok hstep fuel (d' + 1) count'

end Aligned

/-- `get_range_count_of_table` succeeds on aligned regions, for a table at any level whose base
    address is granule aligned. The induction is on the block size, as the recursion is. -/
theorem getRangeCountOfTable_ok {regions : List EarlyRegion} (haligned : Aligned regions)
    (blockBaseAddress blockSize descriptorCount : Nat) (hbs : LevelSize blockSize)
    (hbase : granuleSize ∣ blockBaseAddress) :
    ∃ n, getRangeCountOfTable regions blockBaseAddress blockSize descriptorCount = .ok n := by
  rw [getRangeCountOfTable]
  apply countLoop_ok
  intro d count
  apply countDescriptor_ok haligned hbs hbase
  intro hnext base hb
  exact getRangeCountOfTable_ok haligned base _ _ (hbs.next hnext) hb
termination_by blockSize
decreasing_by exact nextBlockSize_lt hnext

/-- On granule-aligned regions neither walk panics, and `get_range_count` is the number of ranges
    `build_ranges` writes from the top level table: the array the macro sizes by it is filled
    exactly, with no trailing zero entry. -/
theorem rangeCount_matches_build {regions : List EarlyRegion} (haligned : Aligned regions) :
    ∃ ranges size, buildRanges regions = .ok (ranges, size) ∧
      getRangeCount regions = .ok ranges.length := by
  obtain ⟨n, hn⟩ := getRangeCountOfTable_ok haligned 0 topLevelBlockSize topLevelDescriptorCount
    levelSize_top (Nat.dvd_zero _)
  obtain ⟨⟨ranges, size⟩, hbuild, hlen⟩ := Except.Agree.of_ok_right (buildRanges_agree regions) hn
  have hlen' : ranges.length = n := hlen
  exact ⟨ranges, size, hbuild, by rw [hlen']; exact hn⟩

/-- The regions of the repository's test `map_complex`. -/
theorem rangeCount_matches_build_mapComplex :
    Aligned [⟨0, 0x4000_0000, 0x10⟩, ⟨0x4000_0000, 0x4040_0000, 0x20⟩,
        ⟨0x8000_0000, 0x8000_3000, 0x30⟩] ∧
      ∃ ranges size, buildRanges [⟨0, 0x4000_0000, 0x10⟩, ⟨0x4000_0000, 0x4040_0000, 0x20⟩,
          ⟨0x8000_0000, 0x8000_3000, 0x30⟩] = .ok (ranges, size) ∧
        getRangeCount [⟨0, 0x4000_0000, 0x10⟩, ⟨0x4000_0000, 0x4040_0000, 0x20⟩,
          ⟨0x8000_0000, 0x8000_3000, 0x30⟩] = .ok ranges.length := by
  have haligned : Aligned [⟨0, 0x4000_0000, 0x10⟩, ⟨0x4000_0000, 0x4040_0000, 0x20⟩,
      ⟨0x8000_0000, 0x8000_3000, 0x30⟩] := by
    intro r hr
    simp only [List.mem_cons, List.not_mem_nil, or_false] at hr
    rcases hr with rfl | rfl | rfl <;> decide
  exact ⟨haligned, rangeCount_matches_build haligned⟩

/-- Every store of every range of `rs` is at a byte offset in `lo..=hi`. -/
def StoresWithin (tableBase lo hi : Nat) (rs : List DescriptorRange) : Prop :=
  ∀ r ∈ rs, ∀ w ∈ rangeWrites tableBase r, lo ≤ w.1 ∧ w.1 ≤ hi

theorem StoresWithin.mono {tableBase lo hi lo' hi' : Nat} {rs : List DescriptorRange}
    (h : StoresWithin tableBase lo hi rs) (hlo : lo' ≤ lo) (hhi : hi ≤ hi') :
    StoresWithin tableBase lo' hi' rs := by
  intro r hr w hw
  obtain ⟨h1, h2⟩ := h r hr w hw
  exact ⟨by omega, by omega⟩

section Stores

variable {regions : List EarlyRegion} {startEntry blockBaseAddress blockSize descriptorCount : Nat}
  {subTable : SubTable blockSize} {tableBase : Nat}

end Stores

/-- What a translation finds for an address: the output address and the attribute bits of the
    descriptor. -/
structure Mapping where
  outputAddress : Nat
  attributes : Nat
  deriving DecidableEq, Repr

/-- The output address field of a block or page descriptor for blocks of `blockSize` bytes. -/
def outputAddress (desc blockSize : Nat) : Nat := desc % 2 ^ 48 / blockSize * blockSize

/-- The stage 1 walk for `va` from the table at byte offset `table` of the table memory `mem`,
    whose blocks are `blockSize` bytes, for at most `levels` levels. Bit 0 of a descriptor marks
    it valid; above the last level bit 1 marks a table (whose address, from `tableBase`, is in
    bits 47..12) rather than a block; at the last level it marks a page. -/
def walk (mem : Nat → Nat) (tableBase : Nat) :
    (levels table blockSize va : Nat) → Option Mapping
  | 0, _, _, _ => none
  | levels + 1, table, blockSize, va =>
    let desc := mem (table + va / blockSize % 512 * 8)
    if desc % 2 = 0 then none
    else if blockSize = granuleSize then
      if desc / 2 % 2 = 1 then
        some ⟨outputAddress desc blockSize + va % blockSize, desc - outputAddress desc blockSize - 3⟩
      else none
    else if desc / 2 % 2 = 0 then
      some ⟨outputAddress desc blockSize + va % blockSize, desc - outputAddress desc blockSize - 1⟩
    else walk mem tableBase levels (outputAddress desc granuleSize - tableBase) (blockSize / 512) va

/-- The translation of `va` by the early page tables built for `regions` at `tableBase`. -/
def translate (tableBase : Nat) (regions : List EarlyRegion) (va : Nat) :
    Except Panic (Option Mapping) := do
  let (ranges, _) ← buildRanges regions
  pure (walk (memory (writes tableBase ranges)) tableBase 3 0 topLevelBlockSize va)

/-- A run of blocks is clipped to `descriptor_count - descriptor_index` repeats, one more than
    the slots left after its first block: a region that starts inside a table and runs past its
    end gets a descriptor stored in the slot after the table. Mapping 512MB..2GB stores at byte
    `0x2000` of tables that take `0x2000` bytes. With a second region 2GB+2MB..2GB+4MB that slot
    is the first of the next table, and the address 2GB, outside both regions, maps to 1GB. -/
theorem buildRanges_stores_past_table :
    buildRanges [⟨0x2000_0000, 0x8000_0000, 0⟩] =
        .ok ([⟨0, 0, 0x1003⟩, ⟨0x1800, 0x20_0101, 0x2000_0001⟩, ⟨8, 0x4000_0001, 0x4000_0001⟩],
          0x2000) ∧
      (0x2000, 0x4000_0001) ∈ writes 0x0400_0000
        [⟨0, 0, 0x1003⟩, ⟨0x1800, 0x20_0101, 0x2000_0001⟩, ⟨8, 0x4000_0001, 0x4000_0001⟩] ∧
      translate 0x0400_0000 [⟨0x2000_0000, 0x8000_0000, 0⟩, ⟨0x8020_0000, 0x8040_0000, 0⟩]
        0x8000_0000 = .ok (some ⟨0x4000_0000, 0⟩) := by
  refine ⟨by decide +kernel, by decide +kernel, by decide +kernel⟩

end RustedFirmware.EarlyPagetable
