import RustedFirmware.Services.Attestation

set_option autoImplicit false

/-! The RMM boot manifest encoder, `RmmBootManifest::pack` (`src/services/rmmd/manifest.rs`).

    `pack` writes the platform boot information into the shared buffer of
    `RMM_SHARED_BUFFER_SIZE` bytes: the `repr(C)` header at the start, then the platform data, the
    entries of the five checksummed lists, the root complexes, and for each root complex its root
    ports, each followed by its BDF mappings. Each region is split off the front of what is left of
    the buffer, and the header records its physical address `buf_pa + offset`, the number of
    entries and a checksum.

    The buffer is memory from its offset 0. A split past the end panics, the closure `addr_of`
    asserts that the offset lies inside the buffer, and zerocopy's `mut_from_bytes` fails on a
    misaligned slice; the buffer is page aligned, so alignment is that of the offset. The build
    profiles enable overflow checks, so the sum in `compute_checksum` and the addition in
    `addr_of` panic where they would wrap. Multi-byte fields are stored little-endian.

    The header's `padding` and each root port's `padding` are never written: they keep the
    buffer's bytes (`pack_headerPadding`).

    `pack` runs in stages (`pack_eq`): the platform data, the five lists, the root complexes. Each
    stage stores only in its own header fields and its own region, and every later stage stores
    past both, so what a stage stored is still there at the end. The RMM reads the manifest back
    from there: every header field is the manifest's, every pointer is the physical address of its
    region, and every checksum verifies (`pack_reads_back`). -/

namespace RustedFirmware.Rmmd

open Rust

/-- `PAGE_SIZE` of `aarch64_paging`. -/
def pageSize : Nat := 0x1000

/-- `size_of::<RmmBootManifestHeader>()`. -/
def headerSize : Nat := 168

/-- The `width` little-endian bytes of `n`, as the target stores an integer of that width. -/
def leBytes (width n : Nat) : List UInt8 := (List.range width).map fun k => UInt8.ofNat (n / 256 ^ k)

@[simp] theorem length_leBytes (width n : Nat) : (leBytes width n).length = width := by
  simp [leBytes]

/-- The value of little-endian bytes. -/
def leValue (bytes : List UInt8) : Nat := bytes.foldr (fun b acc => b.toNat + 256 * acc) 0

/-- The 64-bit words `<[u64]>::ref_from_bytes` reads from bytes whose length is a multiple of 8. -/
def words (bytes : List UInt8) : List Nat :=
  (List.range (bytes.length / 8)).map fun i => leValue ((bytes.drop (8 * i)).take 8)

/-- `RmmBootManifestVersion`. -/
structure RmmBootManifestVersion where
  minor : UInt16
  major : UInt16
  deriving DecidableEq, Repr

/-- `From<RmmBootManifestVersion> for u32`. -/
def RmmBootManifestVersion.toU32 (v : RmmBootManifestVersion) : UInt32 :=
  v.major.toUInt32 <<< 16 ||| v.minor.toUInt32

/-- `RmmMemoryBank`. -/
structure RmmMemoryBank where
  base : UInt64
  size : UInt64
  deriving DecidableEq, Repr

/-- `RmmConsoleInfo`. -/
structure RmmConsoleInfo where
  base : UInt64
  mapPages : UInt64
  name : Vector UInt8 8
  clkInHz : UInt64
  baudRate : UInt64
  flags : UInt64
  deriving DecidableEq, Repr

/-- `RmmSmmuInfo`. -/
structure RmmSmmuInfo where
  smmuBase : UInt64
  smmuRBase : UInt64
  deriving DecidableEq, Repr

/-- `BdfMappingInfo`. -/
structure BdfMappingInfo where
  mappingBase : UInt16
  mappingTop : UInt16
  mappingOff : UInt16
  smmuIdx : UInt16
  deriving DecidableEq, Repr

/-- `RmmRootPortInfo`. -/
structure RmmRootPortInfo where
  rootPortId : UInt16
  entries : List BdfMappingInfo
  deriving DecidableEq, Repr

/-- `RmmRootComplexInfo`. -/
structure RmmRootComplexInfo where
  ecamBase : UInt64
  segment : UInt8
  entries : List RmmRootPortInfo
  deriving DecidableEq, Repr

/-- `RmmRootComplexInfoList`. -/
structure RmmRootComplexInfoList where
  rcInfoVersion : RmmBootManifestVersion
  entries : List RmmRootComplexInfo
  deriving DecidableEq, Repr

/-- `RmmBootManifest`. -/
structure RmmBootManifest where
  version : RmmBootManifestVersion
  platData : List UInt8
  platDram : List RmmMemoryBank
  platConsole : List RmmConsoleInfo
  platNcohRegion : List RmmMemoryBank
  platCohRegion : List RmmMemoryBank
  platSmmu : List RmmSmmuInfo
  platRootComplex : RmmRootComplexInfoList
  deriving DecidableEq, Repr

/-! ### `as_bytes` of the entry types, in their `repr(C)` layout -/

/-- The bytes of an `RmmMemoryBank`. -/
def RmmMemoryBank.asBytes (b : RmmMemoryBank) : List UInt8 :=
  leBytes 8 b.base.toNat ++ leBytes 8 b.size.toNat

/-- The bytes of an `RmmConsoleInfo`. -/
def RmmConsoleInfo.asBytes (c : RmmConsoleInfo) : List UInt8 :=
  leBytes 8 c.base.toNat ++ leBytes 8 c.mapPages.toNat ++ c.name.toList ++
    leBytes 8 c.clkInHz.toNat ++ leBytes 8 c.baudRate.toNat ++ leBytes 8 c.flags.toNat

/-- The bytes of an `RmmSmmuInfo`. -/
def RmmSmmuInfo.asBytes (s : RmmSmmuInfo) : List UInt8 :=
  leBytes 8 s.smmuBase.toNat ++ leBytes 8 s.smmuRBase.toNat

/-- The bytes of a `BdfMappingInfo`. -/
def BdfMappingInfo.asBytes (b : BdfMappingInfo) : List UInt8 :=
  leBytes 2 b.mappingBase.toNat ++ leBytes 2 b.mappingTop.toNat ++ leBytes 2 b.mappingOff.toNat ++
    leBytes 2 b.smmuIdx.toNat

/-! ### The slices of the buffer -/

/-- `split_at_mut(mid)` of what is left of the buffer from offset `off`: the offset at which the
    second part starts. -/
def splitAtMut (off mid : Nat) : Except Panic Nat :=
  if mid ≤ rmmSharedBufferSize - off then pure (off + mid) else throw (.explicit "mid > len")

/-- The closure `addr_of`: the physical address of the slice at offset `off`. -/
def addrOf (bufPa off : Nat) : Except Panic Nat :=
  if off < rmmSharedBufferSize then Usize.add bufPa off
  else throw (.assertFailed "off < RMM_SHARED_BUFFER_SIZE")

/-- The alignment check of `mut_from_bytes(..).unwrap()` for the slice at offset `off`. -/
def checkAlign (off align : Nat) : Except Panic Unit :=
  if off % align = 0 then pure () else throw .unwrapFailed

/-- `compute_checksum`: the negated sum of the 64-bit words of `buf` and of `other`. The slices it
    is given are 8-byte aligned (a list's own entries, or the root complex region that
    `mut_from_bytes` has checked), so `ref_from_bytes` only fails on the length, which the assert
    checks first. -/
def computeChecksum (buf : List UInt8) (other : List Nat) : Except Panic Nat := do
  if buf.length % 8 ≠ 0 then
    throw (.assertFailed "buf.len().is_multiple_of(size_of::<u64>() / size_of::<u8>())")
  let sum ← Usize.sum (words buf ++ other)
  pure ((2 ^ 64 - sum) % 2 ^ 64)

/-! ### `pack` -/

/-- `make_list!` for one list: its entries' bytes go to the front of what is left of the buffer,
    at `off`, and its `ChecksummedList` at `hdrOff` gets the number of entries, their address (0
    for an empty list) and the checksum. It returns the buffer and the offset of what is left. The
    five lists are the five uses of the macro. -/
def makeList {α : Type} (asBytes : α → List UInt8) (bufPa hdrOff : Nat) (list : List α)
    (buf : Memory) (off : Nat) : Except Panic (Memory × Nat) := do
  let selfList := list.flatMap asBytes
  let rest ← splitAtMut off selfList.length
  let buf := writeSlice buf hdrOff (leBytes 8 list.length)
  let entriesPtr ← (if list.isEmpty then pure 0 else addrOf bufPa off)
  let buf := writeSlice buf (hdrOff + 8) (leBytes 8 entriesPtr)
  let checksum ← computeChecksum selfList [list.length, entriesPtr]
  let buf := writeSlice buf (hdrOff + 16) (leBytes 8 checksum)
  pure (writeSlice buf off selfList, rest)

/-- The loop over a root complex's ports: the `RmmRootPortInfoInternal` of each at `hdrOff`,
    whose `padding` is not written, and its BDF mappings at the front of what is left, `rem`. -/
def portLoop (bufPa : Nat) : List RmmRootPortInfo → (hdrOff : Nat) → Memory → (rem : Nat) →
    Except Panic (Memory × Nat)
  | [], _, buf, rem => pure (buf, rem)
  | port :: ports, hdrOff, buf, rem => do
    let bdfs := port.entries.flatMap BdfMappingInfo.asBytes
    let next ← splitAtMut rem bdfs.length
    let buf := writeSlice buf hdrOff (leBytes 2 port.rootPortId.toNat)
    let buf := writeSlice buf (hdrOff + 4) (leBytes 4 port.entries.length)
    let ptr ← addrOf bufPa rem
    let buf := writeSlice buf (hdrOff + 8) (leBytes 8 ptr)
    checkAlign rem 2
    portLoop bufPa ports (hdrOff + 16) (writeSlice buf rem bdfs) next

/-- The loop over the root complexes: the `RmmRootComplexInfoInternal` of each at `hdrOff`, and
    its ports at the front of what is left, `rem`, followed by their BDF mappings. -/
def rootLoop (bufPa : Nat) : List RmmRootComplexInfo → (hdrOff : Nat) → Memory → (rem : Nat) →
    Except Panic (Memory × Nat)
  | [], _, buf, rem => pure (buf, rem)
  | root :: roots, hdrOff, buf, rem => do
    let next ← splitAtMut rem (root.entries.length * 16)
    let buf := writeSlice buf (hdrOff + 9) [0, 0, 0]
    let buf := writeSlice buf hdrOff (leBytes 8 root.ecamBase.toNat)
    let buf := writeSlice buf (hdrOff + 8) [root.segment]
    let buf := writeSlice buf (hdrOff + 12) (leBytes 4 root.entries.length)
    let ptr ← addrOf bufPa rem
    let buf := writeSlice buf (hdrOff + 16) (leBytes 8 ptr)
    checkAlign rem 8
    let (buf, next) ← portLoop bufPa root.entries rem buf next
    rootLoop bufPa roots (hdrOff + 24) buf next

/-- `RmmBootManifest::pack` into the buffer `buf` at virtual address `bufVa` and physical address
    `bufPa`. The header fields are at their `repr(C)` offsets: `version` at 0, `plat_data` at 8,
    the five `ChecksummedList`s at 16, 40, 64, 88 and 112, and `plat_root_complex` at 136 with
    `num_entries`, `rc_info_version`, `padding`, `entries_ptr` and `checksum` at 136, 144, 148, 152
    and 160. -/
def RmmBootManifest.pack (m : RmmBootManifest) (bufVa : Nat) (buf : Memory) (bufPa : Nat) :
    Except Panic Memory := do
  if bufVa % pageSize ≠ 0 then
    throw (.assertFailed "(buf.as_ptr() as usize).is_multiple_of(PAGE_SIZE)")
  let buf := writeSlice buf 0 (leBytes 4 m.version.toU32.toNat)
  let rest ← splitAtMut headerSize m.platData.length
  let platDataPtr ← addrOf bufPa headerSize
  let buf := writeSlice buf 8 (leBytes 8 platDataPtr)
  let buf := writeSlice buf headerSize m.platData
  let (buf, rest) ← makeList RmmMemoryBank.asBytes bufPa 16 m.platDram buf rest
  let (buf, rest) ← makeList RmmConsoleInfo.asBytes bufPa 40 m.platConsole buf rest
  let (buf, rest) ← makeList RmmMemoryBank.asBytes bufPa 64 m.platNcohRegion buf rest
  let (buf, rest) ← makeList RmmMemoryBank.asBytes bufPa 88 m.platCohRegion buf rest
  let (buf, rootStart) ← makeList RmmSmmuInfo.asBytes bufPa 112 m.platSmmu buf rest
  let roots := m.platRootComplex.entries
  let rem ← splitAtMut rootStart (roots.length * 24)
  let rcInfoVersion := m.platRootComplex.rcInfoVersion.toU32.toNat
  let buf := writeSlice buf 144 (leBytes 4 rcInfoVersion)
  let buf := writeSlice buf 148 (leBytes 4 0)
  let entriesPtr ← addrOf bufPa rootStart
  let buf := writeSlice buf 152 (leBytes 8 entriesPtr)
  let buf := writeSlice buf 136 (leBytes 8 roots.length)
  checkAlign rootStart 8
  let (buf, rem) ← rootLoop bufPa roots rootStart buf rem
  let checksum ← computeChecksum (readSlice buf rootStart (rem - rootStart))
    [roots.length, rcInfoVersion, entriesPtr]
  pure (writeSlice buf 160 (leBytes 8 checksum))

/-! ### The stages of `pack` -/

/-- The start of `pack` after its alignment assert: the version, and the platform data at the
    front of the buffer after the header, with its address in the header. It returns the buffer and
    the offset of what is left. -/
def RmmBootManifest.packPlatData (m : RmmBootManifest) (buf : Memory) (bufPa : Nat) :
    Except Panic (Memory × Nat) := do
  let buf := writeSlice buf 0 (leBytes 4 m.version.toU32.toNat)
  let rest ← splitAtMut headerSize m.platData.length
  let platDataPtr ← addrOf bufPa headerSize
  let buf := writeSlice buf 8 (leBytes 8 platDataPtr)
  pure (writeSlice buf headerSize m.platData, rest)

/-- The end of `pack`: the root complexes from `rootStart` on, and the header's
    `plat_root_complex` with its checksum. -/
def packRootComplex (list : RmmRootComplexInfoList) (bufPa : Nat) (buf : Memory)
    (rootStart : Nat) : Except Panic Memory := do
  let roots := list.entries
  let rem ← splitAtMut rootStart (roots.length * 24)
  let rcInfoVersion := list.rcInfoVersion.toU32.toNat
  let buf := writeSlice buf 144 (leBytes 4 rcInfoVersion)
  let buf := writeSlice buf 148 (leBytes 4 0)
  let entriesPtr ← addrOf bufPa rootStart
  let buf := writeSlice buf 152 (leBytes 8 entriesPtr)
  let buf := writeSlice buf 136 (leBytes 8 roots.length)
  checkAlign rootStart 8
  let (buf, rem) ← rootLoop bufPa roots rootStart buf rem
  let checksum ← computeChecksum (readSlice buf rootStart (rem - rootStart))
    [roots.length, rcInfoVersion, entriesPtr]
  pure (writeSlice buf 160 (leBytes 8 checksum))

/-- `pack` is its alignment assert, the platform data, the five lists and the root complexes, one
    after the other. -/
theorem pack_eq (m : RmmBootManifest) (bufVa : Nat) (buf : Memory) (bufPa : Nat) :
    m.pack bufVa buf bufPa =
      if bufVa % pageSize ≠ 0 then
        throw (.assertFailed "(buf.as_ptr() as usize).is_multiple_of(PAGE_SIZE)")
      else (do
        let (buf, rest) ← m.packPlatData buf bufPa
        let (buf, rest) ← makeList RmmMemoryBank.asBytes bufPa 16 m.platDram buf rest
        let (buf, rest) ← makeList RmmConsoleInfo.asBytes bufPa 40 m.platConsole buf rest
        let (buf, rest) ← makeList RmmMemoryBank.asBytes bufPa 64 m.platNcohRegion buf rest
        let (buf, rest) ← makeList RmmMemoryBank.asBytes bufPa 88 m.platCohRegion buf rest
        let (buf, rootStart) ← makeList RmmSmmuInfo.asBytes bufPa 112 m.platSmmu buf rest
        packRootComplex m.platRootComplex bufPa buf rootStart) := by
  unfold RmmBootManifest.pack RmmBootManifest.packPlatData packRootComplex
  split
  · rfl
  · simp only [bind_assoc, pure_bind]

/-! ### Where `pack` puts each region -/

namespace RmmBootManifest

/-- The offset of the entries of `plat_dram`: after the header and the platform data. The
    entries of each list follow those of the one before, and the root complexes follow
    `plat_smmu`'s. -/
def dramStart (m : RmmBootManifest) : Nat := headerSize + m.platData.length

def consoleStart (m : RmmBootManifest) : Nat :=
  m.dramStart + (m.platDram.flatMap RmmMemoryBank.asBytes).length

def ncohStart (m : RmmBootManifest) : Nat :=
  m.consoleStart + (m.platConsole.flatMap RmmConsoleInfo.asBytes).length

def cohStart (m : RmmBootManifest) : Nat :=
  m.ncohStart + (m.platNcohRegion.flatMap RmmMemoryBank.asBytes).length

def smmuStart (m : RmmBootManifest) : Nat :=
  m.cohStart + (m.platCohRegion.flatMap RmmMemoryBank.asBytes).length

def rootStart (m : RmmBootManifest) : Nat :=
  m.smmuStart + (m.platSmmu.flatMap RmmSmmuInfo.asBytes).length

/-- The regions follow the header, each after the one before. -/
theorem starts_le (m : RmmBootManifest) :
    headerSize ≤ m.dramStart ∧ m.dramStart ≤ m.consoleStart ∧ m.consoleStart ≤ m.ncohStart ∧
      m.ncohStart ≤ m.cohStart ∧ m.cohStart ≤ m.smmuStart ∧ m.smmuStart ≤ m.rootStart :=
  ⟨Nat.le_add_right _ _, Nat.le_add_right _ _, Nat.le_add_right _ _, Nat.le_add_right _ _,
    Nat.le_add_right _ _, Nat.le_add_right _ _⟩

end RmmBootManifest

/-- The bytes of the BDF mappings of the root ports `ports`. -/
def bdfsLength (ports : List RmmRootPortInfo) : Nat :=
  (ports.map fun port => (port.entries.flatMap BdfMappingInfo.asBytes).length).sum

/-- The bytes `pack` lays out for the root complexes `roots`: their entries, then for each its
    root ports' entries and their BDF mappings. -/
def rootComplexLength (roots : List RmmRootComplexInfo) : Nat :=
  roots.length * 24 + (roots.map fun root => root.entries.length * 16 + bdfsLength root.entries).sum

/-! ### The checksum -/

/-- `compute_checksum` returns when the length is a multiple of 8 and the sum stays within
    `u64`, and then returns the sum's two's complement. -/
theorem computeChecksum_eq_ok {buf : List UInt8} {other : List Nat} {c : Nat} :
    computeChecksum buf other = .ok c ↔ buf.length % 8 = 0 ∧
      (words buf ++ other).sum < 2 ^ 64 ∧ c = (2 ^ 64 - (words buf ++ other).sum) % 2 ^ 64 := by
  unfold computeChecksum
  split
  case isTrue hlen =>
    constructor
    · intro h
      cases h
    · rintro ⟨hmod, -⟩
      exact absurd hmod hlen
  case isFalse hlen =>
    rw [bind_eq_ok]
    constructor
    · rintro ⟨sum, hsum, hc⟩
      obtain ⟨rfl, hlt⟩ := Usize.sum_eq_ok.mp hsum
      exact ⟨not_not.mp hlen, hlt, (Except.ok.inj hc).symm⟩
    · rintro ⟨-, hlt, rfl⟩
      exact ⟨_, Usize.sum_eq_ok.mpr ⟨rfl, hlt⟩, rfl⟩

/-- The words, the other values and a checksum `compute_checksum` returns add up to 0 modulo
    2^64, which is what the RMM checks. -/
theorem checksum_add_eq_zero {buf : List UInt8} {other : List Nat} {c : Nat}
    (h : computeChecksum buf other = .ok c) : ((words buf ++ other).sum + c) % 2 ^ 64 = 0 := by
  obtain ⟨-, hlt, rfl⟩ := computeChecksum_eq_ok.mp h
  omega

/-! ### What the pieces of `pack` write -/

/-- The bytes from `lo` to `hi` are the same in two buffers. -/
def Unchanged (lo hi : Nat) (buf buf' : Memory) : Prop := ∀ a, lo ≤ a → a < hi → buf' a = buf a

theorem Unchanged.refl {lo hi : Nat} (buf : Memory) : Unchanged lo hi buf buf := fun _ _ _ => rfl

theorem Unchanged.trans {lo hi : Nat} {buf buf' buf'' : Memory} (h : Unchanged lo hi buf buf')
    (h' : Unchanged lo hi buf' buf'') : Unchanged lo hi buf buf'' :=
  fun a hlo hhi => (h' a hlo hhi).trans (h a hlo hhi)

/-- A store of a slice that ends before `lo` or starts at `hi` or after leaves `lo..hi`. -/
theorem Unchanged.writeSlice {lo hi addr : Nat} (buf : Memory) (bytes : List UInt8)
    (h : addr + bytes.length ≤ lo ∨ hi ≤ addr) : Unchanged lo hi buf (writeSlice buf addr bytes) :=
  fun _ hlo hhi => writeSlice_of_outside buf bytes (by omega)

theorem Unchanged.mono {lo hi lo' hi' : Nat} {buf buf' : Memory} (h : Unchanged lo hi buf buf')
    (hlo : lo ≤ lo') (hhi : hi' ≤ hi) : Unchanged lo' hi' buf buf' :=
  fun a hlo' hhi' => h a (by omega) (by omega)

theorem splitAtMut_eq_ok {off mid rest : Nat} :
    splitAtMut off mid = .ok rest ↔ rest = off + mid ∧ mid ≤ rmmSharedBufferSize - off := by
  unfold splitAtMut
  split_ifs with h
  · exact ⟨fun he => ⟨(Except.ok.inj he).symm, h⟩, fun ⟨he, _⟩ => he ▸ rfl⟩
  · constructor
    · intro he
      cases he
    · rintro ⟨-, hle⟩
      exact absurd hle h

/-- `make_list!` returns what is left after the list's bytes. -/
theorem makeList_rest {α : Type} {asBytes : α → List UInt8} {bufPa hdrOff off rest : Nat}
    {list : List α} {buf buf' : Memory}
    (h : makeList asBytes bufPa hdrOff list buf off = .ok (buf', rest)) :
    rest = off + (list.flatMap asBytes).length := by
  obtain ⟨rest', hsplit, h⟩ := bind_eq_ok.mp h
  obtain ⟨_, -, h⟩ := bind_eq_ok.mp h
  obtain ⟨_, -, h⟩ := bind_eq_ok.mp h
  cases h
  exact (splitAtMut_eq_ok.mp hsplit).1

/-- `make_list!` writes only its `ChecksummedList` and its entries. -/
theorem makeList_unchanged {α : Type} {asBytes : α → List UInt8} {bufPa hdrOff off rest : Nat}
    {list : List α} {buf buf' : Memory} {lo hi : Nat}
    (h : makeList asBytes bufPa hdrOff list buf off = .ok (buf', rest))
    (hhdr : hdrOff + 24 ≤ lo ∨ hi ≤ hdrOff) (hdata : rest ≤ lo ∨ hi ≤ off) :
    Unchanged lo hi buf buf' := by
  have hrest := makeList_rest h
  obtain ⟨_, -, h⟩ := bind_eq_ok.mp h
  obtain ⟨_, -, h⟩ := bind_eq_ok.mp h
  obtain ⟨_, -, h⟩ := bind_eq_ok.mp h
  cases h
  -- the three fields of the `ChecksummedList`, then the entries
  refine (((Unchanged.writeSlice _ _ ?_).trans (Unchanged.writeSlice _ _ ?_)).trans
    (Unchanged.writeSlice _ _ ?_)).trans (Unchanged.writeSlice _ _ ?_)
  · simp only [length_leBytes]; omega
  · simp only [length_leBytes]; omega
  · simp only [length_leBytes]; omega
  · omega

/-- The port loop writes nothing below its first entry and below the BDF mappings. -/
theorem portLoop_unchanged {bufPa lo : Nat} :
    ∀ {ports : List RmmRootPortInfo} {hdrOff rem rem' : Nat} {buf buf' : Memory},
      portLoop bufPa ports hdrOff buf rem = .ok (buf', rem') → lo ≤ hdrOff → lo ≤ rem →
      Unchanged 0 lo buf buf'
  | [], _, _, _, _, _, h, _, _ => by
    cases h
    exact Unchanged.refl _
  | port :: ports, hdrOff, rem, rem', buf, buf', h, hhdr, hrem => by
    obtain ⟨next, hsplit, h⟩ := bind_eq_ok.mp h
    obtain ⟨_, -, h⟩ := bind_eq_ok.mp h
    obtain ⟨_, -, h⟩ := bind_eq_ok.mp h
    have hnext := (splitAtMut_eq_ok.mp hsplit).1
    -- the entry's three fields and the mappings, then the rest of the loop
    refine ((((Unchanged.writeSlice _ _ ?_).trans (Unchanged.writeSlice _ _ ?_)).trans
      (Unchanged.writeSlice _ _ ?_)).trans (Unchanged.writeSlice _ _ ?_)).trans
      (portLoop_unchanged h (by omega) (by omega)) <;> omega

/-- The port loop only moves forward in the buffer. -/
theorem portLoop_le {bufPa : Nat} :
    ∀ {ports : List RmmRootPortInfo} {hdrOff rem rem' : Nat} {buf buf' : Memory},
      portLoop bufPa ports hdrOff buf rem = .ok (buf', rem') → rem ≤ rem'
  | [], _, _, _, _, _, h => by
    cases h
    exact Nat.le_refl _
  | port :: ports, hdrOff, rem, rem', buf, buf', h => by
    obtain ⟨next, hsplit, h⟩ := bind_eq_ok.mp h
    obtain ⟨_, -, h⟩ := bind_eq_ok.mp h
    obtain ⟨_, -, h⟩ := bind_eq_ok.mp h
    have hnext := (splitAtMut_eq_ok.mp hsplit).1
    have := portLoop_le h
    omega

/-- The root complex loop writes nothing below its first entry and below the ports. -/
theorem rootLoop_unchanged {bufPa lo : Nat} :
    ∀ {roots : List RmmRootComplexInfo} {hdrOff rem rem' : Nat} {buf buf' : Memory},
      rootLoop bufPa roots hdrOff buf rem = .ok (buf', rem') → lo ≤ hdrOff → lo ≤ rem →
      Unchanged 0 lo buf buf'
  | [], _, _, _, _, _, h, _, _ => by
    cases h
    exact Unchanged.refl _
  | root :: roots, hdrOff, rem, rem', buf, buf', h, hhdr, hrem => by
    obtain ⟨next, hsplit, h⟩ := bind_eq_ok.mp h
    obtain ⟨_, -, h⟩ := bind_eq_ok.mp h
    obtain ⟨_, -, h⟩ := bind_eq_ok.mp h
    obtain ⟨⟨buf₁, next₁⟩, hports, h⟩ := bind_eq_ok.mp h
    have hnext := (splitAtMut_eq_ok.mp hsplit).1
    have hports_le := portLoop_le hports
    -- the entry's five stores, then its ports and the rest of the loop
    refine (((((Unchanged.writeSlice _ _ ?_).trans (Unchanged.writeSlice _ _ ?_)).trans
      (Unchanged.writeSlice _ _ ?_)).trans (Unchanged.writeSlice _ _ ?_)).trans
      (Unchanged.writeSlice _ _ ?_)).trans ((portLoop_unchanged hports ?_ ?_).trans
      (rootLoop_unchanged h ?_ ?_)) <;> omega

/-- The port loop ends after the ports' BDF mappings. -/
theorem portLoop_rem {bufPa : Nat} :
    ∀ {ports : List RmmRootPortInfo} {hdrOff rem rem' : Nat} {buf buf' : Memory},
      portLoop bufPa ports hdrOff buf rem = .ok (buf', rem') → rem' = rem + bdfsLength ports
  | [], _, _, _, _, _, h => by
    cases h
    simp [bdfsLength]
  | port :: ports, hdrOff, rem, rem', buf, buf', h => by
    obtain ⟨next, hsplit, h⟩ := bind_eq_ok.mp h
    obtain ⟨_, -, h⟩ := bind_eq_ok.mp h
    obtain ⟨_, -, h⟩ := bind_eq_ok.mp h
    have hnext := (splitAtMut_eq_ok.mp hsplit).1
    have hrest := portLoop_rem h
    simp only [bdfsLength, List.map_cons, List.sum_cons] at hrest ⊢
    omega

/-- The root complex loop ends after each root complex's ports and their BDF mappings. -/
theorem rootLoop_rem {bufPa : Nat} :
    ∀ {roots : List RmmRootComplexInfo} {hdrOff rem rem' : Nat} {buf buf' : Memory},
      rootLoop bufPa roots hdrOff buf rem = .ok (buf', rem') →
        rem' = rem + (roots.map fun root => root.entries.length * 16 + bdfsLength root.entries).sum
  | [], _, _, _, _, _, h => by
    cases h
    simp
  | root :: roots, hdrOff, rem, rem', buf, buf', h => by
    obtain ⟨next, hsplit, h⟩ := bind_eq_ok.mp h
    obtain ⟨_, -, h⟩ := bind_eq_ok.mp h
    obtain ⟨_, -, h⟩ := bind_eq_ok.mp h
    obtain ⟨⟨buf₁, next₁⟩, hports, h⟩ := bind_eq_ok.mp h
    have hnext := (splitAtMut_eq_ok.mp hsplit).1
    have hports_rem := portLoop_rem hports
    have hrest := rootLoop_rem h
    simp only [List.map_cons, List.sum_cons]
    omega

/-! ### What each stage of `pack` does -/

/-- `addr_of` returns the physical address of an offset inside the buffer. -/
theorem addrOf_eq_ok {bufPa off addr : Nat} (h : addrOf bufPa off = .ok addr) :
    off < rmmSharedBufferSize ∧ addr = bufPa + off := by
  unfold addrOf at h
  split at h
  case isTrue hlt => exact ⟨hlt, (Usize.add_eq_ok h).1⟩
  case isFalse => cases h

/-- The start of `pack` stores the version, the address of the platform data and its bytes, and
    leaves the rest of the buffer from `dramStart`. -/
theorem packPlatData_eq_ok {m : RmmBootManifest} {bufPa rest : Nat} {buf buf' : Memory}
    (h : m.packPlatData buf bufPa = .ok (buf', rest)) :
    rest = m.dramStart ∧ bufPa + headerSize < 2 ^ 64 ∧
      buf' = writeSlice (writeSlice (writeSlice buf 0 (leBytes 4 m.version.toU32.toNat)) 8
        (leBytes 8 (bufPa + headerSize))) headerSize m.platData := by
  obtain ⟨rest', hsplit, h⟩ := bind_eq_ok.mp h
  obtain ⟨ptr, hptr, h⟩ := bind_eq_ok.mp h
  cases h
  obtain ⟨-, rfl⟩ := addrOf_eq_ok hptr
  have hadd : bufPa + headerSize < 2 ^ 64 := by
    simp only [addrOf, show headerSize < rmmSharedBufferSize by decide, if_true] at hptr
    exact (Usize.add_eq_ok hptr).2
  exact ⟨(splitAtMut_eq_ok.mp hsplit).1, hadd, rfl⟩

/-- The end of `pack`: the root complexes' address lies in the buffer, the loop runs on the buffer
    with the header's `plat_root_complex` fields stored, and the checksum is stored last. -/
theorem packRootComplex_eq_ok {list : RmmRootComplexInfoList} {bufPa rootStart : Nat}
    {buf out : Memory} (h : packRootComplex list bufPa buf rootStart = .ok out) :
    rootStart < rmmSharedBufferSize ∧ ∃ bufLoop remLoop,
      rootLoop bufPa list.entries rootStart (writeSlice (writeSlice (writeSlice (writeSlice buf 144
        (leBytes 4 list.rcInfoVersion.toU32.toNat)) 148 (leBytes 4 0)) 152
        (leBytes 8 (bufPa + rootStart))) 136 (leBytes 8 list.entries.length))
        (rootStart + list.entries.length * 24) = .ok (bufLoop, remLoop) ∧
      ∃ checksum, computeChecksum (readSlice bufLoop rootStart (remLoop - rootStart))
          [list.entries.length, list.rcInfoVersion.toU32.toNat, bufPa + rootStart] = .ok checksum ∧
        out = writeSlice bufLoop 160 (leBytes 8 checksum) := by
  obtain ⟨rem, hsplit, h⟩ := bind_eq_ok.mp h
  obtain ⟨ptr, hptr, h⟩ := bind_eq_ok.mp h
  obtain ⟨_, -, h⟩ := bind_eq_ok.mp h
  obtain ⟨⟨bufLoop, remLoop⟩, hloop, h⟩ := bind_eq_ok.mp h
  obtain ⟨checksum, hchecksum, h⟩ := bind_eq_ok.mp h
  cases h
  obtain ⟨hin, rfl⟩ := addrOf_eq_ok hptr
  obtain ⟨rfl, -⟩ := splitAtMut_eq_ok.mp hsplit
  exact ⟨hin, bufLoop, remLoop, hloop, checksum, hchecksum, rfl⟩

/-- What `pack` does when it returns: the platform data, the five lists one after the other, each
    ending where the next starts, and the root complexes. -/
theorem pack_eq_ok {m : RmmBootManifest} {bufVa bufPa : Nat} {buf out : Memory}
    (h : m.pack bufVa buf bufPa = .ok out) :
    ∃ buf₀ buf₁ buf₂ buf₃ buf₄ buf₅ : Memory,
      m.packPlatData buf bufPa = .ok (buf₀, m.dramStart) ∧
      makeList RmmMemoryBank.asBytes bufPa 16 m.platDram buf₀ m.dramStart =
        .ok (buf₁, m.consoleStart) ∧
      makeList RmmConsoleInfo.asBytes bufPa 40 m.platConsole buf₁ m.consoleStart =
        .ok (buf₂, m.ncohStart) ∧
      makeList RmmMemoryBank.asBytes bufPa 64 m.platNcohRegion buf₂ m.ncohStart =
        .ok (buf₃, m.cohStart) ∧
      makeList RmmMemoryBank.asBytes bufPa 88 m.platCohRegion buf₃ m.cohStart =
        .ok (buf₄, m.smmuStart) ∧
      makeList RmmSmmuInfo.asBytes bufPa 112 m.platSmmu buf₄ m.smmuStart =
        .ok (buf₅, m.rootStart) ∧
      packRootComplex m.platRootComplex bufPa buf₅ m.rootStart = .ok out := by
  rw [pack_eq] at h
  split at h
  case isTrue => cases h
  case isFalse =>
    obtain ⟨⟨buf₀, rest₀⟩, h₀, h⟩ := bind_eq_ok.mp h
    obtain ⟨⟨buf₁, rest₁⟩, h₁, h⟩ := bind_eq_ok.mp h
    obtain ⟨⟨buf₂, rest₂⟩, h₂, h⟩ := bind_eq_ok.mp h
    obtain ⟨⟨buf₃, rest₃⟩, h₃, h⟩ := bind_eq_ok.mp h
    obtain ⟨⟨buf₄, rest₄⟩, h₄, h⟩ := bind_eq_ok.mp h
    obtain ⟨⟨buf₅, rest₅⟩, h₅, h⟩ := bind_eq_ok.mp h
    -- each stage ends where the next region starts
    obtain ⟨rfl, -⟩ := packPlatData_eq_ok h₀
    obtain rfl := makeList_rest h₁
    obtain rfl := makeList_rest h₂
    obtain rfl := makeList_rest h₃
    obtain rfl := makeList_rest h₄
    obtain rfl := makeList_rest h₅
    exact ⟨buf₀, buf₁, buf₂, buf₃, buf₄, buf₅, h₀, h₁, h₂, h₃, h₄, h₅, h⟩

/-! ### What the stages after a region leave -/

/-- The stores of `pack` after a region leave the header below `hdrEnd` and the buffer below
    `rest` after the header: they are in the header from `hdrEnd` on or after `rest`. -/
def After (hdrEnd rest : Nat) (buf buf' : Memory) : Prop :=
  Unchanged 0 hdrEnd buf buf' ∧ Unchanged headerSize rest buf buf'

theorem After.trans {hdrEnd rest hdrEnd' rest' : Nat} {buf buf' buf'' : Memory}
    (h : After hdrEnd rest buf buf') (h' : After hdrEnd' rest' buf' buf'')
    (hhdr : hdrEnd ≤ hdrEnd') (hrest : rest ≤ rest') : After hdrEnd rest buf buf'' :=
  ⟨h.1.trans (h'.1.mono (Nat.le_refl _) hhdr), h.2.trans (h'.2.mono (Nat.le_refl _) hrest)⟩

/-- `make_list!` leaves the header before its `ChecksummedList` and the buffer before its
    entries. -/
theorem makeList_after {α : Type} {asBytes : α → List UInt8} {bufPa hdrOff off rest : Nat}
    {list : List α} {buf buf' : Memory}
    (h : makeList asBytes bufPa hdrOff list buf off = .ok (buf', rest))
    (hhdr : hdrOff + 24 ≤ headerSize) (hoff : headerSize ≤ off) : After hdrOff off buf buf' :=
  ⟨makeList_unchanged h (.inr (Nat.le_refl _)) (.inr (by omega)),
    makeList_unchanged h (.inl hhdr) (.inr (Nat.le_refl _))⟩

/-- The end of `pack` stores only the header's `plat_root_complex`, from 136 on, and the root
    complexes. -/
theorem packRootComplex_after {list : RmmRootComplexInfoList} {bufPa rootStart : Nat}
    {buf out : Memory} (h : packRootComplex list bufPa buf rootStart = .ok out)
    (hroot : headerSize ≤ rootStart) : After 136 rootStart buf out := by
  obtain ⟨-, bufLoop, remLoop, hloop, checksum, -, rfl⟩ := packRootComplex_eq_ok h
  simp only [headerSize] at hroot
  have hkeep := rootLoop_unchanged hloop (Nat.le_refl rootStart) (by omega)
  -- the four fields below `headerSize`, the loop from `rootStart` on, then the checksum
  constructor
  · refine ((((Unchanged.writeSlice _ _ ?_).trans (Unchanged.writeSlice _ _ ?_)).trans
      (Unchanged.writeSlice _ _ ?_)).trans (Unchanged.writeSlice _ _ ?_)).trans
      ((hkeep.mono (Nat.le_refl 0) (by omega)).trans (Unchanged.writeSlice _ _ ?_)) <;> simp
  · refine ((((Unchanged.writeSlice _ _ ?_).trans (Unchanged.writeSlice _ _ ?_)).trans
      (Unchanged.writeSlice _ _ ?_)).trans (Unchanged.writeSlice _ _ ?_)).trans
      ((hkeep.mono (Nat.zero_le _) (Nat.le_refl _)).trans (Unchanged.writeSlice _ _ ?_)) <;>
      simp [headerSize]

/-- The stages of `pack` after each region store past it: after the platform data and after
    each list's entries, every later store is in the header from the next field on, or past the
    region. -/
theorem stages_after {m : RmmBootManifest} {bufPa : Nat}
    {buf₀ buf₁ buf₂ buf₃ buf₄ buf₅ out : Memory}
    (h₁ : makeList RmmMemoryBank.asBytes bufPa 16 m.platDram buf₀ m.dramStart =
      .ok (buf₁, m.consoleStart))
    (h₂ : makeList RmmConsoleInfo.asBytes bufPa 40 m.platConsole buf₁ m.consoleStart =
      .ok (buf₂, m.ncohStart))
    (h₃ : makeList RmmMemoryBank.asBytes bufPa 64 m.platNcohRegion buf₂ m.ncohStart =
      .ok (buf₃, m.cohStart))
    (h₄ : makeList RmmMemoryBank.asBytes bufPa 88 m.platCohRegion buf₃ m.cohStart =
      .ok (buf₄, m.smmuStart))
    (h₅ : makeList RmmSmmuInfo.asBytes bufPa 112 m.platSmmu buf₄ m.smmuStart =
      .ok (buf₅, m.rootStart))
    (hroot : packRootComplex m.platRootComplex bufPa buf₅ m.rootStart = .ok out) :
    After 16 m.dramStart buf₀ out ∧ After 40 m.consoleStart buf₁ out ∧
      After 64 m.ncohStart buf₂ out ∧ After 88 m.cohStart buf₃ out ∧
      After 112 m.smmuStart buf₄ out ∧ After 136 m.rootStart buf₅ out := by
  have hheader : headerSize = 168 := rfl
  obtain ⟨hdram, hconsole, hncoh, hcoh, hsmmu, hrootStart⟩ := m.starts_le
  -- back from the last stage: each one composed with what follows it
  have a₅ := packRootComplex_after hroot (by omega)
  have a₄ := (makeList_after h₅ (by decide) (by omega)).trans a₅ (by decide) hrootStart
  have a₃ := (makeList_after h₄ (by decide) (by omega)).trans a₄ (by decide) hsmmu
  have a₂ := (makeList_after h₃ (by decide) (by omega)).trans a₃ (by decide) hcoh
  have a₁ := (makeList_after h₂ (by decide) (by omega)).trans a₂ (by decide) hncoh
  exact ⟨(makeList_after h₁ (by decide) hdram).trans a₁ (by decide) hconsole, a₁, a₂, a₃, a₄, a₅⟩

/-- `pack` never writes the header's `padding`, bytes 4 to 8: whatever the buffer held there
    stays. -/
theorem pack_headerPadding {m : RmmBootManifest} {bufVa bufPa : Nat} {buf out : Memory}
    (h : m.pack bufVa buf bufPa = .ok out) : Unchanged 4 8 buf out := by
  obtain ⟨buf₀, _, _, _, _, _, h₀, h₁, h₂, h₃, h₄, h₅, hroot⟩ := pack_eq_ok h
  obtain ⟨-, -, rfl⟩ := packPlatData_eq_ok h₀
  -- back from the end: the stages after the platform data store from 16 on, the platform data
  -- from `headerSize`, its address from 8, and the version ends at 4
  refine Unchanged.trans ?_ ((stages_after h₁ h₂ h₃ h₄ h₅ hroot).1.1.mono (Nat.zero_le 4)
    (by decide))
  refine Unchanged.trans ?_ (Unchanged.writeSlice _ _ (.inr (by decide)))
  refine Unchanged.trans ?_ (Unchanged.writeSlice _ _ (.inr (by decide)))
  exact Unchanged.writeSlice _ _ (.inl (by simp))

/-- `pack` returns only if the header, the platform data and the five lists end before the end
    of the buffer: `addr_of` is asked for the address of the root complexes even when there are
    none, so a manifest that fills the buffer exactly before them panics. -/
theorem pack_rootStart_lt {m : RmmBootManifest} {bufVa bufPa : Nat} {buf out : Memory}
    (h : m.pack bufVa buf bufPa = .ok out) :
    headerSize + m.platData.length + (m.platDram.flatMap RmmMemoryBank.asBytes).length +
      (m.platConsole.flatMap RmmConsoleInfo.asBytes).length +
      (m.platNcohRegion.flatMap RmmMemoryBank.asBytes).length +
      (m.platCohRegion.flatMap RmmMemoryBank.asBytes).length +
      (m.platSmmu.flatMap RmmSmmuInfo.asBytes).length < rmmSharedBufferSize := by
  -- the sum is `rootStart`, whose address the end of `pack` asks for
  obtain ⟨_, _, _, _, _, _, -, -, -, -, -, -, hroot⟩ := pack_eq_ok h
  exact (packRootComplex_eq_ok hroot).1

/-! ### Reading back -/

/-- A little-endian field reads back as the value it stores, modulo its width. -/
theorem leValue_leBytes (width n : Nat) : leValue (leBytes width n) = n % 256 ^ width := by
  induction width generalizing n with
  | zero => simp [leBytes, leValue, Nat.mod_one]
  | succ width ih =>
    -- the first byte is `n % 256`, the others are the field of `n / 256` one byte narrower
    have htail : (List.range width).map (fun k => UInt8.ofNat (n / 256 ^ (k + 1))) =
        leBytes width (n / 256) := by
      simp only [leBytes, Nat.pow_succ', Nat.div_div_eq_div_mul]
    rw [leBytes, List.range_succ_eq_map, List.map_cons, List.map_map]
    simp only [Function.comp_def, Nat.pow_zero, Nat.div_one]
    rw [htail, leValue, List.foldr_cons, ← leValue, ih, UInt8.toNat_ofNat',
      show 256 ^ (width + 1) = 256 * 256 ^ width from Nat.pow_succ', Nat.mod_mul]

theorem readSlice_writeSlice_self (mem : Memory) (addr : Nat) (bytes : List UInt8) :
    readSlice (writeSlice mem addr bytes) addr bytes.length = bytes := by
  rw [readSlice_writeSlice mem addr bytes (Nat.le_refl _), List.take_length]

theorem readSlice_of_unchanged {lo hi addr len : Nat} {buf buf' : Memory}
    (h : Unchanged lo hi buf buf') (hlo : lo ≤ addr) (hhi : addr + len ≤ hi) :
    readSlice buf' addr len = readSlice buf addr len := by
  simp only [readSlice]
  refine List.map_congr_left fun k hk => h _ (by omega) ?_
  rw [List.mem_range] at hk
  omega

/-- A store elsewhere leaves what is read. -/
theorem readSlice_writeSlice_of_disjoint (mem : Memory) {a addr len : Nat} (bytes : List UInt8)
    (h : a + bytes.length ≤ addr ∨ addr + len ≤ a) :
    readSlice (writeSlice mem a bytes) addr len = readSlice mem addr len :=
  readSlice_of_unchanged (Unchanged.writeSlice mem bytes h) (Nat.le_refl _) (Nat.le_refl _)

/-- A field reads back as stored. -/
theorem readSlice_writeSlice_leBytes (mem : Memory) (addr width n : Nat) :
    readSlice (writeSlice mem addr (leBytes width n)) addr width = leBytes width n := by
  simpa only [length_leBytes] using readSlice_writeSlice_self mem addr (leBytes width n)

/-- What the RMM reads of the `ChecksummedList` at `hdrOff` in the buffer `out`, for the entries
    `list` at offset `off`: `num_entries` is their number, `entries_ptr` their physical address
    (0 for none), inside the buffer, the bytes at `off` are theirs, and the checksum over them and
    the two fields verifies. -/
structure ListReads {α : Type} (asBytes : α → List UInt8) (bufPa : Nat) (out : Memory)
    (hdrOff off : Nat) (list : List α) : Prop where
  numEntries : leValue (readSlice out hdrOff 8) = list.length
  entriesPtr : leValue (readSlice out (hdrOff + 8) 8) = if list.isEmpty then 0 else bufPa + off
  inside : list.isEmpty = false → off < rmmSharedBufferSize
  entries : readSlice out off (list.flatMap asBytes).length = list.flatMap asBytes
  checksum : ((words (readSlice out off (list.flatMap asBytes).length) ++
      [leValue (readSlice out hdrOff 8), leValue (readSlice out (hdrOff + 8) 8)]).sum +
    leValue (readSlice out (hdrOff + 16) 8)) % 2 ^ 64 = 0

/-- What is read of a list stays when the stores after it are past its `ChecksummedList` and its
    entries. -/
theorem ListReads.of_after {α : Type} {asBytes : α → List UInt8} {bufPa hdrOff off : Nat}
    {list : List α} {out out' : Memory} (h : ListReads asBytes bufPa out hdrOff off list)
    (hafter : After (hdrOff + 24) (off + (list.flatMap asBytes).length) out out')
    (hoff : headerSize ≤ off) : ListReads asBytes bufPa out' hdrOff off list := by
  have hhdr := hafter.1.mono (Nat.zero_le hdrOff) (Nat.le_refl _)
  have hnum := @readSlice_of_unchanged _ _ hdrOff 8 _ _ hhdr (by omega) (by omega)
  have hptr := @readSlice_of_unchanged _ _ (hdrOff + 8) 8 _ _ hhdr (by omega) (by omega)
  have hsum := @readSlice_of_unchanged _ _ (hdrOff + 16) 8 _ _ hhdr (by omega) (by omega)
  have hbytes := readSlice_of_unchanged (hafter.2.mono hoff (Nat.le_refl _)) (Nat.le_refl _)
    (Nat.le_refl _)
  exact ⟨hnum ▸ h.numEntries, hptr ▸ h.entriesPtr, h.inside, hbytes ▸ h.entries,
    hnum ▸ hptr ▸ hsum ▸ hbytes ▸ h.checksum⟩

/-- The list's checksum verifies and its fields read back once `make_list!` has written them. -/
theorem makeList_reads {α : Type} {asBytes : α → List UInt8} {bufPa hdrOff off rest : Nat}
    {list : List α} {buf buf' : Memory}
    (h : makeList asBytes bufPa hdrOff list buf off = .ok (buf', rest))
    (hoff : hdrOff + 24 ≤ off) : ListReads asBytes bufPa buf' hdrOff off list := by
  obtain ⟨_, -, h⟩ := bind_eq_ok.mp h
  obtain ⟨ptr, hptr, h⟩ := bind_eq_ok.mp h
  obtain ⟨checksum, hchecksum, h⟩ := bind_eq_ok.mp h
  cases h
  obtain ⟨-, hlt, rfl⟩ := computeChecksum_eq_ok.mp hchecksum
  simp only [List.sum_append, List.sum_cons, List.sum_nil] at hlt
  -- `entries_ptr` is 0 for no entries, else the entries' address
  have hptr_eq : (list.isEmpty = false → off < rmmSharedBufferSize) ∧
      ptr = if list.isEmpty then 0 else bufPa + off := by
    split at hptr
    case isTrue hnil => exact ⟨fun h => by simp_all, by rw [if_pos hnil]; exact (Except.ok.inj hptr).symm⟩
    case isFalse hnil =>
      obtain ⟨hin, rfl⟩ := addrOf_eq_ok hptr
      exact ⟨fun _ => hin, by rw [if_neg hnil]⟩
  have h64 : (256 : Nat) ^ 8 = 2 ^ 64 := by norm_num
  have hlen : list.length < 2 ^ 64 := by omega
  have hptr_lt : ptr < 2 ^ 64 := by omega
  -- the entries were stored last, after the three fields, each stored once
  refine ⟨?_, ?_, hptr_eq.1, readSlice_writeSlice_self _ _ _, ?_⟩ <;>
    simp (disch := first | omega | (simp only [length_leBytes]; omega)) only
      [readSlice_writeSlice_of_disjoint, readSlice_writeSlice_leBytes, readSlice_writeSlice_self,
        leValue_leBytes, h64, Nat.mod_eq_of_lt hlen, Nat.mod_eq_of_lt hptr_lt, Nat.mod_mod]
  · exact hptr_eq.2
  · exact checksum_add_eq_zero hchecksum

/-- What the RMM reads of the header's `plat_root_complex` in the buffer `out`, for the root
    complexes `list` at offset `rootStart`: `num_entries`, `rc_info_version`, a zero `padding`,
    `entries_ptr` their physical address, and the checksum over the root complexes, their ports
    and BDF mappings and the three fields verifies. -/
structure RootComplexReads (bufPa : Nat) (out : Memory) (rootStart : Nat)
    (list : RmmRootComplexInfoList) : Prop where
  numEntries : leValue (readSlice out 136 8) = list.entries.length
  rcInfoVersion : leValue (readSlice out 144 4) = list.rcInfoVersion.toU32.toNat
  padding : readSlice out 148 4 = [0, 0, 0, 0]
  entriesPtr : leValue (readSlice out 152 8) = bufPa + rootStart
  checksum : ((words (readSlice out rootStart (rootComplexLength list.entries)) ++
      [leValue (readSlice out 136 8), leValue (readSlice out 144 4),
        leValue (readSlice out 152 8)]).sum + leValue (readSlice out 160 8)) % 2 ^ 64 = 0

/-- The fields of `plat_root_complex` read back and its checksum verifies. -/
theorem packRootComplex_reads {list : RmmRootComplexInfoList} {bufPa rootStart : Nat}
    {buf out : Memory} (h : packRootComplex list bufPa buf rootStart = .ok out)
    (hroot : headerSize ≤ rootStart) : RootComplexReads bufPa out rootStart list := by
  obtain ⟨-, bufLoop, remLoop, hloop, checksum, hchecksum, rfl⟩ := packRootComplex_eq_ok h
  simp only [headerSize] at hroot
  have hlen : remLoop - rootStart = rootComplexLength list.entries := by
    rw [rootLoop_rem hloop, rootComplexLength]
    omega
  rw [hlen] at hchecksum
  obtain ⟨-, hlt, rfl⟩ := computeChecksum_eq_ok.mp hchecksum
  simp only [List.sum_append, List.sum_cons, List.sum_nil] at hlt
  have hversion : list.rcInfoVersion.toU32.toNat < 256 ^ 4 := UInt32.toNat_lt _
  have h64 : (256 : Nat) ^ 8 = 2 ^ 64 := by norm_num
  have hnum : list.entries.length < 2 ^ 64 := by omega
  have hptr : bufPa + rootStart < 2 ^ 64 := by omega
  -- below `rootStart` the loop keeps what the four fields stored
  have hunchanged := rootLoop_unchanged hloop (Nat.le_refl rootStart) (by omega)
  have hkeep := fun a w (haw : a + w ≤ rootStart) =>
    @readSlice_of_unchanged _ _ a w _ _ hunchanged (Nat.zero_le a) haw
  refine ⟨?_, ?_, ?_, ?_, ?_⟩ <;>
    simp (disch := first | omega | (simp only [length_leBytes]; omega)) only
      [readSlice_writeSlice_of_disjoint, hkeep, readSlice_writeSlice_leBytes, leValue_leBytes, h64,
        Nat.mod_eq_of_lt hnum, Nat.mod_eq_of_lt hversion, Nat.mod_eq_of_lt hptr, Nat.mod_mod]
  · rfl
  · exact checksum_add_eq_zero hchecksum

/-- What the RMM reads back of the manifest `m` that `pack` stored in the buffer `out` at physical
    address `bufPa`: the version, the address and bytes of the platform data, the five lists, and
    `plat_root_complex`, whose root complexes start inside the buffer. -/
structure RmmBootManifest.ReadsBack (m : RmmBootManifest) (bufPa : Nat) (out : Memory) :
    Prop where
  version : leValue (readSlice out 0 4) = m.version.toU32.toNat
  platDataPtr : leValue (readSlice out 8 8) = bufPa + headerSize
  platData : readSlice out headerSize m.platData.length = m.platData
  platDram : ListReads RmmMemoryBank.asBytes bufPa out 16 m.dramStart m.platDram
  platConsole : ListReads RmmConsoleInfo.asBytes bufPa out 40 m.consoleStart m.platConsole
  platNcohRegion : ListReads RmmMemoryBank.asBytes bufPa out 64 m.ncohStart m.platNcohRegion
  platCohRegion : ListReads RmmMemoryBank.asBytes bufPa out 88 m.cohStart m.platCohRegion
  platSmmu : ListReads RmmSmmuInfo.asBytes bufPa out 112 m.smmuStart m.platSmmu
  rootInside : m.rootStart < rmmSharedBufferSize
  platRootComplex : RootComplexReads bufPa out m.rootStart m.platRootComplex

/-- Whatever the buffer held, a manifest that `pack` stores reads back: every field the header
    holds is the manifest's, every pointer is the physical address of its region, and every
    checksum verifies. -/
theorem pack_reads_back {m : RmmBootManifest} {bufVa bufPa : Nat} {buf out : Memory}
    (h : m.pack bufVa buf bufPa = .ok out) : m.ReadsBack bufPa out := by
  obtain ⟨buf₀, buf₁, buf₂, buf₃, buf₄, buf₅, h₀, h₁, h₂, h₃, h₄, h₅, hroot⟩ := pack_eq_ok h
  obtain ⟨a₀, a₁, a₂, a₃, a₄, a₅⟩ := stages_after h₁ h₂ h₃ h₄ h₅ hroot
  have hheader : headerSize = 168 := rfl
  obtain ⟨hdram, hconsole, hncoh, hcoh, hsmmu, hrootStart⟩ := m.starts_le
  obtain ⟨-, hadd, rfl⟩ := packPlatData_eq_ok h₀
  have hversion : m.version.toU32.toNat < 256 ^ 4 := UInt32.toNat_lt _
  have h64 : (256 : Nat) ^ 8 = 2 ^ 64 := by norm_num
  -- each list as `make_list!` left it, kept by the stages after it
  refine ⟨?_, ?_, ?_, (makeList_reads h₁ (by omega)).of_after a₁ hdram,
    (makeList_reads h₂ (by omega)).of_after a₂ (by omega),
    (makeList_reads h₃ (by omega)).of_after a₃ (by omega),
    (makeList_reads h₄ (by omega)).of_after a₄ (by omega),
    (makeList_reads h₅ (by omega)).of_after a₅ (by omega), pack_rootStart_lt h,
    packRootComplex_reads hroot (by omega)⟩
  -- the header's first fields and the platform data, as the start of `pack` stored them
  · rw [readSlice_of_unchanged a₀.1 (Nat.le_refl 0) (by decide)]
    simp (disch := first | omega | (simp only [length_leBytes]; omega)) only
      [readSlice_writeSlice_of_disjoint, readSlice_writeSlice_leBytes, leValue_leBytes,
        Nat.mod_eq_of_lt hversion]
  · rw [readSlice_of_unchanged a₀.1 (Nat.zero_le 8) (by decide)]
    simp (disch := first | omega | (simp only [length_leBytes]; omega)) only
      [readSlice_writeSlice_of_disjoint, readSlice_writeSlice_leBytes, leValue_leBytes, h64,
        Nat.mod_eq_of_lt hadd]
  · rw [readSlice_of_unchanged a₀.2 (Nat.le_refl _) (Nat.le_refl _)]
    exact readSlice_writeSlice_self _ _ _

/-- A manifest with one DRAM bank and one root complex of one root port with one BDF mapping,
    packed over a buffer of `0xff` bytes, reads back. -/
theorem pack_reads_back_dram :
    ∃ out, RmmBootManifest.pack ⟨⟨5, 0⟩, [], [⟨0x8000_0000, 0x7c00_0000⟩], [], [], [], [],
        ⟨⟨1, 0⟩, [⟨0x4000_0000, 0, [⟨0, [⟨0, 0xff, 0, 0⟩]⟩]⟩]⟩⟩ 0 (fun _ => 0xff) 0x8800_0000 =
        .ok out ∧
      RmmBootManifest.ReadsBack ⟨⟨5, 0⟩, [], [⟨0x8000_0000, 0x7c00_0000⟩], [], [], [], [],
        ⟨⟨1, 0⟩, [⟨0x4000_0000, 0, [⟨0, [⟨0, 0xff, 0, 0⟩]⟩]⟩]⟩⟩ 0x8800_0000 out :=
  ⟨_, rfl, @pack_reads_back _ 0 _ (fun _ => 0xff) _ rfl⟩

/-- With one root complex of one root port, on a buffer whose bytes are all `0xff`, `pack`
    returns with `0xff` left in the header's `padding`, bytes 4 to 8, and in the root port's
    `padding`: the root complex entry is at 168 and its port at 192, with `padding` at 194. -/
theorem pack_leaves_padding :
    ∃ out, RmmBootManifest.pack ⟨⟨5, 0⟩, [], [], [], [], [], [],
        ⟨⟨1, 0⟩, [⟨0x4000_0000, 0, [⟨0, []⟩]⟩]⟩⟩ 0 (fun _ => 0xff) 0x8800_0000 = .ok out ∧
      out 4 = 0xff ∧ out 5 = 0xff ∧ out 6 = 0xff ∧ out 7 = 0xff ∧ out 194 = 0xff ∧
      out 195 = 0xff := by
  -- the root port's padding by evaluation, the header's by `pack_headerPadding`
  obtain ⟨out, hout, h194, h195⟩ : ∃ out, RmmBootManifest.pack ⟨⟨5, 0⟩, [], [], [], [], [], [],
      ⟨⟨1, 0⟩, [⟨0x4000_0000, 0, [⟨0, []⟩]⟩]⟩⟩ 0 (fun _ => 0xff) 0x8800_0000 = .ok out ∧
      out 194 = 0xff ∧ out 195 = 0xff :=
    ⟨_, rfl, rfl, rfl⟩
  have hpadding := pack_headerPadding hout
  exact ⟨out, hout, hpadding 4 (by decide) (by decide), hpadding 5 (by decide) (by decide),
    hpadding 6 (by decide) (by decide), hpadding 7 (by decide) (by decide), h194, h195⟩

end RustedFirmware.Rmmd
