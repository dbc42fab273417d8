import RustedFirmware.Trng.Pack

set_option autoImplicit false

/-! The entropy pool is a FIFO queue of bits.

    `contents` reads the bits the pool holds, oldest first; `Wf` is the pool's invariant: the
    index and the count stay within the ring, the first free bit starts a word, and every bit the
    pool does not hold is zero. The abstract pool is a queue of bits: `queueFill` appends the 64
    bits of each word the source returns, least significant first, until the queue holds
    `nbits`, and a request takes the first `nbits` bits off it.

    `fillEntropy_refines` and `packEntropy_refines` show that the code's pool implements that
    queue from every pool that keeps the invariant. -/

namespace RustedFirmware.Trng

open Rust BitRing

/-- The bits of a word, least significant first. -/
def wordBits (w : UInt64) : List Bool := (List.range 64).map w.toNat.testBit

@[simp] theorem length_wordBits (w : UInt64) : (wordBits w).length = 64 := by simp [wordBits]

/-- The abstract pool's fill: the bits of each request of the source are appended until the
    queue holds `nbits`; an error of the source stops it with what was added before. -/
def queueFill {R : Nat} [NeZero R] (nbits : Nat) (q : List Bool) (src : EntropySource R) :
    Except TrngError Unit × List Bool × EntropySource R :=
  if nbits > q.length then
    match src.head with
    | .error e => (.error e, q, src.tail)
    | .ok buf => queueFill nbits (q ++ buf.toList.flatMap wordBits) src.tail
  else (.ok (), q, src)
termination_by nbits - q.length
decreasing_by
  have hR := NeZero.pos R
  simp only [List.length_append, List.length_flatMap, length_wordBits, List.map_const',
    List.sum_replicate, Vector.length_toList, smul_eq_mul]
  omega

/-- The output words hold the first `nbits` bits of `q`, least significant first, and zero
    above them. -/
def Packed (nbits : Nat) (q : List Bool) (out : List UInt64) : Prop :=
  ∀ k < out.length, ∀ j < 64,
    (out.getD k 0).toNat.testBit j = (decide (64 * k + j < nbits) && q.getD (64 * k + j) false)

namespace EntropyPool

variable {W R : Nat} [NeZero W]

/-- The bits the pool holds, oldest first: bit `entropy_bit_index + i` of the ring, for
    `i < entropy_bit_size`. -/
def contents (p : EntropyPool W) : List Bool :=
  (List.range p.entropyBitSize).map fun i => bit p.entropy (p.entropyBitIndex + i)

@[simp] theorem length_contents (p : EntropyPool W) : p.contents.length = p.entropyBitSize := by
  simp [contents]

theorem getD_contents (p : EntropyPool W) {i : Nat} (hi : i < p.entropyBitSize) :
    p.contents.getD i false = bit p.entropy (p.entropyBitIndex + i) := by
  simp [contents, List.getD_eq_getElem?_getD, hi]

/-- The pool's invariant: index and count within the ring, the first free bit at the start of a
    word, and every bit not held zero. -/
structure Wf (p : EntropyPool W) : Prop where
  index_lt : p.entropyBitIndex < bitsInPool W
  size_le : p.entropyBitSize ≤ bitsInPool W
  aligned : (p.entropyBitIndex + p.entropyBitSize) % bitsPerWord = 0
  free : ∀ i, p.entropyBitSize ≤ i → i < bitsInPool W →
    bit p.entropy (p.entropyBitIndex + i) = false

omit [NeZero W] in
theorem bitsInPool_eq : bitsInPool W = 64 * W := by
  simp [bitsInPool, bitsPerWord, Nat.mul_comm]

theorem new_wf : (new : EntropyPool W).Wf where
  index_lt := by simp [new, bitsInPool_eq, NeZero.pos W]
  size_le := by simp [new]
  aligned := by simp [new]
  free := by simp [new, bit]

/-- A held count never reaches past the free bits below the index: the first free bit starts a
    word. -/
theorem Wf.size_le_sub {p : EntropyPool W} (hp : p.Wf) :
    p.entropyBitSize + p.entropyBitIndex % 64 ≤ 64 * W := by
  have h1 := hp.aligned
  have h2 := hp.size_le
  rw [bitsInPool_eq] at h2
  simp only [bitsPerWord] at h1
  omega

/-- The bits of the first pool word below the index are free. -/
theorem Wf.free_below {p : EntropyPool W} (hp : p.Wf) :
    ∀ u < p.entropyBitIndex % 64, bit p.entropy (64 * (p.entropyBitIndex / 64) + u) = false := by
  intro u hu
  have hs := hp.size_le_sub
  have hpos : 64 * (p.entropyBitIndex / 64) + u + 64 * W =
      p.entropyBitIndex + (64 * W - p.entropyBitIndex % 64 + u) := by omega
  rw [← bit_add_period, hpos]
  exact hp.free _ (by omega) (by rw [bitsInPool_eq]; omega)

/-! ### The fill -/

/-- Writing word `a`, the first free word, changes only the 64 free bits it holds. -/
theorem bit_write_free (E : Fin W → UInt64) {index size a : Nat} (ha : 64 * a = size + index)
    (hs : size + 64 ≤ 64 * W) (val : UInt64) {i : Nat} (hi : i < 64 * W) :
    bit (Function.update E (slot a) val) (index + i) =
      if size ≤ i ∧ i < size + 64 then val.toNat.testBit (i - size) else bit E (index + i) := by
  have hupd := fun e (he : e < 64 * W) => bit_update E a (k := 0) (NeZero.pos W) val he
  simp only [Nat.add_zero] at hupd
  by_cases hsi : size ≤ i
  · -- at or after the first free bit: word `a` onwards
    have hpos : index + i = 64 * a + (i - size) := by omega
    rw [hpos, hupd _ (by omega)]
    by_cases hw : i < size + 64
    · rw [if_pos (by omega), if_pos ⟨hsi, hw⟩, Nat.mod_eq_of_lt (by omega)]
    · rw [if_neg (by omega), if_neg (by omega)]
  · -- a held bit: one turn of the ring before word `a`
    have hpos : index + i + 64 * W = 64 * a + (64 * W - size + i) := by omega
    rw [if_neg (by omega), ← bit_add_period, hpos, hupd _ (by omega), if_neg (by omega), ← hpos,
      bit_add_period]

/-- The `for val in buf` loop appends the words' bits to the queue and keeps the invariant, while
    the words fit in the free bits. -/
theorem writeWords_spec (buf : List UInt64) (p : EntropyPool W) (hp : p.Wf)
    (hfit : p.entropyBitSize + 64 * buf.length ≤ bitsInPool W) :
    let p' := writeWords buf (slot ((p.entropyBitSize + p.entropyBitIndex) / bitsPerWord)) p
    p'.Wf ∧ p'.contents = p.contents ++ buf.flatMap wordBits := by
  induction buf generalizing p with
  | nil => exact ⟨hp, by simp [writeWords]⟩
  | cons val buf ih =>
    intro p'
    set a := (p.entropyBitSize + p.entropyBitIndex) / bitsPerWord with ha_def
    have ha : 64 * a = p.entropyBitSize + p.entropyBitIndex := by
      have := hp.aligned
      simp only [ha_def, bitsPerWord] at this ⊢
      omega
    have hfit' := hfit
    rw [bitsInPool_eq, List.length_cons] at hfit'
    -- the pool after the first word
    set p₁ : EntropyPool W := { p with
      entropy := Function.update p.entropy (slot a) val,
      entropyBitSize := p.entropyBitSize + bitsPerWord } with hp₁
    have hbit := fun i (hi : i < 64 * W) =>
      bit_write_free p.entropy ha (by omega) val hi
    have hwf₁ : p₁.Wf := by
      refine ⟨hp.index_lt, by rw [bitsInPool_eq]; simp [p₁, bitsPerWord]; omega, ?_, ?_⟩
      · have := hp.aligned
        simp only [p₁, bitsPerWord] at this ⊢
        omega
      · intro i hi hi'
        rw [bitsInPool_eq] at hi'
        simp only [p₁, bitsPerWord] at hi ⊢
        rw [hbit i hi', if_neg (by omega)]
        exact hp.free i (by omega) (by rw [bitsInPool_eq]; exact hi')
    have hcont₁ : p₁.contents = p.contents ++ wordBits val := by
      apply List.ext_getElem
      · simp [p₁, bitsPerWord, wordBits]
      · intro i h₁ h₂
        have hi64 : i < p.entropyBitSize + 64 := by simpa [p₁, bitsPerWord] using h₁
        simp only [p₁, contents, List.getElem_map, List.getElem_range]
        rw [hbit i (by omega)]
        by_cases hi : i < p.entropyBitSize
        · rw [if_neg (by omega), List.getElem_append_left (by simpa using hi)]
          simp
        · rw [if_pos (by omega), List.getElem_append_right (by simpa using hi)]
          simp [wordBits]
    -- the rest of the words, from the next free word
    have hnext : (slot ((slot a : Fin W).val + 1) : Fin W) =
        slot ((p₁.entropyBitSize + p₁.entropyBitIndex) / bitsPerWord) := by
      apply Fin.ext
      simp only [slot, p₁, bitsPerWord, Nat.mod_add_mod]
      congr 1
      omega
    obtain ⟨hwf, hcont⟩ := ih p₁ hwf₁ (by rw [bitsInPool_eq]; simp [p₁, bitsPerWord]; omega)
    refine ⟨?_, ?_⟩
    · show (writeWords buf _ p₁).Wf
      rw [hnext]
      exact hwf
    · show (writeWords buf _ p₁).contents = _
      rw [hnext, hcont, hcont₁, List.flatMap_cons, List.append_assoc]

/-- `fill_entropy` implements the queue's fill on a pool that keeps the invariant, with
    `nbits ≤ 192` and `WORDS_IN_POOL = words_in_pool(REQ_WORDS)`: every request fits in the free
    words, so the assert never fires, and the pool keeps the invariant. -/
theorem fillEntropy_refines [NeZero R] (hW : W = wordsInPool R) {nbits : Nat}
    (hn : nbits ≤ trngRnd64EntropyMaxbits) (p : EntropyPool W) (hp : p.Wf)
    (src : EntropySource R) :
    ∃ r p' src', fillEntropy nbits p src = .ok (r, p', src') ∧ p'.Wf ∧
      queueFill nbits p.contents src = (r, p'.contents, src') ∧
      (r = .ok () → nbits ≤ p'.entropyBitSize) := by
  have hW' : W = 3 + R := by simp [hW, wordsInPool, trngRnd64EntropyMaxbits, bitsPerWord]
  have hn' : nbits ≤ 192 := hn
  fun_induction fillEntropy nbits p src with
  | case1 p src hlt e he =>
    -- the source fails: the queue keeps what it had
    refine ⟨_, _, _, rfl, hp, ?_, fun h => by cases h⟩
    rw [queueFill, if_pos (by simpa using hlt), he]
  | case2 p src hlt buf hb freeBit p' hassert ih =>
    -- the request's words are appended after the held bits, and the loop goes on
    have hfit : p.entropyBitSize + 64 * buf.toList.length ≤ bitsInPool W := by
      rw [bitsInPool_eq, Vector.length_toList]
      omega
    obtain ⟨hwf', hcont'⟩ := writeWords_spec buf.toList p hp hfit
    obtain ⟨r, p'', src'', hfill, hwf'', hq, hok⟩ := ih hwf'
    refine ⟨r, p'', src'', hfill, hwf'', ?_, hok⟩
    rw [queueFill, if_pos (by simpa using hlt), hb]
    dsimp only
    rw [← hcont']
    exact hq
  | case3 p src hlt buf hb freeBit p' hassert =>
    -- the assert: a request always fits
    exfalso
    apply hassert
    simp only [p', writeWords_size, Vector.length_toList, bitsInPool_eq, bitsPerWord]
    omega
  | case4 p src hge =>
    exact ⟨_, _, _, rfl, hp, by rw [queueFill, if_neg (by simpa using hge)], fun _ => by omega⟩

/-! ### The packing -/

/-- After the fill, with `1 ≤ nbits ≤ 192` bits held and a ring of at least four words,
    `pack_entropy` puts the first `nbits` bits of the queue into the output and takes them off
    the queue, keeping the invariant. -/
theorem packFilled_refines (hW : 4 ≤ W) {p : EntropyPool W} (hp : p.Wf) {nbits : Nat}
    (hn : 0 < nbits) (hn' : nbits ≤ 192) (hsize : nbits ≤ p.entropyBitSize) {out : List UInt64}
    (hout : (nbits + 63) / 64 ≤ out.length) :
    ∃ out' p', packFilled nbits out p = .ok (out', p') ∧ p'.Wf ∧
      Packed nbits p.contents out' ∧ out'.length = out.length ∧
      p'.contents = p.contents.drop nbits := by
  obtain ⟨out', E', hpf, hlen, hbits, hpool⟩ :=
    packFilled_spec p hp.free_below hn (by omega) hout
  set m := p.entropyBitIndex / 64
  set r := p.entropyBitIndex % 64
  have hidx : p.entropyBitIndex = 64 * m + r := (Nat.div_add_mod _ 64).symm
  have hs := hp.size_le_sub
  -- a bit the new pool holds, `i` after its new index, is held bit `nbits + i` of the old one
  have hnew : ∀ i, bit E' ((p.entropyBitIndex + nbits) % bitsInPool W + i) =
      bit E' (64 * m + (r + nbits + i)) := by
    intro i
    rw [bitsInPool_eq, bit_mod_add, hidx]
    congr 1
    ring
  refine ⟨out', _, hpf, ⟨?_, ?_, ?_, ?_⟩, ?_, hlen, ?_⟩
  · rw [bitsInPool_eq]
    exact Nat.mod_lt _ (by have := NeZero.pos W; omega)
  · exact le_trans (Nat.sub_le _ _) hp.size_le
  · -- the first free bit still starts a word
    have hal := hp.aligned
    have hmod : (p.entropyBitIndex + nbits) % bitsInPool W % 64 = (p.entropyBitIndex + nbits) % 64 := by
      rw [bitsInPool_eq]
      exact Nat.mod_mod_of_dvd _ (Dvd.intro W rfl)
    simp only [bitsPerWord] at hal ⊢
    omega
  · -- the bits not held: the old free bits, and the bits just taken
    intro i hi hi'
    dsimp only at hi
    rw [bitsInPool_eq] at hi'
    rw [hnew]
    by_cases hu : r + nbits + i < 64 * W
    · rw [hpool _ hu, Bool.and_eq_false_iff]
      right
      rw [show 64 * m + (r + nbits + i) = p.entropyBitIndex + (nbits + i) by omega]
      exact hp.free _ (by omega) (by rw [bitsInPool_eq]; omega)
    · have hpos : 64 * m + (r + nbits + i) = 64 * m + (r + nbits + i - 64 * W) + 64 * W := by
        omega
      rw [hpos, bit_add_period, hpool _ (by omega)]
      by_cases hlow : r + nbits + i - 64 * W < r
      · rw [hp.free_below _ hlow, Bool.and_false]
      · simp only [Bool.and_eq_false_iff, decide_eq_false_iff_not]
        left
        omega
  · -- the output
    intro k hk j hj
    rw [hbits k (by omega) j hj]
    by_cases hkj : 64 * k + j < nbits
    · rw [getD_contents p (by omega)]
    · simp [hkj]
  · -- the queue loses its first `nbits` bits
    apply List.ext_getElem
    · simp
    · intro i h₁ _
      simp only [contents, List.getElem_map, List.getElem_range, List.getElem_drop]
      rw [hnew, hpool _ (by simp at h₁; omega),
        decide_eq_true (by omega : r + nbits + i < r ∨ r + nbits ≤ r + nbits + i), Bool.true_and,
        show 64 * m + (r + nbits + i) = p.entropyBitIndex + (nbits + i) by omega]

end EntropyPool

/-! ### The pool is a queue of bits -/

/-- One `pack_entropy nbits out` call on the abstract pool `q` with source `src`, giving result
    `r`, output `out'`, queue `q'` and source `src'`: the queue is filled as `queueFill` does; on
    success the output holds the filled queue's first `nbits` bits and they leave it; on an error
    of the source the output is untouched and the queue keeps what was added. -/
def FifoCall {R : Nat} [NeZero R] (nbits : Nat) (q : List Bool) (src : EntropySource R)
    (out : List UInt64) (r : Except TrngError Unit) (out' : List UInt64) (q' : List Bool)
    (src' : EntropySource R) : Prop :=
  r = (queueFill nbits q src).1 ∧ src' = (queueFill nbits q src).2.2 ∧
    match r with
    | .ok () => Packed nbits (queueFill nbits q src).2.1 out' ∧ out'.length = out.length ∧
        q' = (queueFill nbits q src).2.1.drop nbits
    | .error _ => out' = out ∧ q' = (queueFill nbits q src).2.1

namespace EntropyPool

variable {W R : Nat} [NeZero W]

/-- `pack_entropy` implements one call on the queue, from every pool that keeps the invariant,
    for `1 ≤ nbits ≤ 192` and an output of `ceil(nbits / 64)` words; it does not panic and keeps
    the invariant. -/
theorem packEntropy_refines [NeZero R] (hW : W = wordsInPool R) {p : EntropyPool W} (hp : p.Wf)
    {nbits : Nat} (hn : 0 < nbits) (hn' : nbits ≤ trngRnd64EntropyMaxbits) {out : List UInt64}
    (hout : (nbits + 63) / 64 ≤ out.length) (src : EntropySource R) :
    ∃ r out' p' src', packEntropy nbits out p src = .ok (r, out', p', src') ∧ p'.Wf ∧
      FifoCall nbits p.contents src out r out' p'.contents src' := by
  have hW4 : 4 ≤ W := by
    have := NeZero.pos R
    simp only [hW, wordsInPool, trngRnd64EntropyMaxbits, bitsPerWord]
    omega
  obtain ⟨r, p₁, src₁, hfill, hwf₁, hq, hok⟩ := fillEntropy_refines hW hn' p hp src
  cases r with
  | error e =>
    -- the source failed during the fill: the output is left alone
    refine ⟨.error e, out, p₁, src₁, by simp [packEntropy, hfill], hwf₁, ?_⟩
    simp [FifoCall, hq]
  | ok u =>
    obtain ⟨out', p', hpf, hwf', hpacked, hlen, hdrop⟩ :=
      packFilled_refines hW4 hwf₁ hn hn' (hok rfl) hout
    refine ⟨.ok (), out', p', src₁, by simp [packEntropy, hfill, hpf], hwf', ?_⟩
    simp [FifoCall, hq, hpacked, hlen, hdrop]

end EntropyPool

/-- A `pack_entropy` call of the TRNG handlers: `1 ≤ nbits ≤ TRNG_RND64_ENTROPY_MAXBITS` and room
    for `nbits.div_ceil(64)` words. -/
def ValidRequest (nbits : Nat) (out : List UInt64) : Prop :=
  0 < nbits ∧ nbits ≤ trngRnd64EntropyMaxbits ∧ (nbits + 63) / 64 ≤ out.length

/-- One `pack_entropy` call as a step of the pool and the entropy source. -/
def PackStep {W R : Nat} [NeZero W] [NeZero R] (st : EntropyPool W × EntropySource R)
    (call : Nat × List UInt64) (st' : EntropyPool W × EntropySource R) : Prop :=
  ValidRequest call.1 call.2 ∧
    ∃ r out', EntropyPool.packEntropy call.1 call.2 st.1 st.2 = .ok (r, out', st'.1, st'.2)

end RustedFirmware.Trng
