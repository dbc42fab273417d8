import RustedFirmware.Lib.Rust
import RustedFirmware.Lib.BitRing

set_option autoImplicit false

/-! The TRNG entropy pool (`src/services/trng.rs`): `EntropyPool::fill_entropy` and
    `EntropyPool::pack_entropy`.

    The pool is a ring of `WORDS_IN_POOL` 64-bit words that holds `entropy_bit_size` bits of
    entropy from bit `entropy_bit_index` on. `fill_entropy` asks the platform for `REQ_WORDS`
    words at a time and writes them as whole words after the last bit held. `pack_entropy` copies
    the first `nbits` bits held into the output words, each output word stitched from two pool
    words with a shift, and clears the bits it copied from the pool.

    The platform's `get_entropy` is the stream of results it returns, one per call; every
    platform has `REQ_WORDS = 1`, and the model asks only that `REQ_WORDS` be positive, without
    which the `while` loop of `fill_entropy` would not end. `usize` counters are naturals: they
    stay below `bits_in_pool`. -/

namespace RustedFirmware.Trng

open Rust BitRing

/-- `TrngError`. -/
inductive TrngError where
  | notSupported | invalidParams | noEntropy
  deriving DecidableEq, Repr

def trngRnd32EntropyMaxbits : Nat := 96
def trngRnd64EntropyMaxbits : Nat := 192
def bitsPerWord : Nat := 64

/-- `words_in_pool`: room for one `TRNG_RND64` request and one more platform request. -/
def wordsInPool (reqWords : Nat) : Nat := trngRnd64EntropyMaxbits / bitsPerWord + reqWords

/-- `bits_in_pool`. -/
def bitsInPool (wordsInPool : Nat) : Nat := wordsInPool * bitsPerWord

/-- The results of successive calls of the platform's `get_entropy`. -/
abbrev EntropySource (R : Nat) := Stream' (Except TrngError (Vector UInt64 R))

/-- `EntropyPool`: the ring of words, the position of the first bit held and the number held. -/
structure EntropyPool (W : Nat) where
  entropy : Fin W → UInt64
  entropyBitIndex : Nat
  entropyBitSize : Nat

/-- The state the repacking loop of `pack_entropy` changes: the pool words, the output words
    and `bits_to_discard`. -/
structure PackState (W : Nat) where
  entropy : Fin W → UInt64
  out : List UInt64
  bitsToDiscard : Nat

namespace EntropyPool

variable {W R : Nat} [NeZero W]

/-- `EntropyPool::new`. -/
def new : EntropyPool W := ⟨fun _ => 0, 0, 0⟩

/-- The `for val in buf` loop of `fill_entropy`: each word is written at `free_word`, which then
    moves on around the ring, and adds `BITS_PER_WORD` bits. -/
def writeWords : List UInt64 → Fin W → EntropyPool W → EntropyPool W
  | [], _, p => p
  | val :: buf, freeWord, p =>
    writeWords buf (slot (freeWord.val + 1))
      { p with entropy := Function.update p.entropy freeWord val,
               entropyBitSize := p.entropyBitSize + bitsPerWord }

@[simp] theorem writeWords_size (buf : List UInt64) (fw : Fin W) (p : EntropyPool W) :
    (writeWords buf fw p).entropyBitSize = p.entropyBitSize + bitsPerWord * buf.length := by
  induction buf generalizing fw p with
  | nil => simp [writeWords]
  | cons val buf ih =>
    simp only [writeWords, ih, List.length_cons]
    ring

@[simp] theorem writeWords_index (buf : List UInt64) (fw : Fin W) (p : EntropyPool W) :
    (writeWords buf fw p).entropyBitIndex = p.entropyBitIndex := by
  induction buf generalizing fw p with
  | nil => rfl
  | cons val buf ih => simp only [writeWords, ih]

/-- `EntropyPool::fill_entropy`: the result, and the pool and the source afterwards. An error
    of `get_entropy` returns at once, through `?`. -/
def fillEntropy [NeZero R] (nbits : Nat) (p : EntropyPool W) (src : EntropySource R) :
    Except Panic (Except TrngError Unit × EntropyPool W × EntropySource R) :=
  if nbits > p.entropyBitSize then
    match src.head with
    | .error e => .ok (.error e, p, src.tail)
    | .ok buf =>
      let freeBit := p.entropyBitSize + p.entropyBitIndex
      let p' := writeWords buf.toList (slot (freeBit / bitsPerWord)) p
      if p'.entropyBitSize ≤ bitsInPool W then fillEntropy nbits p' src.tail
      else .error (.assertFailed "self.entropy_bit_size <= bits_in_pool(WORDS_IN_POOL)")
  else .ok (.ok (), p, src)
termination_by nbits - p.entropyBitSize
decreasing_by
  have hR := NeZero.pos R
  simp only [writeWords_size, Vector.length_toList, bitsPerWord]
  omega

/-- The discard from the lower pool word of a pass: `bits_to_discard` bits above `rshift` are
    cleared, or the whole word when they reach its top. -/
def discardLower (w : UInt64) (bitsToDiscard rshift : Nat) : UInt64 × Nat :=
  if bitsToDiscard < bitsPerWord - rshift then
    (w &&& (Word.max <<< ((bitsToDiscard + rshift) % bitsPerWord).toUInt64), 0)
  else (0, bitsToDiscard - (bitsPerWord - rshift))

/-- The discard from the upper pool word of a pass: at most its `BITS_PER_WORD - lshift` low
    bits, the ones the pass copied. -/
def discardUpper (w : UInt64) (bitsToDiscard lshift : Nat) : UInt64 × Nat :=
  if bitsToDiscard < bitsPerWord - lshift then
    (w &&& (Word.max <<< (bitsToDiscard % bitsPerWord).toUInt64), 0)
  else
    (w &&& (Word.max <<< ((bitsPerWord - lshift) % bitsPerWord).toUInt64),
      bitsToDiscard - (bitsPerWord - lshift))

/-- One pass of the repacking loop of `pack_entropy`: output word `idx` is stitched from pool
    words `min_word + idx` (shifted down by `rshift`) and `min_word + idx + 1` (shifted up by
    `lshift`, unless `lshift` is a whole word), and the bits it takes are cleared. -/
def packWord (minWord rshift : Nat) (s : PackState W) (idx : Nat) : PackState W :=
  let lshift := bitsPerWord - rshift
  let poolIdx0 : Fin W := slot (minWord + idx)
  let word := s.out.getD idx 0 ||| (s.entropy poolIdx0 >>> rshift.toUInt64)
  let lower := discardLower (s.entropy poolIdx0) s.bitsToDiscard rshift
  let entropy := Function.update s.entropy poolIdx0 lower.1
  if lshift ≠ bitsPerWord then
    let poolIdx1 : Fin W := slot (minWord + idx + 1)
    let upper := discardUpper (entropy poolIdx1) lower.2 lshift
    ⟨Function.update entropy poolIdx1 upper.1,
      s.out.set idx (word ||| (entropy poolIdx1 <<< lshift.toUInt64)), upper.2⟩
  else ⟨entropy, s.out.set idx word, lower.2⟩

/-- `pack_entropy` after its `fill_entropy`: the output words and the pool afterwards. The
    loop runs over `out.iter_mut().enumerate().take(to_fill)`. -/
def packFilled (nbits : Nat) (out : List UInt64) (p : EntropyPool W) :
    Except Panic (List UInt64 × EntropyPool W) := do
  let out := out.map fun _ => 0
  let rshift := p.entropyBitIndex % bitsPerWord
  let toFill := (nbits + bitsPerWord - 1) / bitsPerWord
  let s := (List.range (min out.length toFill)).foldl
    (packWord (p.entropyBitIndex / bitsPerWord) rshift) ⟨p.entropy, out, nbits⟩
  -- mask off the bits above `nbits` in the last word
  let out ← if nbits % bitsPerWord ≠ 0 then do
      let mask := Word.max >>> (bitsPerWord - nbits % bitsPerWord).toUInt64
      let w ← index s.out (toFill - 1)
      pure (s.out.set (toFill - 1) (w &&& mask))
    else pure s.out
  return (out, ⟨s.entropy, (p.entropyBitIndex + nbits) % bitsInPool W, p.entropyBitSize - nbits⟩)

/-- `EntropyPool::pack_entropy`: the result, the output words, and the pool and the source
    afterwards. -/
def packEntropy [NeZero R] (nbits : Nat) (out : List UInt64) (p : EntropyPool W)
    (src : EntropySource R) :
    Except Panic (Except TrngError Unit × List UInt64 × EntropyPool W × EntropySource R) := do
  let (r, p, src) ← fillEntropy nbits p src
  match r with
  | .error e => return (.error e, out, p, src)
  | .ok () =>
    let (out, p) ← packFilled nbits out p
    return (.ok (), out, p, src)

end EntropyPool

end RustedFirmware.Trng
