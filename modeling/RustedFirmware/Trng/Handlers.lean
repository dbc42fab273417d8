import RustedFirmware.Trng.Fifo
import RustedFirmware.Services.Smccc
import RustedFirmware.Lib.Transition

set_option autoImplicit false

/-! The `TRNG_RND32` and `TRNG_RND64` handlers (`Trng::trng_rnd32` and `Trng::trng_rnd64` in
    `src/services/trng.rs`).

    Both read the number of bits asked for from `x1`, refuse a request outside `1..=MAXBITS`, and
    otherwise pack that many bits of the pool, under its lock, into two or three words, which
    they return after `SUCCESS`: `TRNG_RND64` as three 64-bit words, `TRNG_RND32` as three 32-bit
    words, the least significant last. On the queue of bits the pool implements (`Fifo`), a call
    takes the first bits of the filled queue into the registers (`RndCall`). -/

namespace RustedFirmware.Trng

open Rust BitRing

/-- The `#[repr(i32)]` discriminant of a `TrngError`. -/
def TrngError.toI32 : TrngError → Int
  | .notSupported => -1
  | .invalidParams => -2
  | .noEntropy => -3

section Handlers

variable {W R : Nat} [NeZero W] [NeZero R]

/-- The body `trng_rnd32` and `trng_rnd64` share: `nbits` from `x1`, checked against `maxbits`,
    packed into an array of `words` zeroed words that `ret` lays out in the registers. The
    handler holds the pool's lock for the whole call. -/
def trngRnd (maxbits words : Nat) (ret : List UInt64 → SmcReturn) (regs : SmcReturn)
    (p : EntropyPool W) (src : EntropySource R) :
    Except Panic (SmcReturn × EntropyPool W × EntropySource R) := do
  let nbits := (← index regs.values 1).toNat
  if nbits = 0 ∨ nbits > maxbits then
    return (SmcReturn.setFromI32 TrngError.invalidParams.toI32, p, src)
  let (r, ent, p, src) ← p.packEntropy nbits (List.replicate words 0) src
  match r with
  | .error e => return (SmcReturn.setFromI32 e.toI32, p, src)
  | .ok () => return (ret ent, p, src)

/-- `Trng::trng_rnd32`: the entropy in `w1..w3`, `ent[1]` and the two halves of `ent[0]`. -/
def trngRnd32 : SmcReturn → EntropyPool W → EntropySource R →
    Except Panic (SmcReturn × EntropyPool W × EntropySource R) :=
  trngRnd trngRnd32EntropyMaxbits 2 fun ent =>
    SmcReturn.setArgs4 (UInt64.ofInt success) (ent.getD 1 0)
      ((ent.getD 0 0 >>> 32) &&& 0xFFFF_FFFF) (ent.getD 0 0 &&& 0xFFFF_FFFF)

/-- `Trng::trng_rnd64`: the entropy in `x1..x3`, `ent[2]`, `ent[1]` and `ent[0]`. -/
def trngRnd64 : SmcReturn → EntropyPool W → EntropySource R →
    Except Panic (SmcReturn × EntropyPool W × EntropySource R) :=
  trngRnd trngRnd64EntropyMaxbits 3 fun ent =>
    SmcReturn.setArgs4 (UInt64.ofInt success) (ent.getD 2 0) (ent.getD 1 0) (ent.getD 0 0)

end Handlers

/-! ### The handlers on the queue of bits -/

/-- The registers of a successful call: `SUCCESS`, then three words of `width` bits holding the
    first `nbits` bits of `q`, the least significant in the last: bit `j` of register `3 - i` is
    bit `width * i + j` of `q`, and every bit at or above `width` is clear. -/
def ReturnsBits (width nbits : Nat) (q : List Bool) (regs : SmcReturn) : Prop :=
  regs.values.length = 4 ∧ regs.values.head? = some 0 ∧
    ∀ i < 3, ∀ j < 64, (regs.values.getD (3 - i) 0).toNat.testBit j =
      (decide (j < width) && decide (width * i + j < nbits) && q.getD (width * i + j) false)

/-- One `TRNG_RND32` (`width = 32`) or `TRNG_RND64` (`width = 64`) call asking for `nbits` on the
    queue `q` with source `src`, giving registers `regs'`, queue `q'` and source `src'`: a request
    outside `1..=maxbits` returns `INVALID_PARAMETERS` and leaves the queue and the source; any
    other fills the queue as `queueFill` does and returns the source's error, the queue keeping
    what was added, or `SUCCESS` with the filled queue's first `nbits` bits, which leave it. -/
def RndCall {R : Nat} [NeZero R] (width maxbits nbits : Nat) (q : List Bool)
    (src : EntropySource R) (regs' : SmcReturn) (q' : List Bool) (src' : EntropySource R) : Prop :=
  if nbits = 0 ∨ nbits > maxbits then
    regs' = SmcReturn.setFromI32 TrngError.invalidParams.toI32 ∧ q' = q ∧ src' = src
  else
    src' = (queueFill nbits q src).2.2 ∧
      match (queueFill nbits q src).1 with
      | .ok () => ReturnsBits width nbits (queueFill nbits q src).2.1 regs' ∧
          q' = (queueFill nbits q src).2.1.drop nbits
      | .error e => regs' = SmcReturn.setFromI32 e.toI32 ∧ q' = (queueFill nbits q src).2.1

theorem testBit_and_low32 (x : UInt64) (j : Nat) :
    (x &&& 0xFFFF_FFFF).toNat.testBit j = (decide (j < 32) && x.toNat.testBit j) := by
  rw [UInt64.toNat_and, Nat.testBit_and, show (0xFFFF_FFFF : UInt64).toNat = 2 ^ 32 - 1 from rfl,
    Nat.testBit_two_pow_sub_one, Bool.and_comm]

theorem testBit_shiftRight_32 (x : UInt64) (j : Nat) :
    (x >>> 32).toNat.testBit j = x.toNat.testBit (32 + j) := by
  rw [UInt64.toNat_shiftRight, show (32 : UInt64).toNat % 64 = 32 from rfl, Nat.testBit_shiftRight]

/-- `TRNG_RND32` lays out two packed words as three 32-bit words: `ent[0]`'s halves below, and
    `ent[1]`, whose bits from 32 on are clear as at most 96 bits are packed. -/
theorem returnsBits_rnd32 {nbits : Nat} {q : List Bool} {ent : List UInt64}
    (hn : nbits ≤ trngRnd32EntropyMaxbits) (hent : ent.length = 2) (hP : Packed nbits q ent) :
    ReturnsBits 32 nbits q (SmcReturn.setArgs4 (UInt64.ofInt success) (ent.getD 1 0)
      ((ent.getD 0 0 >>> 32) &&& 0xFFFF_FFFF) (ent.getD 0 0 &&& 0xFFFF_FFFF)) := by
  refine ⟨rfl, rfl, fun i hi j hj => ?_⟩
  simp only [trngRnd32EntropyMaxbits] at hn
  simp only [SmcReturn.setArgs4]
  obtain rfl | rfl | rfl : i = 0 ∨ i = 1 ∨ i = 2 := by omega
  -- case `w3`: the low half of `ent[0]`
  · rw [List.getD_cons_succ, List.getD_cons_succ, List.getD_cons_succ, List.getD_cons_zero,
      testBit_and_low32, hP 0 (by omega) j hj, Bool.and_assoc]
  -- case `w2`: the high half of `ent[0]`, shifted down
  · rw [List.getD_cons_succ, List.getD_cons_succ, List.getD_cons_zero, testBit_and_low32,
      testBit_shiftRight_32]
    by_cases hj32 : j < 32
    · rw [hP 0 (by omega) (32 + j) (by omega), Bool.and_assoc]
      simp [hj32]
    · simp [hj32]
  -- case `w1`: `ent[1]`, whose bits from 32 on lie past the 96 packed
  · rw [List.getD_cons_succ, List.getD_cons_zero, hP 1 (by omega) j hj]
    by_cases hj32 : j < 32
    · simp [hj32]
    · simp [hj32, show ¬64 * 1 + j < nbits by omega]

/-- `TRNG_RND64` returns the three packed words as they are, `ent[0]` last. -/
theorem returnsBits_rnd64 {nbits : Nat} {q : List Bool} {ent : List UInt64}
    (hent : ent.length = 3) (hP : Packed nbits q ent) :
    ReturnsBits 64 nbits q (SmcReturn.setArgs4 (UInt64.ofInt success) (ent.getD 2 0)
      (ent.getD 1 0) (ent.getD 0 0)) := by
  refine ⟨rfl, rfl, fun i hi j hj => ?_⟩
  obtain rfl | rfl | rfl : i = 0 ∨ i = 1 ∨ i = 2 := by omega
  all_goals
    simp only [SmcReturn.setArgs4, List.getD_cons_succ, List.getD_cons_zero]
    rw [hP _ (by omega) j hj]
    simp [hj]

section Refinement

variable {W R : Nat} [NeZero W] [NeZero R]

/-- A handler whose layout returns the bits its packed words hold implements one call on the
    queue, from every pool that keeps the invariant and on registers with `x1`: it does not panic,
    keeps the invariant, and either leaves the pool and the source or makes one `pack_entropy`
    call the FIFO theorem covers. -/
theorem trngRnd_refines (hW : W = wordsInPool R) {maxbits words width : Nat}
    {ret : List UInt64 → SmcReturn} (hmax : maxbits ≤ trngRnd64EntropyMaxbits)
    (hwords : (maxbits + 63) / 64 ≤ words)
    (hret : ∀ nbits q ent, nbits ≤ maxbits → ent.length = words → Packed nbits q ent →
      ReturnsBits width nbits q (ret ent))
    {p : EntropyPool W} (hp : p.Wf) {regs : SmcReturn} (hregs : 1 < regs.values.length)
    (src : EntropySource R) :
    ∃ regs' p' src', trngRnd maxbits words ret regs p src = .ok (regs', p', src') ∧ p'.Wf ∧
      RndCall width maxbits (regs.values.getD 1 0).toNat p.contents src regs' p'.contents src' ∧
      ((p', src') = (p, src) ∨
        PackStep (p, src) ((regs.values.getD 1 0).toNat, List.replicate words 0) (p', src')) := by
  have hidx : index regs.values 1 = .ok (regs.values.getD 1 0) := by
    rw [index_of_lt _ _ hregs, List.getD_eq_getElem _ _ hregs]
  by_cases hbad : (regs.values.getD 1 0).toNat = 0 ∨ (regs.values.getD 1 0).toNat > maxbits
  -- case: a request outside `1..=maxbits` is refused before the pool is locked
  · refine ⟨SmcReturn.setFromI32 TrngError.invalidParams.toI32, p, src, ?_, hp, ?_, .inl rfl⟩
    · simp only [trngRnd, hidx, ok_bind, if_pos hbad]
      rfl
    · rw [RndCall, if_pos hbad]
      exact ⟨rfl, rfl, rfl⟩
  have hn : 0 < (regs.values.getD 1 0).toNat := by omega
  have hn' : (regs.values.getD 1 0).toNat ≤ maxbits := by omega
  have hvalid : ValidRequest (regs.values.getD 1 0).toNat (List.replicate words 0) :=
    ⟨hn, hn'.trans hmax, by rw [List.length_replicate]; omega⟩
  obtain ⟨r, out', p', src', hpack, hwf', hr, hsrc, hcase⟩ :=
    EntropyPool.packEntropy_refines hW hp hvalid.1 hvalid.2.1 hvalid.2.2 src
  have hstep : PackStep (p, src) ((regs.values.getD 1 0).toNat, List.replicate words 0) (p', src') :=
    ⟨hvalid, r, out', hpack⟩
  cases r with
  -- case: the source failed, and its error is returned
  | error e =>
    refine ⟨SmcReturn.setFromI32 e.toI32, p', src', ?_, hwf', ?_, .inr hstep⟩
    · simp only [trngRnd, hidx, ok_bind, if_neg hbad, hpack]
      rfl
    · rw [RndCall, if_neg hbad, ← hr]
      exact ⟨hsrc, rfl, hcase.2⟩
  -- case: the packed words hold the queue's first bits
  | ok u =>
    obtain ⟨hpacked, hlen, hq⟩ := hcase
    refine ⟨ret out', p', src', ?_, hwf', ?_, .inr hstep⟩
    · simp only [trngRnd, hidx, ok_bind, if_neg hbad, hpack]
      rfl
    · rw [RndCall, if_neg hbad, ← hr]
      exact ⟨hsrc, hret _ _ out' hn' (by rw [hlen, List.length_replicate]) hpacked, hq⟩

/-- Every state that `pack_entropy` calls of the handlers reach from `EntropyPool::new` keeps the
    pool's invariant. -/
theorem reachable_wf (hW : W = wordsInPool R) (src₀ : EntropySource R)
    {st : EntropyPool W × EntropySource R}
    (hr : Transition.Reachable PackStep (EntropyPool.new, src₀) st) : st.1.Wf := by
  refine hr.invariant (I := fun st => st.1.Wf) EntropyPool.new_wf ?_
  rintro s ⟨nbits, out⟩ s' hs ⟨⟨hn, hn', hout⟩, r, out', hstep⟩
  obtain ⟨r₁, out₁, p₁, src₁, hpack, hwf₁, -⟩ :=
    EntropyPool.packEntropy_refines hW hs hn hn' hout s.2
  rw [hpack] at hstep
  simp only [Except.ok.injEq, Prod.mk.injEq] at hstep
  rw [← hstep.2.2.1]
  exact hwf₁

end Refinement

/-- The TRNG entropy pool is a FIFO queue of bits: in every state that `pack_entropy` calls of
    the handlers reach from `EntropyPool::new`, for every sequence of results of the source, the
    pool keeps its invariant (so it represents the queue `contents`), and every further call
    returns without panicking and does to that queue what `FifoCall` says. Consequently every
    `TRNG_RND32` and `TRNG_RND64` call from such a state returns without panicking, does what
    `RndCall` says (a refused request, the source's error, or `SUCCESS` with the queue's first
    bits in the registers), and leads to a state of the same kind. -/
theorem pack_entropy_fifo {W R : Nat} [NeZero W] [NeZero R] (hW : W = wordsInPool R)
    (src₀ : EntropySource R) {st : EntropyPool W × EntropySource R}
    (hr : Transition.Reachable PackStep (EntropyPool.new, src₀) st) :
    st.1.Wf ∧ (∀ nbits out, ValidRequest nbits out →
      ∃ r out' p' src', EntropyPool.packEntropy nbits out st.1 st.2 = .ok (r, out', p', src') ∧
        FifoCall nbits st.1.contents st.2 out r out' p'.contents src') ∧
      ∀ regs : SmcReturn, 1 < regs.values.length →
        (∃ regs' p' src', trngRnd32 regs st.1 st.2 = .ok (regs', p', src') ∧
          RndCall 32 trngRnd32EntropyMaxbits (regs.values.getD 1 0).toNat st.1.contents st.2
            regs' p'.contents src' ∧
          Transition.Reachable PackStep (EntropyPool.new, src₀) (p', src')) ∧
        (∃ regs' p' src', trngRnd64 regs st.1 st.2 = .ok (regs', p', src') ∧
          RndCall 64 trngRnd64EntropyMaxbits (regs.values.getD 1 0).toNat st.1.contents st.2
            regs' p'.contents src' ∧
          Transition.Reachable PackStep (EntropyPool.new, src₀) (p', src')) := by
  have hwf := reachable_wf hW src₀ hr
  -- a handler call either leaves the state or makes one more step
  have hnext : ∀ {p' : EntropyPool W} {src' : EntropySource R} {call : Nat × List UInt64},
      (p', src') = st ∨ PackStep st call (p', src') →
        Transition.Reachable PackStep (EntropyPool.new, src₀) (p', src') := by
    rintro p' src' call (heq | hstep)
    · rw [heq]
      exact hr
    · exact hr.tail hstep
  refine ⟨hwf, fun nbits out ⟨hn, hn', hout⟩ => ?_, fun regs hregs => ⟨?_, ?_⟩⟩
  · obtain ⟨r, out', p', src', hpack, -, hfifo⟩ :=
      EntropyPool.packEntropy_refines hW hwf hn hn' hout st.2
    exact ⟨r, out', p', src', hpack, hfifo⟩
  · obtain ⟨regs', p', src', hcall, -, hspec, hst⟩ :=
      trngRnd_refines hW (by decide) (by decide)
        (fun _ _ _ hn hlen hP => returnsBits_rnd32 hn hlen hP) hwf hregs st.2
    exact ⟨regs', p', src', hcall, hspec, hnext hst⟩
  · obtain ⟨regs', p', src', hcall, -, hspec, hst⟩ :=
      trngRnd_refines hW le_rfl (by decide)
        (fun _ _ _ _ hlen hP => returnsBits_rnd64 hlen hP) hwf hregs st.2
    exact ⟨regs', p', src', hcall, hspec, hnext hst⟩

/-- The four-word pool of every platform, with a source that always returns the word 7: a first
    call for 65 bits fills two words and leaves the last 63 bits of the second, and a
    `TRNG_RND64` call for 3 bits from there takes the first of them. -/
theorem pack_entropy_fifo_second :
    (4 : Nat) = wordsInPool 1 ∧
      ∃ st : EntropyPool 4 × EntropySource 1,
        Transition.Reachable PackStep
          (EntropyPool.new, Stream'.const (.ok (Vector.replicate 1 7))) st ∧
        st.1.contents = (wordBits 7).drop 1 ∧
        ∃ regs' p' src', trngRnd64 ⟨[0xC400_0053, 3]⟩ st.1 st.2 = .ok (regs', p', src') ∧
          RndCall 64 trngRnd64EntropyMaxbits 3 st.1.contents st.2 regs' p'.contents src' := by
  have hW : (4 : Nat) = wordsInPool 1 := by decide
  have hhead : (Stream'.const (.ok (Vector.replicate 1 (7 : UInt64))) :
      EntropySource 1).head = .ok (Vector.replicate 1 7) := rfl
  -- the queue takes in the bits of two words before it holds 65
  have hfill : queueFill 65 [] (Stream'.const (.ok (Vector.replicate 1 (7 : UInt64)))) =
      (.ok (), wordBits 7 ++ wordBits 7, Stream'.const (.ok (Vector.replicate 1 7))) := by
    rw [queueFill, if_pos (by decide), hhead]
    dsimp only
    rw [Stream'.tail_const, queueFill, if_pos (by simp), hhead]
    dsimp only
    rw [Stream'.tail_const, queueFill, if_neg (by simp)]
    simp
  obtain ⟨r, out', p₁, src₁, hpack, -, hr, hsrc, hcase⟩ :=
    EntropyPool.packEntropy_refines (W := 4) hW EntropyPool.new_wf (by decide : 0 < 65)
      (by decide) (by decide : (65 + 63) / 64 ≤ ([0, 0] : List UInt64).length)
      (Stream'.const (.ok (Vector.replicate 1 7)))
  have hreach : Transition.Reachable PackStep
      (EntropyPool.new, Stream'.const (.ok (Vector.replicate 1 7))) (p₁, src₁) :=
    Transition.Reachable.tail (a := (65, [0, 0])) (.refl _)
      ⟨⟨by decide, by decide, by decide⟩, r, out', hpack⟩
  have hnew : (EntropyPool.new : EntropyPool 4).contents = [] := rfl
  rw [hnew, hfill] at hr hcase
  cases hr
  obtain ⟨-, -, hq⟩ := hcase
  obtain ⟨-, -, h64⟩ := pack_entropy_fifo hW _ hreach
  obtain ⟨regs', p', src', hcall, hspec, -⟩ := (h64 ⟨[0xC400_0053, 3]⟩ (by decide)).2
  refine ⟨hW, (p₁, src₁), hreach, ?_, regs', p', src', hcall, hspec⟩
  rw [hq]
  simp only [List.drop_append, length_wordBits]
  simp [List.drop_eq_nil_of_le]

end RustedFirmware.Trng
