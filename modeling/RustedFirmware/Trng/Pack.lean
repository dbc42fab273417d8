import RustedFirmware.Trng.Pool

set_option autoImplicit false

/-! The repacking loop of `pack_entropy`, bit by bit.

    Write the pool's first held position as `64 * m + r` (`min_word` and `rshift`). Pass `k` of
    the loop reads the 64 ring bits from `64 * (m + k) + r` on into output word `k`: the top
    `64 - r` bits of word `m + k` and the low `r` bits of word `m + k + 1`. It then clears, in
    word `m + k`, the bits below `bits_to_discard + r`, and in word `m + k + 1` the bits below
    `min (bits_to_discard - (64 - r)) r`, and counts 64 bits off `bits_to_discard`.

    `Repacked k` is the loop invariant after `k` passes: the first `k` output words hold the next
    `64 * k` ring bits and the pool has lost the first `min nbits (64 * k)` of them. The bits of
    word `m` below `r` are not held, hence zero, which is all the clearing of the whole lower word
    needs. -/

namespace RustedFirmware.Trng.EntropyPool

open Rust BitRing

variable {W : Nat} [NeZero W]

/-! ### The two discards -/

theorem testBit_max_shiftLeft {s : Nat} (hs : s < 64) {j : Nat} (hj : j < 64) :
    (Word.max <<< s.toUInt64).toNat.testBit j = decide (s ≤ j) := by
  rw [Word.testBit_shiftLeft _ hs, Word.testBit_max]
  by_cases h : s ≤ j
  · simp [h, hj, show j - s < 64 by omega]
  · simp [h]

/-- The lower word keeps its bits from `bits_to_discard + rshift` up. -/
theorem discardLower_bit (w : UInt64) (btd : Nat) {r : Nat} (hr : r < 64) {j : Nat}
    (hj : j < 64) :
    (discardLower w btd r).1.toNat.testBit j = (decide (btd + r ≤ j) && w.toNat.testBit j) := by
  unfold discardLower bitsPerWord
  split_ifs with h
  · rw [Word.testBit_and, Nat.mod_eq_of_lt (by omega : btd + r < 64),
      testBit_max_shiftLeft (by omega) hj, Bool.and_comm]
  · have hnot : ¬ (btd + r ≤ j) := by omega
    simp [hnot]

theorem discardLower_count (w : UInt64) (btd r : Nat) :
    (discardLower w btd r).2 = btd - (64 - r) := by
  unfold discardLower bitsPerWord
  split_ifs with h
  · simp only
    omega
  · rfl

/-- The upper word, with `lshift = 64 - rshift`, keeps its bits from
    `min bits_to_discard rshift` up. -/
theorem discardUpper_bit (w : UInt64) (btd : Nat) {r : Nat} (hr : r < 64) {j : Nat}
    (hj : j < 64) :
    (discardUpper w btd (64 - r)).1.toNat.testBit j =
      (decide (min btd r ≤ j) && w.toNat.testBit j) := by
  unfold discardUpper bitsPerWord
  split_ifs with h
  · rw [Word.testBit_and, Nat.mod_eq_of_lt (by omega : btd < 64), testBit_max_shiftLeft (by omega) hj,
      Bool.and_comm, min_eq_left (by omega)]
  · rw [Word.testBit_and, Nat.mod_eq_of_lt (by omega : 64 - (64 - r) < 64),
      testBit_max_shiftLeft (by omega) hj, Bool.and_comm, min_eq_right (by omega),
      show 64 - (64 - r) = r by omega]

theorem discardUpper_count (w : UInt64) (btd : Nat) {r : Nat} (hr : r < 64) :
    (discardUpper w btd (64 - r)).2 = btd - r := by
  unfold discardUpper bitsPerWord
  split_ifs with h
  · simp only
    omega
  · simp only
    omega

/-! ### One pass -/

section Pass

variable (m : Nat) {r : Nat} (s : PackState W) (k : Nat)

theorem packWord_bitsToDiscard (hr : r < 64) :
    (packWord m r s k).bitsToDiscard = s.bitsToDiscard - 64 := by
  unfold packWord bitsPerWord
  dsimp only
  split_ifs with h
  · simp only
    rw [discardUpper_count _ _ hr, discardLower_count]
    omega
  · simp only
    rw [discardLower_count]
    omega

@[simp] theorem packWord_out_length : (packWord m r s k).out.length = s.out.length := by
  unfold packWord
  dsimp only
  split_ifs <;> simp

theorem packWord_out_of_ne {k' : Nat} (h : k' ≠ k) :
    (packWord m r s k).out.getD k' 0 = s.out.getD k' 0 := by
  unfold packWord
  dsimp only
  split_ifs <;> simp [List.getD_eq_getElem?_getD, Ne.symm h]

/-- Pass `k` ors into output word `k` the 64 ring bits from `64 * (m + k) + r` on. -/
theorem packWord_out_bit (hW : 2 ≤ W) (hr : r < 64) (hk : k < s.out.length) {j : Nat}
    (hj : j < 64) :
    ((packWord m r s k).out.getD k 0).toNat.testBit j =
      ((s.out.getD k 0).toNat.testBit j || bit s.entropy (64 * (m + k) + (r + j))) := by
  rw [bit_word]
  unfold packWord bitsPerWord
  dsimp only
  split_ifs with hr0
  · -- two words: the top `64 - r` bits of the lower, the low `r` bits of the upper
    simp only [List.getD_eq_getElem?_getD, List.getElem?_set_self hk, Option.getD_some,
      Function.update_of_ne (slot_succ_ne hW (m + k)), Word.testBit_or,
      Word.testBit_shiftRight _ hr, Word.testBit_shiftLeft _ (by omega : 64 - r < 64)]
    by_cases hrj : r + j < 64
    · have hlow : ¬ (64 - r ≤ j) := by omega
      simp [hlow, Nat.div_eq_of_lt hrj, Nat.mod_eq_of_lt hrj]
    · have hdiv : (r + j) / 64 = 1 := by omega
      have hmod : (r + j) % 64 = j - (64 - r) := by omega
      simp [Word.testBit_ge _ _ (by omega : 64 ≤ r + j), hdiv, hmod, show 64 - r ≤ j by omega, hj]
  · -- `rshift = 0`: the lower word alone
    have hr0' : r = 0 := by omega
    subst hr0'
    simp [List.getD_eq_getElem?_getD, List.getElem?_set_self hk, Nat.div_eq_of_lt hj,
      Nat.mod_eq_of_lt hj]

/-- Pass `k` clears, in word `m + k`, the ring bits below `bits_to_discard + r`, and in word
    `m + k + 1` (when `r ≠ 0`) those below `min (bits_to_discard - (64 - r)) r`. -/
theorem packWord_entropy_bit (hr : r < 64) (hk : k + 1 < W) {u : Nat} (hu : u < 64 * W) :
    bit (packWord m r s k).entropy (64 * m + u) =
      if u / 64 = k then decide (s.bitsToDiscard + r ≤ u % 64) && bit s.entropy (64 * m + u)
      else if u / 64 = k + 1 ∧ r ≠ 0 then
        decide (min (s.bitsToDiscard - (64 - r)) r ≤ u % 64) && bit s.entropy (64 * m + u)
      else bit s.entropy (64 * m + u) := by
  have hW : 2 ≤ W := by omega
  have hmod : u % 64 < 64 := Nat.mod_lt _ (by decide)
  have hne : (slot (m + (k + 1)) : Fin W) ≠ slot (m + k) := by
    rw [← Nat.add_assoc]
    exact slot_succ_ne hW _
  unfold packWord bitsPerWord
  dsimp only
  split_ifs with hr0 hk0 hk1 hk0 hk1
  · -- the lower word
    rw [Nat.add_assoc, bit_update _ m hk _ hu, if_neg (by omega), bit_update _ m (by omega) _ hu,
      if_pos hk0, discardLower_bit _ _ hr hmod, bit_word, hk0]
  · -- the upper word
    rw [Nat.add_assoc, bit_update _ m hk _ hu, if_pos hk1.1, Function.update_of_ne hne,
      discardUpper_bit _ _ hr hmod, discardLower_count, bit_word, hk1.1]
  · -- another word
    rw [Nat.add_assoc, bit_update _ m hk _ hu, if_neg (fun h => hk1 ⟨h, by omega⟩),
      bit_update _ m (by omega) _ hu, if_neg hk0]
  · -- `rshift = 0`, the lower word
    rw [bit_update _ m (by omega) _ hu, if_pos hk0, discardLower_bit _ _ hr hmod, bit_word, hk0]
  · -- `rshift = 0`, the word after it is not touched
    exact absurd hk1.2 (by omega)
  · rw [bit_update _ m (by omega) _ hu, if_neg hk0]

end Pass

/-! ### The loop invariant -/

section Loop

variable (E₀ : Fin W → UInt64) (m r nbits : Nat)

/-- The loop invariant after `k` passes over pool words `E₀` taking `nbits` bits:
    `bits_to_discard` has counted `64 * k` bits off, the first `k` output words hold the ring
    bits from `64 * m + r` on and the others are zero, and the pool has lost the first
    `min nbits (64 * k)` of those bits. -/
structure Repacked (k : Nat) (s : PackState W) : Prop where
  count : s.bitsToDiscard = nbits - 64 * k
  out_bit : ∀ k' < s.out.length, ∀ j < 64,
    (s.out.getD k' 0).toNat.testBit j = (decide (k' < k) && bit E₀ (64 * (m + k') + (r + j)))
  pool_bit : ∀ u < 64 * W,
    bit s.entropy (64 * m + u) = (decide (u < r ∨ r + min nbits (64 * k) ≤ u) && bit E₀ (64 * m + u))

variable {E₀ m r nbits}

/-- Before the loop: the pool as it was, the output zeroed. -/
theorem repacked_zero (out : List UInt64) :
    Repacked E₀ m r nbits 0 ⟨E₀, out.map fun _ => 0, nbits⟩ where
  count := by simp
  out_bit := by
    intro k' hk' j _
    simp [List.getD_eq_getElem?_getD]
  pool_bit := by
    intro u _
    rw [decide_eq_true (by omega : u < r ∨ r + min nbits (64 * 0) ≤ u), Bool.true_and]

/-- The pool half of the step: pass `k` clears exactly the next held bits up to `nbits`. -/
theorem repacked_pool_step (hr : r < 64) (hfree : ∀ u < r, bit E₀ (64 * m + u) = false)
    {k : Nat} (hk : 64 * k < nbits) (hW : k + 2 ≤ W) {s : PackState W}
    (h : Repacked E₀ m r nbits k s) {u : Nat} (hu : u < 64 * W) :
    bit (packWord m r s k).entropy (64 * m + u) =
      (decide (u < r ∨ r + min nbits (64 * (k + 1)) ≤ u) && bit E₀ (64 * m + u)) := by
  -- wherever the bit is set, the free bits below `r` are not in question
  have hheld : bit E₀ (64 * m + u) = true → ¬ u < r := fun hb hlt => by
    rw [hfree u hlt] at hb
    exact Bool.false_ne_true hb
  have hcount := h.count
  rw [packWord_entropy_bit m s k hr (by omega) hu, h.pool_bit u hu]
  split_ifs with hk0 hk1
  · -- the lower word of the pass
    rw [← Bool.and_assoc, ← Bool.decide_and]
    exact decide_and_congr fun hb => by have := hheld hb; omega
  · -- the upper word of the pass
    rw [← Bool.and_assoc, ← Bool.decide_and]
    exact decide_and_congr fun hb => by have := hheld hb; omega
  · -- the other words
    exact decide_and_congr fun hb => by have := hheld hb; omega

/-- One pass keeps the invariant, one word further. -/
theorem repacked_step (hr : r < 64) (hfree : ∀ u < r, bit E₀ (64 * m + u) = false) {k : Nat}
    (hk : 64 * k < nbits) (hW : k + 2 ≤ W) {s : PackState W} (hlen : k < s.out.length)
    (h : Repacked E₀ m r nbits k s) : Repacked E₀ m r nbits (k + 1) (packWord m r s k) where
  count := by
    rw [packWord_bitsToDiscard m s k hr, h.count]
    omega
  out_bit := by
    intro k' hk' j hj
    rw [packWord_out_length] at hk'
    by_cases hkk : k' = k
    · -- the word this pass writes: the ring bits are still those of `E₀`
      subst hkk
      have hpos : 64 * (m + k') + (r + j) = 64 * m + (64 * k' + r + j) := by ring
      rw [packWord_out_bit m s k' (by omega) hr hlen hj, h.out_bit k' hlen j hj, hpos,
        h.pool_bit _ (by omega)]
      simp [show r + min nbits (64 * k') ≤ 64 * k' + r + j by omega]
    · rw [packWord_out_of_ne m s k hkk, h.out_bit k' hk' j hj]
      exact decide_and_congr fun _ => by omega
  pool_bit := fun _ hu => repacked_pool_step hr hfree hk hW h hu

theorem foldl_packWord_out_length (s : PackState W) (K : Nat) :
    ((List.range K).foldl (packWord m r) s).out.length = s.out.length := by
  induction K with
  | zero => rfl
  | succ K ih => rw [List.range_succ, List.foldl_append, List.foldl_cons, List.foldl_nil,
      packWord_out_length, ih]

/-- The run of `K` passes keeps the invariant: the run lemma of the loop. -/
theorem repacked_foldl (hr : r < 64) (hfree : ∀ u < r, bit E₀ (64 * m + u) = false) {K : Nat}
    (hK : 64 * (K - 1) < nbits) (hW : K + 1 ≤ W) {s : PackState W} (hlen : K ≤ s.out.length)
    (h : Repacked E₀ m r nbits 0 s) :
    Repacked E₀ m r nbits K ((List.range K).foldl (packWord m r) s) := by
  induction K with
  | zero => exact h
  | succ K ih =>
    rw [List.range_succ, List.foldl_append, List.foldl_cons, List.foldl_nil]
    have hlen' : K < ((List.range K).foldl (packWord m r) s).out.length := by
      rw [foldl_packWord_out_length]; omega
    exact repacked_step hr hfree (by omega) (by omega) hlen'
      (ih (by omega) (by omega) (by omega))

end Loop

/-! ### The packing phase -/

theorem testBit_max_shiftRight {s : Nat} (hs : s < 64) (j : Nat) :
    (Word.max >>> s.toUInt64).toNat.testBit j = decide (j < 64 - s) := by
  rw [Word.testBit_shiftRight _ hs, Word.testBit_max]
  simp only [decide_eq_decide]
  omega

/-- Masking one element of a list in place. -/
theorem getD_set_and (l : List UInt64) {i : Nat} (hi : i < l.length) (mask : UInt64) (k : Nat) :
    (l.set i (l[i] &&& mask)).getD k 0 = if k = i then l.getD i 0 &&& mask else l.getD k 0 := by
  by_cases hk : k = i
  · subst hk
    simp [List.getD_eq_getElem?_getD, hi]
  · simp [List.getD_eq_getElem?_getD, Ne.symm hk, hk]

/-- `pack_entropy` after its fill, for `1 ≤ nbits`, an output of at least `ceil(nbits / 64)` words
    and a ring of more words than that: it does not panic; output word `k` holds, at bit `j`,
    held bit `64 * k + j` if that is below `nbits`, and zero otherwise; and the pool loses the
    first `nbits` held bits and keeps every other. -/
theorem packFilled_spec (p : EntropyPool W)
    (hfree : ∀ u < p.entropyBitIndex % 64, bit p.entropy (64 * (p.entropyBitIndex / 64) + u) = false)
    {nbits : Nat} (hn : 0 < nbits) (hW : (nbits + 63) / 64 + 1 ≤ W) {out : List UInt64}
    (hout : (nbits + 63) / 64 ≤ out.length) :
    ∃ out' E', packFilled nbits out p =
        .ok (out', ⟨E', (p.entropyBitIndex + nbits) % bitsInPool W, p.entropyBitSize - nbits⟩) ∧
      out'.length = out.length ∧
      (∀ k < out.length, ∀ j < 64, (out'.getD k 0).toNat.testBit j =
        (decide (64 * k + j < nbits) && bit p.entropy (p.entropyBitIndex + (64 * k + j)))) ∧
      (∀ u < 64 * W, bit E' (64 * (p.entropyBitIndex / 64) + u) =
        (decide (u < p.entropyBitIndex % 64 ∨ p.entropyBitIndex % 64 + nbits ≤ u) &&
          bit p.entropy (64 * (p.entropyBitIndex / 64) + u))) := by
  set m := p.entropyBitIndex / 64
  set r := p.entropyBitIndex % 64
  set toFill := (nbits + 63) / 64 with htoFill
  have hr : r < 64 := Nat.mod_lt _ (by decide)
  have hidx : p.entropyBitIndex = 64 * m + r := (Nat.div_add_mod _ 64).symm
  -- the loop runs `to_fill` passes and leaves the invariant at `to_fill`
  have hrep : Repacked p.entropy m r nbits toFill
      ((List.range toFill).foldl (packWord m r) ⟨p.entropy, out.map fun _ => 0, nbits⟩) :=
    repacked_foldl hr hfree (by omega) hW (by simp; omega) (repacked_zero out)
  set s := (List.range toFill).foldl (packWord m r) ⟨p.entropy, out.map fun _ => 0, nbits⟩
  have hlen : s.out.length = out.length := by simp [s, foldl_packWord_out_length]
  have hheld : ∀ k < out.length, ∀ j < 64, (s.out.getD k 0).toNat.testBit j =
      (decide (k < toFill) && bit p.entropy (p.entropyBitIndex + (64 * k + j))) := by
    intro k hk j hj
    rw [hrep.out_bit k (by omega) j hj, hidx]
    congr 2
    ring
  have hpool : ∀ u < 64 * W, bit s.entropy (64 * m + u) =
      (decide (u < r ∨ r + nbits ≤ u) && bit p.entropy (64 * m + u)) := by
    intro u hu
    rw [hrep.pool_bit u hu, show min nbits (64 * toFill) = nbits by omega]
  -- the code's own spelling of the loop and of `to_fill`
  have htf : (nbits + bitsPerWord - 1) / bitsPerWord = toFill := by simp [bitsPerWord, toFill]
  have hfold : List.foldl (packWord (p.entropyBitIndex / bitsPerWord) (p.entropyBitIndex % bitsPerWord))
      ⟨p.entropy, out.map fun _ => 0, nbits⟩
      (List.range (min (out.map fun _ => (0 : UInt64)).length toFill)) = s := by
    rw [List.length_map, min_eq_right hout]
    rfl
  unfold packFilled
  dsimp only
  rw [htf, hfold]
  by_cases hmod : nbits % bitsPerWord = 0
  · -- a whole number of words: nothing to mask
    rw [if_neg (not_not.mpr hmod)]
    refine ⟨s.out, s.entropy, rfl, hlen, fun k hk j hj => ?_, hpool⟩
    rw [hheld k hk j hj]
    exact decide_and_congr fun _ => by simp [bitsPerWord] at hmod; omega
  · -- the last word keeps its low `nbits % 64` bits
    have hlast : toFill - 1 < s.out.length := by omega
    rw [if_pos hmod, index_of_lt _ _ hlast]
    refine ⟨_, s.entropy, rfl, by simp [hlen], fun k hk j hj => ?_, hpool⟩
    have hmod' : nbits % 64 ≠ 0 := hmod
    rw [getD_set_and _ hlast]
    split_ifs with hk1
    · rw [Word.testBit_and, hheld _ (by omega) j hj, bitsPerWord,
        testBit_max_shiftRight (by omega) j, hk1]
      rw [Bool.and_comm, ← Bool.and_assoc, ← Bool.decide_and]
      exact decide_and_congr fun _ => by omega
    · rw [hheld k hk j hj]
      exact decide_and_congr fun _ => by omega

end RustedFirmware.Trng.EntropyPool
