import Mathlib

set_option autoImplicit false

/-! Rings of machine words read as rings of bits.

    A buffer of `W` 64-bit words, indexed modulo `W`, holds a ring of `64 * W` bits: bit `p` is
    bit `p % 64` of word `p / 64`, the word index taken around the ring. Positions are plain
    naturals and the ring is periodic in them, so a reader of the ring counts positions from any
    start without reducing them.

    The lemmas say which bits a one-word write changes: writing word `a + k` (for `k < W`)
    changes exactly the positions `64 * a + e` with `e / 64 = k`, among the `64 * W` positions
    from `64 * a` on. -/

namespace BitRing

variable {W : Nat} [NeZero W]

/-- The buffer slot of a word index, `a % W`. -/
def slot (a : Nat) : Fin W := ⟨a % W, Nat.mod_lt _ (NeZero.pos W)⟩

/-- Bit `p` of the ring of words `E`: bit `p % 64` of word `p / 64`, around the ring. -/
def bit (E : Fin W → UInt64) (p : Nat) : Bool := (E (slot (p / 64))).toNat.testBit (p % 64)

theorem slot_add_mul (a c : Nat) : (slot (a + W * c) : Fin W) = slot a := by
  simp [slot, Nat.add_mul_mod_self_left]

/-- The ring repeats every `64 * W` positions. -/
theorem bit_add_period (E : Fin W → UInt64) (p : Nat) : bit E (p + 64 * W) = bit E p := by
  have hdiv : (p + 64 * W) / 64 = p / 64 + W * 1 := by omega
  have hmod : (p + 64 * W) % 64 = p % 64 := by omega
  rw [bit, hdiv, hmod, slot_add_mul, bit]

theorem bit_add_mul_period (E : Fin W → UInt64) (p c : Nat) :
    bit E (p + 64 * W * c) = bit E p := by
  induction c with
  | zero => simp
  | succ c ih => rw [Nat.mul_succ, ← Nat.add_assoc, bit_add_period, ih]

/-- A position may be read reduced modulo the ring. -/
theorem bit_mod_add (E : Fin W → UInt64) (p i : Nat) :
    bit E (p % (64 * W) + i) = bit E (p + i) := by
  conv_rhs => rw [← Nat.mod_add_div p (64 * W)]
  rw [show p % (64 * W) + 64 * W * (p / (64 * W)) + i =
    p % (64 * W) + i + 64 * W * (p / (64 * W)) by ring, bit_add_mul_period]

/-- The bits from an aligned position `64 * a` on, word by word. -/
theorem bit_word (E : Fin W → UInt64) (a e : Nat) :
    bit E (64 * a + e) = (E (slot (a + e / 64))).toNat.testBit (e % 64) := by
  have hdiv : (64 * a + e) / 64 = a + e / 64 := by omega
  have hmod : (64 * a + e) % 64 = e % 64 := by omega
  rw [bit, hdiv, hmod]

/-- Two words less than `W` apart from one base fall in the same slot only when they are the
    same word. -/
theorem slot_add_eq_iff {a k k' : Nat} (hk : k < W) (hk' : k' < W) :
    (slot (a + k) : Fin W) = slot (a + k') ↔ k = k' := by
  constructor
  · intro h
    have hmod : a + k ≡ a + k' [MOD W] := Fin.val_eq_of_eq h
    have := Nat.ModEq.add_left_cancel' a hmod
    rwa [Nat.ModEq, Nat.mod_eq_of_lt hk, Nat.mod_eq_of_lt hk'] at this
  · rintro rfl
    rfl

/-- In a ring of at least two words the next word is another slot. -/
theorem slot_succ_ne (hW : 2 ≤ W) (a : Nat) : (slot (a + 1) : Fin W) ≠ slot a := by
  intro h
  have hmod : a + 1 ≡ a + 0 [MOD W] := Fin.val_eq_of_eq h
  have h10 := Nat.ModEq.add_left_cancel' a hmod
  rw [Nat.ModEq, Nat.mod_eq_of_lt (by omega : 1 < W), Nat.zero_mod] at h10
  exact absurd h10 (by decide)

/-- Writing word `a + k` changes, among the `64 * W` positions from `64 * a` on, exactly those
    of word `k` after the base. -/
theorem bit_update (E : Fin W → UInt64) (a : Nat) {k : Nat} (hk : k < W) (x : UInt64) {e : Nat}
    (he : e < 64 * W) :
    bit (Function.update E (slot (a + k)) x) (64 * a + e) =
      if e / 64 = k then x.toNat.testBit (e % 64) else bit E (64 * a + e) := by
  rw [bit_word, bit_word]
  have he' : e / 64 < W := by omega
  by_cases hek : e / 64 = k
  · rw [if_pos hek, hek, Function.update_self]
  · rw [if_neg hek, Function.update_of_ne (mt (slot_add_eq_iff he' hk).mp hek)]

/-- Two masked reads of one bit agree when their conditions agree wherever the bit is set. -/
theorem decide_and_congr {P Q : Prop} [Decidable P] [Decidable Q] {b : Bool}
    (h : b = true → (P ↔ Q)) : (decide P && b) = (decide Q && b) := by
  cases b
  · simp
  · simp [decide_eq_decide.mpr (h rfl)]

end BitRing
