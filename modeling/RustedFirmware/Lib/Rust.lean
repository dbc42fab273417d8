import Mathlib

set_option autoImplicit false

/-! Rust runtime primitives for shallow embeddings of `no_std` firmware code.

    A Rust function that can abort is modelled as returning `Except Panic α`: `Panic` names the
    kind of abort (an out-of-bounds index, an `unwrap` of `None`, a failed `assert!`, an explicit
    `panic!`). Fixed-width machine words are `UInt64`; their bitwise operators are reasoned about
    through `Nat.testBit` of `toNat`, one lemma per operator, so that a word identity is proved
    bit by bit with `ext_testBit` and closed by `simp` and `omega`. -/

namespace Rust

/-- Why a Rust function aborts instead of returning. The message is the source's literal text,
    where the source gives one. -/
inductive Panic where
  | indexOutOfBounds
  | unwrapFailed
  | assertFailed (msg : String)
  | explicit (msg : String)
  deriving DecidableEq, Repr

/-! `Except` is the panic monad; these let `simp` run a `do` block along one path. -/

@[simp] theorem ok_bind {ε α β : Type} (a : α) (f : α → Except ε β) :
    (Except.ok a >>= f) = f a := rfl

@[simp] theorem error_bind {ε α β : Type} (e : ε) (f : α → Except ε β) :
    (Except.error e >>= f) = .error e := rfl

@[simp] theorem pure_eq_ok {ε α : Type} (a : α) : (pure a : Except ε α) = .ok a := rfl

/-- Inversion of a `do` block that returned: its first call returned, and the rest from there. -/
theorem bind_eq_ok {ε α β : Type} {x : Except ε α} {f : α → Except ε β} {b : β} :
    (x >>= f) = .ok b ↔ ∃ a, x = .ok a ∧ f a = .ok b := by
  cases x <;> simp

/-- Inversion of a mapped call that returned. -/
theorem map_eq_ok {ε α β : Type} {x : Except ε α} {f : α → β} {b : β} :
    (f <$> x) = .ok b ↔ ∃ a, x = .ok a ∧ f a = b := by
  cases x <;> simp [Functor.map, Except.map]

/-- Slice indexing `xs[i]`: the element, or a panic past the end. -/
def index {α : Type} (xs : List α) (i : Nat) : Except Panic α :=
  match xs[i]? with
  | some a => .ok a
  | none => .error .indexOutOfBounds

@[simp] theorem index_of_lt {α : Type} (xs : List α) (i : Nat) (h : i < xs.length) :
    index xs i = .ok xs[i] := by
  simp [index, h]

theorem index_of_le {α : Type} (xs : List α) (i : Nat) (h : xs.length ≤ i) :
    index xs i = .error .indexOutOfBounds := by
  simp [index, h]

/-! `usize` arithmetic on the 64-bit targets: the checked operations return `None` where the
    machine operation would wrap. The build profiles set `overflow-checks`, so a plain `+` on
    `usize` or `u64` panics where it would wrap, and so does `Iterator::sum`. -/

namespace Usize

/-- `usize::checked_add`. -/
def checkedAdd (a b : Nat) : Option Nat := if a + b < 2 ^ 64 then some (a + b) else none

/-- `usize::checked_sub`. -/
def checkedSub (a b : Nat) : Option Nat := if b ≤ a then some (a - b) else none

/-- `a + b` on `usize` or `u64` with overflow checks. -/
def add (a b : Nat) : Except Panic Nat :=
  match checkedAdd a b with
  | some c => pure c
  | none => throw (.explicit "attempt to add with overflow")

/-- `a - b` on `usize` with overflow checks. -/
def sub (a b : Nat) : Except Panic Nat :=
  match checkedSub a b with
  | some c => pure c
  | none => throw (.explicit "attempt to subtract with overflow")

/-- `a % b` on `usize`, which panics for a zero divisor. -/
def rem (a b : Nat) : Except Panic Nat :=
  if b = 0 then throw (.explicit "attempt to calculate the remainder with a divisor of zero")
  else pure (a % b)

@[simp] theorem add_of_lt {a b : Nat} (h : a + b < 2 ^ 64) : add a b = .ok (a + b) := by
  rw [add, checkedAdd, if_pos h]
  rfl

@[simp] theorem sub_of_le {a b : Nat} (h : b ≤ a) : sub a b = .ok (a - b) := by
  rw [sub, checkedSub, if_pos h]
  rfl

@[simp] theorem rem_of_pos {a b : Nat} (h : 0 < b) : rem a b = .ok (a % b) := by
  rw [rem, if_neg (Nat.pos_iff_ne_zero.mp h)]
  rfl

theorem add_eq_ok {a b c : Nat} (h : add a b = .ok c) : c = a + b ∧ a + b < 2 ^ 64 := by
  by_cases hlt : a + b < 2 ^ 64
  · rw [add_of_lt hlt] at h
    exact ⟨(Except.ok.inj h).symm, hlt⟩
  · rw [add, checkedAdd, if_neg hlt] at h
    cases h

theorem sub_eq_ok {a b c : Nat} (h : sub a b = .ok c) : c = a - b ∧ b ≤ a := by
  by_cases hle : b ≤ a
  · rw [sub_of_le hle] at h
    exact ⟨(Except.ok.inj h).symm, hle⟩
  · rw [sub, checkedSub, if_neg hle] at h
    cases h

theorem rem_eq_ok {a b c : Nat} (h : rem a b = .ok c) : c = a % b ∧ 0 < b := by
  by_cases hb : 0 < b
  · rw [rem_of_pos hb] at h
    exact ⟨(Except.ok.inj h).symm, hb⟩
  · rw [rem, if_pos (by omega)] at h
    cases h

/-- `Iterator::sum` of 64-bit words: the additions from 0, in order. -/
def sum (xs : List Nat) : Except Panic Nat := xs.foldlM add 0

theorem foldlM_add_eq_ok {xs : List Nat} {a s : Nat} (ha : a < 2 ^ 64) :
    xs.foldlM add a = .ok s ↔ s = a + xs.sum ∧ a + xs.sum < 2 ^ 64 := by
  induction xs generalizing a with
  | nil =>
    simp only [List.foldlM_nil, List.sum_nil, Nat.add_zero]
    exact ⟨fun h => ⟨(Except.ok.inj h).symm, ha⟩, fun ⟨h, _⟩ => h ▸ rfl⟩
  | cons x xs ih =>
    by_cases hx : a + x < 2 ^ 64
    · simp only [List.foldlM_cons, add_of_lt hx, ok_bind, ih hx, List.sum_cons, Nat.add_assoc]
    · have hstep : add a x = .error (.explicit "attempt to add with overflow") := by
        rw [add, checkedAdd, if_neg hx]; rfl
      simp only [List.foldlM_cons, hstep, error_bind, List.sum_cons, reduceCtorEq, false_iff,
        not_and]
      intro _
      omega

/-- The sum panics exactly when the total passes `u64::MAX`: the partial sums only grow. -/
theorem sum_eq_ok {xs : List Nat} {s : Nat} :
    sum xs = .ok s ↔ s = xs.sum ∧ xs.sum < 2 ^ 64 := by
  have h := @foldlM_add_eq_ok xs 0 s (Nat.two_pow_pos 64)
  rwa [Nat.zero_add] at h

end Usize

/-- `Iterator::rposition`: the index of the last element that satisfies `p`. -/
def rposition {α : Type} (p : α → Bool) : List α → Option Nat
  | [] => none
  | a :: l =>
    match rposition p l with
    | some i => some (i + 1)
    | none => if p a then some 0 else none

theorem rposition_eq_none_iff {α : Type} {p : α → Bool} {l : List α} :
    rposition p l = none ↔ ∀ a ∈ l, p a = false := by
  induction l with
  | nil => simp [rposition]
  | cons a l ih =>
    simp only [rposition, List.mem_cons, forall_eq_or_imp]
    cases h : rposition p l with
    | some i =>
      refine ⟨fun hc => by simp at hc, fun ⟨_, hall⟩ => ?_⟩
      rw [ih.mpr hall] at h
      cases h
    | none => cases hp : p a <;> simp_all

/-- The element `rposition` finds satisfies `p`, and none after it does. -/
theorem rposition_eq_some {α : Type} {p : α → Bool} {l : List α} {i : Nat}
    (h : rposition p l = some i) :
    ∃ hi : i < l.length, p (l.get ⟨i, hi⟩) = true ∧
      ∀ j (hj : j < l.length), i < j → p (l.get ⟨j, hj⟩) = false := by
  induction l generalizing i with
  | nil => simp [rposition] at h
  | cons a l ih =>
    simp only [rposition] at h
    cases hr : rposition p l with
    | some k =>
      rw [hr] at h
      obtain rfl := (Option.some.inj h).symm
      obtain ⟨hk, hpk, hafter⟩ := ih hr
      refine ⟨by simp; omega, by simpa using hpk, ?_⟩
      intro j hj hij
      obtain ⟨j, rfl⟩ : ∃ j', j = j' + 1 := ⟨j - 1, by omega⟩
      simpa using hafter j (by simpa using hj) (by omega)
    | none =>
      rw [hr] at h
      have hnone := rposition_eq_none_iff.mp hr
      by_cases hp : p a = true
      · simp only [hp, if_true, Option.some.injEq] at h
        subst h
        refine ⟨by simp, by simpa using hp, ?_⟩
        intro j hj hij
        obtain ⟨j, rfl⟩ : ∃ j', j = j' + 1 := ⟨j - 1, by omega⟩
        exact hnone _ (List.getElem_mem _)
      · simp [hp] at h

/-! ### Bits of 64-bit words -/

namespace Word

theorem testBit_ge (x : UInt64) (i : Nat) (h : 64 ≤ i) : x.toNat.testBit i = false := by
  apply Nat.testBit_eq_false_of_lt
  exact lt_of_lt_of_le x.toNat_lt (Nat.pow_le_pow_right (by decide) h)

/-- Two words are equal when their low 64 bits are. -/
theorem ext_testBit {x y : UInt64} (h : ∀ i < 64, x.toNat.testBit i = y.toNat.testBit i) :
    x = y := by
  apply UInt64.toNat_inj.mp
  apply Nat.eq_of_testBit_eq
  intro i
  by_cases hi : i < 64
  · exact h i hi
  · rw [testBit_ge x i (by omega), testBit_ge y i (by omega)]

@[simp] theorem testBit_and (x y : UInt64) (i : Nat) :
    (x &&& y).toNat.testBit i = (x.toNat.testBit i && y.toNat.testBit i) := by
  rw [UInt64.toNat_and, Nat.testBit_and]

@[simp] theorem testBit_or (x y : UInt64) (i : Nat) :
    (x ||| y).toNat.testBit i = (x.toNat.testBit i || y.toNat.testBit i) := by
  rw [UInt64.toNat_or, Nat.testBit_or]

@[simp] theorem testBit_not (x : UInt64) (i : Nat) :
    (~~~x).toNat.testBit i = (decide (i < 64) && !x.toNat.testBit i) := by
  rw [← UInt64.toNat_toBitVec, UInt64.toBitVec_not, BitVec.testBit_toNat, BitVec.getLsbD_not,
    ← BitVec.testBit_toNat, UInt64.toNat_toBitVec]

/-- A left shift by less than the width moves bit `i - k` to `i` and drops what leaves the
    word. -/
theorem testBit_shiftLeft (x : UInt64) {k : Nat} (hk : k < 64) (i : Nat) :
    (x <<< k.toUInt64).toNat.testBit i =
      (decide (k ≤ i) && decide (i < 64) && x.toNat.testBit (i - k)) := by
  have hk' : k.toUInt64.toNat % 64 = k := by simp; omega
  rw [UInt64.toNat_shiftLeft, hk', Nat.testBit_mod_two_pow, Nat.testBit_shiftLeft]
  cases decide (k ≤ i) <;> cases decide (i < 64) <;> simp [Bool.and_comm]

theorem testBit_shiftRight (x : UInt64) {k : Nat} (hk : k < 64) (i : Nat) :
    (x >>> k.toUInt64).toNat.testBit i = x.toNat.testBit (k + i) := by
  have hk' : k.toUInt64.toNat % 64 = k := by simp; omega
  rw [UInt64.toNat_shiftRight, hk', Nat.testBit_shiftRight]

/-- `u64::MAX`. -/
def max : UInt64 := 0xFFFF_FFFF_FFFF_FFFF

@[simp] theorem testBit_max (i : Nat) : max.toNat.testBit i = decide (i < 64) := by
  have h : max.toNat = 2 ^ 64 - 1 := rfl
  rw [h, Nat.testBit_two_pow_sub_one]

/-- The low-nibble mask `0xF`. -/
@[simp] theorem testBit_fifteen (i : Nat) : (15 : UInt64).toNat.testBit i = decide (i < 4) := by
  have h : (15 : UInt64).toNat = 2 ^ 4 - 1 := rfl
  rw [h, Nat.testBit_two_pow_sub_one]

/-- Read-after-write of 4-bit fields: overwriting field `k` of a word with
    `(x & !(0xF << 4k)) | ((v & 0xF) << 4k)` sets field `k` to the low nibble of `v` and leaves
    every other field `j` as it was. -/
theorem field4_update (x v : UInt64) {j k : Nat} (hj : j < 16) (hk : k < 16) :
    ((((x &&& ~~~((15 : UInt64) <<< (k * 4).toUInt64)) ||| ((v &&& 15) <<< (k * 4).toUInt64))
        >>> (j * 4).toUInt64) &&& 15) =
      if j = k then v &&& 15 else (x >>> (j * 4).toUInt64) &&& 15 := by
  apply ext_testBit
  intro i hi
  have hj4 : j * 4 < 64 := by omega
  have hk4 : k * 4 < 64 := by omega
  split_ifs with hjk
  · -- the field that was written: only the bits of `v` survive
    subst hjk
    simp only [testBit_and, testBit_or, testBit_shiftRight _ hj4, testBit_shiftLeft _ hk4,
      testBit_not, testBit_fifteen]
    by_cases h4 : i < 4
    · simp [h4, show j * 4 + i < 64 by omega]
    · simp [h4]
  · -- another field: the mask `0xF << 4k` does not reach bit `4j + i`
    simp only [testBit_and, testBit_or, testBit_shiftRight _ hj4, testBit_shiftLeft _ hk4,
      testBit_not, testBit_fifteen]
    by_cases h4 : i < 4
    · by_cases hki : k * 4 ≤ j * 4 + i
      · have hout : ¬ (j * 4 + i - k * 4 < 4) := by omega
        simp [h4, hki, hout, show j * 4 + i < 64 by omega]
      · simp [h4, hki, show j * 4 + i < 64 by omega]
    · simp [h4]

/-- A value below `2^k` shares no bit with a mask shifted to bit `k` and above. -/
theorem and_shiftLeft_eq_zero_of_lt {x : Nat} {k : Nat} (h : x < 2 ^ k) (m : Nat) :
    x &&& (m <<< k) = 0 := by
  apply Nat.eq_of_testBit_eq
  intro i
  rw [Nat.testBit_and, Nat.testBit_shiftLeft, Nat.zero_testBit]
  by_cases hi : k ≤ i
  · rw [Nat.testBit_eq_false_of_lt (lt_of_lt_of_le h (Nat.pow_le_pow_right (by decide) hi))]
    simp
  · simp [hi]

end Word

end Rust

/-! ### Postconditions of fallible code

    `Post P Q x` says that `x` returns only values satisfying `Q` and aborts only with errors
    satisfying `P`. A handler's contract is one such statement; `Post.bind` composes the
    contracts of the calls in a `do` block, so that a caller never unfolds its callees. -/

namespace Except

variable {ε α β : Type} {P P' : ε → Prop} {Q Q' : α → Prop}

/-- `x` returns only values satisfying `Q` and aborts only with errors satisfying `P`. -/
def Post (P : ε → Prop) (Q : α → Prop) : Except ε α → Prop
  | .ok a => Q a
  | .error e => P e

@[simp] theorem post_ok (a : α) : Post P Q (.ok a) ↔ Q a := Iff.rfl

@[simp] theorem post_error (e : ε) : Post P Q (.error e : Except ε α) ↔ P e := Iff.rfl

@[simp] theorem post_pure (a : α) : Post P Q (pure a) ↔ Q a := Iff.rfl

@[simp] theorem post_throw (e : ε) : Post P Q (throw e : Except ε α) ↔ P e := Iff.rfl

/-- The rule for sequencing: `x >>= f` meets a contract when every value of `x` leads `f` to
    it, and `x` aborts only as the contract allows. -/
theorem Post.bind {Q : β → Prop} {x : Except ε α} {f : α → Except ε β}
    (hx : Post P (fun a => Post P Q (f a)) x) : Post P Q (x >>= f) := by
  cases x with
  | error e => exact hx
  | ok a => exact hx

theorem Post.mono {x : Except ε α} (hP : ∀ e, P e → P' e) (hQ : ∀ a, Q a → Q' a)
    (h : Post P Q x) : Post P' Q' x := by
  cases x with
  | error e => exact hP e h
  | ok a => exact hQ a h

theorem Post.of_ok {x : Except ε α} {a : α} (h : Post P Q x) (hx : x = .ok a) : Q a := by
  subst hx
  exact h

theorem Post.of_error {x : Except ε α} {e : ε} (h : Post P Q x) (hx : x = .error e) : P e := by
  subst hx
  exact h

/-! ### Two computations that agree

    `Agree R x y` says that `x` and `y` both return, with values related by `R`, or both abort.
    It relates two functions that walk the same recursion and compute different things (one
    counts what the other builds); `Agree.bind` steps through both `do` blocks at once. -/

section Agree

variable {ε' γ δ : Type}

/-- `x` and `y` both return, with values related by `R`, or both abort. -/
def Agree (R : α → β → Prop) : Except ε α → Except ε' β → Prop
  | .ok a, .ok b => R a b
  | .error _, .error _ => True
  | _, _ => False

@[simp] theorem agree_ok {R : α → β → Prop} (a : α) (b : β) :
    Agree R (.ok a : Except ε α) (.ok b : Except ε' β) ↔ R a b := Iff.rfl

@[simp] theorem agree_error {R : α → β → Prop} (e : ε) (e' : ε') :
    Agree R (.error e : Except ε α) (.error e' : Except ε' β) := trivial

theorem Agree.bind {R : α → β → Prop} {S : γ → δ → Prop} {x : Except ε α} {y : Except ε' β}
    {f : α → Except ε γ} {g : β → Except ε' δ} (hx : Agree R x y)
    (hf : ∀ a b, R a b → Agree S (f a) (g b)) : Agree S (x >>= f) (y >>= g) := by
  cases x with
  | error e =>
    cases y with
    | error e' => trivial
    | ok b => exact hx.elim
  | ok a =>
    cases y with
    | error e' => exact hx.elim
    | ok b => exact hf a b hx

/-- A value on the right is matched by one on the left. -/
theorem Agree.of_ok_right {R : α → β → Prop} {x : Except ε α} {y : Except ε' β} {b : β}
    (h : Agree R x y) (hy : y = .ok b) : ∃ a, x = .ok a ∧ R a b := by
  subst hy
  cases x with
  | error e => exact h.elim
  | ok a => exact ⟨a, rfl, h⟩

/-- A value on the left is matched by one on the right. -/
theorem Agree.of_ok_left {R : α → β → Prop} {x : Except ε α} {y : Except ε' β} {a : α}
    (h : Agree R x y) (hx : x = .ok a) : ∃ b, y = .ok b ∧ R a b := by
  subst hx
  cases y with
  | error e => exact h.elim
  | ok b => exact ⟨b, rfl, h⟩

end Agree

end Except
