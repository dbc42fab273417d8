import Mathlib

set_option autoImplicit false

/-! Loops over lists in the `Except` monad, and folds that take a minimum.

    A monadic fold whose steps all return is the pure fold, and one that returned keeps what each
    returning step keeps. A fold over the indices `s..s + n` keeps an invariant indexed by the
    number of steps done when each step does. A loop over them whose body can fail stops at the
    first failing index: the loop returns when every index passes, and fails with the error of
    the first index that does not pass. A fold that takes the minimum of its accumulator and of
    what it reads ends at the least of its start and of the values read, and one whose reads can
    fail ends, when it returns, at most at each value it read. A walk over distinct indices that
    writes one entry per step leaves every entry it does not reach as it was. -/

namespace Loop

variable {α β ε : Type}

/-- A monadic fold whose steps cannot fail is the pure fold. -/
theorem foldlM_eq_ok_foldl {f : β → α → Except ε β} {g : β → α → β} :
    ∀ {l : List α}, (∀ b, ∀ a ∈ l, f b a = .ok (g b a)) → ∀ b, l.foldlM f b = .ok (l.foldl g b)
  | [], _, _ => rfl
  | a :: l, h, b => by
    rw [List.foldlM_cons, h b a List.mem_cons_self, List.foldl_cons]
    exact foldlM_eq_ok_foldl (fun b' a' ha' => h b' a' (List.mem_cons_of_mem a ha')) (g b a)

/-- Loops whose bodies agree on the list do the same. -/
theorem forM_congr {m : Type → Type} [Monad m] {f g : α → m PUnit} :
    ∀ {l : List α}, (∀ a ∈ l, f a = g a) → l.forM f = l.forM g
  | [], _ => rfl
  | a :: l, h => by
    rw [List.forM_eq_forM, List.forM_cons, List.forM_cons, h a List.mem_cons_self,
      ← List.forM_eq_forM, forM_congr fun b hb => h b (List.mem_cons_of_mem a hb)]

/-- A monadic fold that returned keeps an invariant that each returning step keeps. -/
theorem foldlM_inv {f : β → α → Except ε β} (I : β → Prop)
    (hstep : ∀ b a b', f b a = .ok b' → I b → I b') :
    ∀ {l : List α} {b b' : β}, l.foldlM f b = .ok b' → I b → I b'
  | [], _, _, h, hb => by
    cases h
    exact hb
  | a :: l, b, _, h, hb => by
    rw [List.foldlM_cons] at h
    cases hf : f b a with
    | error e =>
      rw [hf] at h
      cases h
    | ok b₁ =>
      rw [hf] at h
      exact foldlM_inv I hstep h (hstep b a b₁ hf hb)

section RangeInvariant

/-- An invariant indexed by the number of steps done holds after a fold over `s..s + n`. -/
theorem foldl_range'_inv {f : β → Nat → β} (I : Nat → β → Prop) {s : Nat} :
    ∀ {n : Nat} {b : β}, (∀ i < n, ∀ b, I i b → I (i + 1) (f b (s + i))) → I 0 b →
      I n ((List.range' s n).foldl f b)
  | 0, _, _, h0 => h0
  | n + 1, b, hstep, h0 => by
    rw [List.range'_concat, List.foldl_append, Nat.one_mul]
    exact hstep n (Nat.lt_succ_self n) _
      (foldl_range'_inv (n := n) I (fun i hi => hstep i (by omega)) h0)

/-- A monadic fold over `s..s + n` whose steps keep an indexed invariant and return returns,
    with the invariant. -/
theorem foldlM_range'_inv {f : β → Nat → Except ε β} (I : Nat → β → Prop) {s : Nat} :
    ∀ {n : Nat} {b : β}, (∀ i < n, ∀ b, I i b → ∃ b', f b (s + i) = .ok b' ∧ I (i + 1) b') →
      I 0 b → ∃ b', (List.range' s n).foldlM f b = .ok b' ∧ I n b'
  | 0, b, _, h0 => ⟨b, rfl, h0⟩
  | n + 1, b, hstep, h0 => by
    obtain ⟨b₁, hfold, hb₁⟩ := foldlM_range'_inv (n := n) I (fun i hi => hstep i (by omega)) h0
    obtain ⟨b₂, hlast, hb₂⟩ := hstep n (Nat.lt_succ_self n) b₁ hb₁
    refine ⟨b₂, ?_, hb₂⟩
    rw [List.range'_concat, List.foldlM_append, hfold, Nat.one_mul]
    simp only [bind, Except.bind, List.foldlM_cons, List.foldlM_nil, hlast]
    rfl

end RangeInvariant

section ForRange

variable {f : Nat → Except ε PUnit}

/-- A loop over `s..s + n` returns when the body passes at every index. -/
theorem forM_range'_eq_ok : ∀ {s n : Nat} {u : PUnit},
    (List.range' s n).forM f = .ok u ↔ ∀ i < n, f (s + i) = .ok ⟨⟩
  | s, 0, _ => by simp [pure, Except.pure]
  | s, n + 1, u => by
    rw [List.range'_succ, List.forM_eq_forM, List.forM_cons]
    cases hfirst : f s with
    | error e =>
      constructor
      · intro h
        cases h
      · intro h
        have h0 := h 0 (Nat.zero_lt_succ n)
        rw [Nat.add_zero, hfirst] at h0
        cases h0
    | ok v =>
      show (List.range' (s + 1) n).forM f = .ok u ↔ _
      rw [forM_range'_eq_ok]
      constructor
      · intro h i hi
        cases i with
        | zero => exact hfirst
        | succ i => simpa [Nat.add_assoc, Nat.add_comm 1 i] using h i (by omega)
      · intro h i hi
        simpa [Nat.add_assoc, Nat.add_comm 1 i] using h (i + 1) (by omega)

/-- A loop over `s..s + n` fails with the error of the first index at which the body fails. -/
theorem forM_range'_eq_error {e : ε} : ∀ {s n : Nat},
    (List.range' s n).forM f = .error e ↔
      ∃ k < n, (∀ i < k, f (s + i) = .ok ⟨⟩) ∧ f (s + k) = .error e
  | s, 0 => by simp [pure, Except.pure]
  | s, n + 1 => by
    rw [List.range'_succ, List.forM_eq_forM, List.forM_cons]
    cases hfirst : f s with
    | error e' =>
      show Except.error e' = .error e ↔ _
      constructor
      · intro h
        refine ⟨0, Nat.zero_lt_succ n, fun i hi => absurd hi (Nat.not_lt_zero i), ?_⟩
        rw [Nat.add_zero, hfirst, h]
      · rintro ⟨k, -, hbefore, hk⟩
        cases k with
        | zero =>
          rw [Nat.add_zero, hfirst] at hk
          exact hk
        | succ k =>
          have h0 := hbefore 0 (Nat.succ_pos k)
          rw [Nat.add_zero, hfirst] at h0
          cases h0
    | ok v =>
      show (List.range' (s + 1) n).forM f = .error e ↔ _
      rw [forM_range'_eq_error]
      constructor
      · rintro ⟨k, hk, hbefore, hfail⟩
        refine ⟨k + 1, by omega, fun i hi => ?_,
          by simpa [Nat.add_assoc, Nat.add_comm 1 k] using hfail⟩
        cases i with
        | zero => exact hfirst
        | succ i => simpa [Nat.add_assoc, Nat.add_comm 1 i] using hbefore i (by omega)
      · rintro ⟨k, hk, hbefore, hfail⟩
        cases k with
        | zero => rw [Nat.add_zero, hfirst] at hfail; cases hfail
        | succ k =>
          refine ⟨k, by omega, fun i hi => ?_,
            by simpa [Nat.add_assoc, Nat.add_comm 1 k] using hfail⟩
          simpa [Nat.add_assoc, Nat.add_comm 1 i] using hbefore (i + 1) (by omega)

end ForRange

section Walk

/-- A walk over distinct indices that writes entry `i` and then only entries of `A`, with
    `i ∉ A`, ends with entry `i` as written and every entry off `i :: A` as it was. -/
theorem update_cons_frame {κ : Type} [DecidableEq κ] {f g : κ → β} {i : κ} {A : List κ} {x : β}
    (hiA : i ∉ A) (hframe : ∀ n, n ∉ A → g n = Function.update f i x n) :
    g i = x ∧ ∀ n, n ∉ i :: A → g n = f n := by
  refine ⟨by rw [hframe i hiA, Function.update_self], fun n hn => ?_⟩
  rw [hframe n fun h => hn (List.mem_cons_of_mem i h),
    Function.update_of_ne (by rintro rfl; exact hn List.mem_cons_self)]

end Walk

/-- A fold that takes the minimum ends at the least of its start and of the values it reads. -/
theorem foldl_min_isLeast [LinearOrder β] (g : α → β) (a : β) (l : List α) :
    IsLeast (insert a {x | ∃ j ∈ l, x = g j}) (l.foldl (fun acc j => min acc (g j)) a) := by
  have hmin : (a :: l.map g).min? = some (l.foldl (fun acc j => min acc (g j)) a) := by
    rw [List.min?_cons', List.foldl_map]
  obtain ⟨hmem, hle⟩ := List.min?_eq_some_iff.mp hmin
  refine ⟨?_, ?_⟩
  · rcases List.mem_cons.mp hmem with heq | hmap
    · exact .inl heq
    · obtain ⟨j, hj, heq⟩ := List.mem_map.mp hmap
      exact .inr ⟨j, hj, heq.symm⟩
  · rintro x (rfl | ⟨j, hj, rfl⟩)
    · exact hle _ List.mem_cons_self
    · exact hle _ (List.mem_cons_of_mem _ (List.mem_map_of_mem hj))

/-- A fold that takes the minimum of its accumulator and of what a fallible read gives ends, when
    it returns, at most at its start and at every value it read. -/
theorem foldlM_min_le [LinearOrder β] {g : α → Except ε β} : ∀ {l : List α} {a m : β},
    l.foldlM (fun acc j => do let v ← g j; pure (min acc v)) a = .ok m →
      m ≤ a ∧ ∀ j ∈ l, ∀ v, g j = .ok v → m ≤ v
  | [], _, _, h => by
    cases h
    exact ⟨le_rfl, fun j hj => absurd hj List.not_mem_nil⟩
  | j₀ :: l, a, m, h => by
    rw [List.foldlM_cons] at h
    cases hg : g j₀ with
    | error e =>
      rw [hg] at h
      cases h
    | ok v₀ =>
      rw [hg] at h
      obtain ⟨hle, hall⟩ := foldlM_min_le (a := min a v₀) h
      refine ⟨le_trans hle (min_le_left a v₀), fun j hj v hv => ?_⟩
      rcases List.mem_cons.mp hj with rfl | hj
      · rw [hg] at hv
        cases hv
        exact le_trans hle (min_le_right a v₀)
      · exact hall j hj v hv

/-- A fold continued from the least element `a` of `s` over the values `t` ends at the least
    element of both. -/
theorem IsLeast.insert_union [LinearOrder β] {s t : Set β} {a b : β} (ha : IsLeast s a)
    (hb : IsLeast (insert a t) b) : IsLeast (s ∪ t) b := by
  obtain ⟨hbmem, hble⟩ := hb
  refine ⟨?_, ?_⟩
  · rcases hbmem with rfl | hbt
    · exact .inl ha.1
    · exact .inr hbt
  · rintro x (hxs | hxt)
    · exact le_trans (hble (Set.mem_insert a t)) (ha.2 hxs)
    · exact hble (Set.mem_insert_of_mem a hxt)

end Loop
