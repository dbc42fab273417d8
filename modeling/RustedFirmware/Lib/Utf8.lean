import Mathlib

set_option autoImplicit false

/-! UTF-8 byte sequences, and what Rust's `core::str::from_utf8` promises about them.

    Valid UTF-8 is the encoding of a list of Unicode scalar values, character by character, with
    the encoder of Lean's core (`String.utf8EncodeChar`); this is the notion behind Lean's own
    `String`, and core decides it with `ByteArray.validateUTF8`. A character boundary of valid
    UTF-8 is its end or a byte that can start a character (`UInt8.IsUTF8FirstByte`): every other
    byte continues the character before it.

    A suffix of valid UTF-8 that is cut inside a character starts with the rest of that character;
    dropping those bytes leaves the suffix from the next boundary, which is valid again
    (`dropWhile_drop`). `from_utf8` is outside this library: `FromUtf8Spec` states what its
    documentation says of the inputs such a repair loop meets. -/

namespace Utf8

/-- Valid UTF-8: the encoding of some list of Unicode scalar values. -/
def Valid (bytes : List UInt8) : Prop := ∃ cs : List Char, bytes = cs.flatMap String.utf8EncodeChar

/-- A byte that cannot start a character, as `List.dropWhile` tests it. -/
def notFirst (b : UInt8) : Bool := !decide b.IsUTF8FirstByte

/-- The position `k` of `bytes` is a character boundary: the end, or a byte that starts a
    character. -/
def IsCharBoundary (bytes : List UInt8) (k : Nat) : Prop :=
  k = bytes.length ∨ ∃ b, bytes[k]? = some b ∧ b.IsUTF8FirstByte

theorem valid_nil : Valid [] := ⟨[], rfl⟩

theorem Valid.append {a b : List UInt8} (ha : Valid a) (hb : Valid b) : Valid (a ++ b) := by
  obtain ⟨cs, rfl⟩ := ha
  obtain ⟨ds, rfl⟩ := hb
  exact ⟨cs ++ ds, by simp⟩

/-- Core's decision procedure decides `Valid`. -/
theorem valid_iff_validateUTF8 {bytes : List UInt8} :
    Valid bytes ↔ bytes.toByteArray.validateUTF8 = true := by
  rw [ByteArray.validateUTF8_eq_true_iff]
  constructor
  · rintro ⟨cs, rfl⟩
    exact ⟨cs, rfl⟩
  · rintro ⟨cs, hcs⟩
    exact ⟨cs, List.toByteArray_inj.mp hcs⟩

instance : DecidablePred Valid := fun _ => decidable_of_iff _ valid_iff_validateUTF8.symm

/-- `str::as_bytes`: the UTF-8 encoding of the string's characters. -/
def strBytes (s : String) : List UInt8 := s.toList.flatMap String.utf8EncodeChar

theorem valid_strBytes (s : String) : Valid (strBytes s) := ⟨s.toList, rfl⟩

/-! ### The bytes of one character -/

theorem isUTF8FirstByte_head (c : Char) :
    ∃ b rest, String.utf8EncodeChar c = b :: rest ∧ b.IsUTF8FirstByte ∧
      ∀ x ∈ rest, notFirst x = true := by
  obtain ⟨b, rest, hc⟩ := List.exists_cons_of_ne_nil (String.utf8EncodeChar_ne_nil (c := c))
  refine ⟨b, rest, hc, ?_, ?_⟩
  · have h := (@UInt8.isUTF8FirstByte_getElem_utf8EncodeChar c 0 (by rw [hc]; simp)).mpr rfl
    simpa [hc] using h
  · intro x hx
    obtain ⟨i, hi, rfl⟩ := List.getElem_of_mem hx
    have h := (@UInt8.isUTF8FirstByte_getElem_utf8EncodeChar c (i + 1)
      (by rw [hc]; simpa using hi)).not.mpr (by omega)
    simpa [notFirst, hc] using h

/-- Valid UTF-8 is empty or starts with a byte that starts a character. -/
theorem dropWhile_of_valid {bytes : List UInt8} (hv : Valid bytes) :
    bytes.dropWhile notFirst = bytes := by
  obtain ⟨cs, rfl⟩ := hv
  cases cs with
  | nil => rfl
  | cons c cs =>
    obtain ⟨b, rest, hc, hb, -⟩ := isUTF8FirstByte_head c
    simp [hc, notFirst, hb]

theorem isCharBoundary_zero_of_valid {bytes : List UInt8} (hv : Valid bytes) :
    IsCharBoundary bytes 0 := by
  obtain ⟨cs, rfl⟩ := hv
  cases cs with
  | nil => exact .inl rfl
  | cons c cs =>
    obtain ⟨b, rest, hc, hb, -⟩ := isUTF8FirstByte_head c
    exact .inr ⟨b, by simp [hc], hb⟩

/-- A boundary of the part after a prefix is a boundary of the whole, shifted. -/
theorem isCharBoundary_append_iff (pre bytes : List UInt8) (k : Nat) :
    IsCharBoundary (pre ++ bytes) (pre.length + k) ↔ IsCharBoundary bytes k := by
  simp [IsCharBoundary, List.getElem?_append_right]

/-- Cut valid UTF-8 at `m` and drop the bytes that cannot start a character: what is left is
    the suffix from the first character boundary at `m` or after, and it is valid. -/
theorem dropWhile_drop {bytes : List UInt8} (hv : Valid bytes) {m : Nat}
    (hm : m ≤ bytes.length) :
    ∃ k, m ≤ k ∧ (bytes.drop m).dropWhile notFirst = bytes.drop k ∧ IsCharBoundary bytes k ∧
      (∀ j, m ≤ j → j < k → ¬IsCharBoundary bytes j) ∧ Valid (bytes.drop k) := by
  obtain ⟨cs, rfl⟩ := hv
  induction cs generalizing m with
  | nil =>
    obtain rfl : m = 0 := by simpa using hm
    exact ⟨0, le_rfl, rfl, .inl rfl, fun j h h' => absurd h' (by omega), valid_nil⟩
  | cons c cs ih =>
    obtain ⟨b, rest, hc, hb, hrest⟩ := isUTF8FirstByte_head c
    have hvalid : Valid (cs.flatMap String.utf8EncodeChar) := ⟨cs, rfl⟩
    have hbytes : (c :: cs).flatMap String.utf8EncodeChar =
        (b :: rest) ++ cs.flatMap String.utf8EncodeChar := by
      simp [hc]
    rw [hbytes] at hm ⊢
    generalize cs.flatMap String.utf8EncodeChar = tail at hm hvalid ih ⊢
    have hlen : (b :: rest).length = rest.length + 1 := rfl
    rw [List.length_append, hlen] at hm
    rcases Nat.lt_or_ge m (rest.length + 1) with hlt | hge
    · rcases Nat.eq_zero_or_pos m with rfl | hpos
      -- cut at the character's first byte: nothing is dropped
      · refine ⟨0, le_rfl, ?_, .inr ⟨b, rfl, hb⟩, fun j h h' => absurd h' (by omega), ?_⟩
        · simp [notFirst, hb]
        · have hchar : Valid (b :: rest) := ⟨[c], by simp [hc]⟩
          simpa using hchar.append hvalid
      -- cut inside the character: its last bytes go, up to the next character
      · refine ⟨rest.length + 1, hlt.le, ?_, ?_, ?_, ?_⟩
        · rw [List.drop_append_of_le_length (by omega), ← hlen, List.drop_left,
            List.dropWhile_append_of_pos, dropWhile_of_valid hvalid]
          intro x hx
          obtain ⟨m', rfl⟩ : ∃ m', m = m' + 1 := ⟨m - 1, by omega⟩
          exact hrest x (List.mem_of_mem_drop hx)
        · have h := (isCharBoundary_append_iff (b :: rest) tail 0).mpr
            (isCharBoundary_zero_of_valid hvalid)
          simpa using h
        · intro j hj hjk hbound
          rcases hbound with hend | ⟨x, hx, hfirst⟩
          · simp at hend
            omega
          · obtain ⟨j', rfl⟩ : ∃ j', j = j' + 1 := ⟨j - 1, by omega⟩
            have hmem : x ∈ rest := by
              rw [List.cons_append, List.getElem?_cons_succ,
                List.getElem?_append_left (by omega)] at hx
              exact List.mem_of_getElem? hx
            simpa [notFirst, hfirst] using hrest x hmem
        · rw [← hlen, List.drop_left]
          exact hvalid
    -- cut past the character: the rest of the list decides
    · obtain ⟨k, hmk, hdrop, hbound, hbetween, hvk⟩ := @ih (m - (rest.length + 1)) (by omega)
      have hshift : ∀ i, ((b :: rest) ++ tail).drop ((b :: rest).length + i) = tail.drop i := by
        intro i
        rw [List.drop_append, List.drop_eq_nil_of_le (by omega), List.nil_append]
        congr 1
        omega
      refine ⟨rest.length + 1 + k, by omega, ?_, ?_, ?_, ?_⟩
      · rw [← hlen, hshift, ← hdrop, ← hshift]
        congr 2
        omega
      · rw [← hlen]
        exact (isCharBoundary_append_iff (b :: rest) tail k).mpr hbound
      · intro j hj hjk hj'
        obtain ⟨i, rfl⟩ : ∃ i, j = (b :: rest).length + i := ⟨j - (rest.length + 1), by simp; omega⟩
        exact hbetween i (by simp at hj; omega) (by simp at hjk; omega)
          ((isCharBoundary_append_iff (b :: rest) tail i).mp hj')
      · rw [← hlen, hshift]
        exact hvk

/-! ### `core::str::from_utf8` -/

/-- `core::str::Utf8Error`: `valid_up_to()` and `error_len()`. -/
structure Utf8Error where
  validUpTo : Nat
  errorLen : Option Nat
  deriving DecidableEq, Repr

/-- What the documentation of `str::from_utf8` and `Utf8Error::error_len` says of a decoder that
    returns the bytes of the `&str`: valid input comes back as it is, and input whose first byte
    cannot start a character fails at index 0 with `error_len() == Some(1)`, that byte being the
    whole invalid sequence. -/
structure FromUtf8Spec (fromUtf8 : List UInt8 → Except Utf8Error (List UInt8)) : Prop where
  ok_of_valid : ∀ v, Valid v → fromUtf8 v = .ok v
  error_of_notFirst : ∀ b v, notFirst b = true → fromUtf8 (b :: v) = .error ⟨0, some 1⟩

/-- A decoder with the documented behaviour on valid input and on a leading byte that cannot
    start a character; it answers any other invalid input with `error_len() == None`. -/
def firstErrorDecoder (v : List UInt8) : Except Utf8Error (List UInt8) :=
  if Valid v then .ok v
  else
    match v with
    | [] => .ok []
    | b :: _ => if notFirst b then .error ⟨0, some 1⟩ else .error ⟨0, none⟩

theorem fromUtf8Spec_firstErrorDecoder : FromUtf8Spec firstErrorDecoder where
  ok_of_valid v hv := by simp [firstErrorDecoder, hv]
  error_of_notFirst b v hb := by
    -- valid UTF-8 starts with a byte that starts a character
    have hinvalid : ¬Valid (b :: v) := by
      intro hv
      have h := dropWhile_of_valid hv
      simp [hb] at h
      have := congrArg List.length h
      simp at this
      have := List.length_dropWhile_le notFirst v
      omega
    simp [firstErrorDecoder, hinvalid, hb]

end Utf8
