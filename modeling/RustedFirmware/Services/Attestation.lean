import RustedFirmware.Services.Rmmd

set_option autoImplicit false

/-! Platform attestation token streaming: the `AttestGetPlatToken` arm of
    `Rmmd::try_handle_realm_smc` (`src/services/rmmd.rs`) with the FVP's
    `read_attestation_token` (`fvp-rf-a-bl31/src/main.rs`).

    The RMM reads the platform token in hunks through the shared buffer. The first call carries a
    challenge of one of the `VALID_HASH_SIZES` at the start of the buffer; the calls after it carry
    none and go on from `attestation_token_read_index`, which the arm advances by each hunk while
    bytes remain and resets to 0 after the last one. The arm holds the index's lock for the whole
    call, so a call is one step.

    Memory maps physical addresses to bytes: `get_shared_buffer_slice` reads a slice of it after
    `check_shared_buffer_range`, and the platform writes its hunk to the start of that slice. The
    token is any list of bytes; the FVP's `ATTESTATION_TOKEN` of 1518 bytes is one of them. -/

namespace RustedFirmware.Rmmd

open Rust

/-- `RMM_SHARED_BUFFER_SIZE`. -/
def rmmSharedBufferSize : Nat := 0x1000

/-- `VALID_HASH_SIZES`: the SHA-256, SHA-384 and SHA-512 digest sizes. -/
def validHashSizes : List Nat := [32, 48, 64]

/-- `MAX_HASH_SIZE`. -/
def maxHashSize : Nat := 64

/-- `check_shared_buffer_range`: `buf_pa` lies in the shared buffer, and so does the last byte
    `buf_pa + buf_size - 1`, computed with `checked_add` and `checked_sub`. The buffer starts at
    the platform's `RMM_SHARED_BUFFER_START`. -/
def checkSharedBufferRange (sharedBufferStart bufPa bufSize : Nat) :
    Except RmmCommandReturnCode Unit :=
  let contains (a : Nat) : Bool :=
    sharedBufferStart ≤ a && a < sharedBufferStart + rmmSharedBufferSize
  if !contains bufPa then throw .badAddress
  else if !((Usize.checkedAdd bufPa bufSize).bind (Usize.checkedSub · 1)).any contains then
    throw .invalidValue
  else pure ()

/-- Physical memory, byte by byte. -/
abbrev Memory := Nat → UInt8

/-- The bytes of the slice `addr..addr + len`. -/
def readSlice (mem : Memory) (addr len : Nat) : List UInt8 :=
  (List.range len).map fun k => mem (addr + k)

/-- Memory after `bytes` are stored from `addr` on. -/
def writeSlice (mem : Memory) (addr : Nat) (bytes : List UInt8) : Memory :=
  fun a => if addr ≤ a ∧ a < addr + bytes.length then bytes.getD (a - addr) 0 else mem a

/-- A store leaves every byte outside the slice it writes. -/
theorem writeSlice_of_outside (mem : Memory) {addr a : Nat} (bytes : List UInt8)
    (h : a < addr ∨ addr + bytes.length ≤ a) : writeSlice mem addr bytes a = mem a := by
  rw [writeSlice, if_neg]
  omega

/-- The FVP's `read_attestation_token` over the token `token`: the hunk from `start_index` that
    fits in `buf`, copied to the start of `buf`, with its size and the number of bytes after it. -/
def readAttestationToken (token buf _hash : List UInt8) (startIndex : Nat) :
    Except RmmCommandReturnCode (List UInt8 × Nat × Nat) :=
  if startIndex > token.length then throw .invalidValue
  else
    let hunkSize := min buf.length (token.length - startIndex)
    let endIndex := startIndex + hunkSize
    pure ((token.drop startIndex).take hunkSize ++ buf.drop hunkSize, hunkSize,
      token.length - endIndex)

/-- What the arm reads and writes: `attestation_token_read_index` and memory. -/
structure AttestState where
  readIndex : Nat
  mem : Memory

/-- `RmmAttestGetPlatTokenResponse`. -/
structure PlatTokenResponse where
  tokenHunkSize : Nat
  remainingSize : Nat
  deriving DecidableEq, Repr

/-- The `AttestGetPlatToken` arm: the state afterwards and the response, or the error code of an
    `Err` return, before which nothing is written. The two slices of `c_size` bytes and the slice
    of `buf_size` bytes panic when out of range. -/
def attestGetPlatToken (sharedBufferStart : Nat) (token : List UInt8) (st : AttestState)
    (bufPa bufSize cSize : Nat) :
    Except Panic (AttestState × Except RmmCommandReturnCode PlatTokenResponse) := do
  let idx := st.readIndex
  let isFirstChunk := idx == 0
  if (isFirstChunk && !validHashSizes.contains cSize) || (!isFirstChunk && cSize != 0) then
    return (st, .error .invalidValue)
  let len := max bufSize cSize
  match checkSharedBufferRange sharedBufferStart bufPa len with
  | .error e => return (st, .error e)
  | .ok () =>
    let sharedBuffer := readSlice st.mem bufPa len
    if cSize > maxHashSize ∨ cSize > sharedBuffer.length then throw .indexOutOfBounds
    let hash := sharedBuffer.take cSize
    if bufSize > sharedBuffer.length then throw .indexOutOfBounds
    match readAttestationToken token (sharedBuffer.take bufSize) hash idx with
    | .error e => return (st, .error e)
    | .ok (buf, size, rem) =>
      let readIndex := if rem > 0 then idx + size else 0
      return (⟨readIndex, writeSlice st.mem bufPa buf⟩, .ok ⟨size, rem⟩)

/-- A call `(buf_pa, buf_size, c_size)` of the RMM. -/
structure AttestCall where
  bufPa : Nat
  bufSize : Nat
  cSize : Nat

/-- One call that does not panic. -/
def AttestStep (sharedBufferStart : Nat) (token : List UInt8) (st : AttestState)
    (call : AttestCall) (st' : AttestState) : Prop :=
  ∃ res, attestGetPlatToken sharedBufferStart token st call.bufPa call.bufSize call.cSize =
    .ok (st', res)

/-- A sequence of calls: the state after them and, for each, the response with the hunk at the
    start of the buffer afterwards, or the error code. -/
def runCalls (sharedBufferStart : Nat) (token : List UInt8) (st : AttestState) :
    List AttestCall →
      Except Panic (AttestState × List (Except RmmCommandReturnCode (PlatTokenResponse × List UInt8)))
  | [] => pure (st, [])
  | call :: calls => do
    let (st', res) ← attestGetPlatToken sharedBufferStart token st call.bufPa call.bufSize call.cSize
    let out := res.map fun resp => (resp, readSlice st'.mem call.bufPa resp.tokenHunkSize)
    let (st'', outs) ← runCalls sharedBufferStart token st' calls
    pure (st'', out :: outs)

/-- The responses and hunks of the calls that returned. -/
def delivered (outs : List (Except RmmCommandReturnCode (PlatTokenResponse × List UInt8))) :
    List (PlatTokenResponse × List UInt8) :=
  outs.filterMap fun
    | .ok out => some out
    | .error _ => none

/-! ### The pieces of a call -/

section Pieces

variable {sharedBufferStart bufPa bufSize : Nat}

/-- A range the check accepts lies in the shared buffer, and its end does not wrap. -/
theorem checkSharedBufferRange_ok (h : checkSharedBufferRange sharedBufferStart bufPa bufSize = .ok ()) :
    sharedBufferStart ≤ bufPa ∧ bufPa + bufSize ≤ sharedBufferStart + rmmSharedBufferSize := by
  simp only [checkSharedBufferRange] at h
  by_cases hpa : (sharedBufferStart ≤ bufPa && bufPa < sharedBufferStart + rmmSharedBufferSize)
  · simp only [hpa, Bool.not_true, Bool.false_eq_true, if_false] at h
    simp only [Bool.and_eq_true, decide_eq_true_eq] at hpa
    refine ⟨hpa.1, ?_⟩
    -- the end passed the check, so `buf_pa + buf_size - 1` exists and lies in the buffer
    by_cases hend : ((Usize.checkedAdd bufPa bufSize).bind (Usize.checkedSub · 1)).any
        (fun a => sharedBufferStart ≤ a && a < sharedBufferStart + rmmSharedBufferSize)
    · simp only [Usize.checkedAdd] at hend
      split_ifs at hend with hadd
      · simp only [Option.bind_some, Usize.checkedSub] at hend
        split_ifs at hend with hsub
        · simp only [Option.any_some, Bool.and_eq_true, decide_eq_true_eq] at hend
          omega
        · simp at hend
      · simp at hend
    · simp only [hend, Bool.not_false, if_true] at h
      cases h
  · simp only [hpa, Bool.not_false, if_true] at h
    cases h

/-- A range that is not empty, lies in the shared buffer and ends below `2^64` passes the check. -/
theorem checkSharedBufferRange_of_le (hstart : sharedBufferStart ≤ bufPa) (hpos : 0 < bufSize)
    (hend : bufPa + bufSize ≤ sharedBufferStart + rmmSharedBufferSize)
    (hlt : bufPa + bufSize < 2 ^ 64) :
    checkSharedBufferRange sharedBufferStart bufPa bufSize = .ok () := by
  have hpa : (sharedBufferStart ≤ bufPa && bufPa < sharedBufferStart + rmmSharedBufferSize) =
      true := by
    simp only [Bool.and_eq_true, decide_eq_true_eq]
    omega
  have hlast : (sharedBufferStart ≤ bufPa + bufSize - 1 &&
      bufPa + bufSize - 1 < sharedBufferStart + rmmSharedBufferSize) = true := by
    simp only [Bool.and_eq_true, decide_eq_true_eq]
    omega
  simp only [checkSharedBufferRange, hpa, Bool.not_true, Bool.false_eq_true, if_false,
    Usize.checkedAdd, if_pos hlt, Option.bind_some, Usize.checkedSub,
    if_pos (show 1 ≤ bufPa + bufSize by omega), Option.any_some, hlast, Bool.not_true]
  rfl

theorem length_readSlice (mem : Memory) (addr len : Nat) : (readSlice mem addr len).length = len := by
  simp [readSlice]

/-- Reading back what was stored. -/
theorem readSlice_writeSlice (mem : Memory) (addr : Nat) (bytes : List UInt8) {n : Nat}
    (hn : n ≤ bytes.length) : readSlice (writeSlice mem addr bytes) addr n = bytes.take n := by
  apply List.ext_getElem
  · simp [length_readSlice, hn]
  · intro k hk _
    simp only [length_readSlice] at hk
    simp only [readSlice, writeSlice, List.getElem_map, List.getElem_range, List.getElem_take]
    rw [if_pos ⟨Nat.le_add_right _ _, by omega⟩, Nat.add_sub_cancel_left,
      List.getD_eq_getElem _ _ (by omega)]

/-- From a read index inside the token, the FVP's function returns the next hunk. -/
theorem readAttestationToken_of_le (token buf hash : List UInt8) {startIndex : Nat}
    (h : startIndex ≤ token.length) :
    readAttestationToken token buf hash startIndex =
      .ok ((token.drop startIndex).take (min buf.length (token.length - startIndex)) ++
          buf.drop (min buf.length (token.length - startIndex)),
        min buf.length (token.length - startIndex),
        token.length - (startIndex + min buf.length (token.length - startIndex))) := by
  simp only [readAttestationToken, if_neg (Nat.not_lt.mpr h)]
  rfl

end Pieces

/-! ### One call -/

/-- What an accepted call does: its challenge size is the one its position asks for, the slice it
    hands to the platform lies in the shared buffer, the hunk at the start of the buffer is the
    token from the read index on, and the index moves past the hunk, or back to 0 after the last
    one. -/
structure Delivers (sharedBufferStart : Nat) (token : List UInt8) (st : AttestState)
    (call : AttestCall) (resp : PlatTokenResponse) (st' : AttestState) : Prop where
  challenge : (st.readIndex = 0 → call.cSize ∈ validHashSizes) ∧
    (st.readIndex ≠ 0 → call.cSize = 0)
  inBuffer : sharedBufferStart ≤ call.bufPa ∧
    call.bufPa + max call.bufSize call.cSize ≤ sharedBufferStart + rmmSharedBufferSize
  hunkSize : resp.tokenHunkSize = min call.bufSize (token.length - st.readIndex)
  hunk : readSlice st'.mem call.bufPa resp.tokenHunkSize =
    (token.drop st.readIndex).take resp.tokenHunkSize
  remaining : resp.remainingSize = token.length - st.readIndex - resp.tokenHunkSize
  readIndex : st'.readIndex =
    if 0 < resp.remainingSize then st.readIndex + resp.tokenHunkSize else 0

/-- A call the arm accepts: its challenge size is the one its position asks for, and the slice of
    `max(buf_size, c_size)` bytes from `buf_pa` is not empty, lies in the shared buffer and ends
    below `2^64`. -/
structure Acceptable (sharedBufferStart : Nat) (st : AttestState) (call : AttestCall) : Prop where
  challenge : (st.readIndex = 0 → call.cSize ∈ validHashSizes) ∧
    (st.readIndex ≠ 0 → call.cSize = 0)
  start_le : sharedBufferStart ≤ call.bufPa
  size_pos : 0 < max call.bufSize call.cSize
  end_le : call.bufPa + max call.bufSize call.cSize ≤ sharedBufferStart + rmmSharedBufferSize
  end_lt : call.bufPa + max call.bufSize call.cSize < 2 ^ 64

/-- The challenge check of the arm fails exactly when the challenge size does not fit the
    position in the token. -/
theorem challenge_check_iff {st : AttestState} {cSize : Nat} :
    (((st.readIndex == 0) && !validHashSizes.contains cSize) ||
      (!(st.readIndex == 0) && cSize != 0)) = false ↔
      (st.readIndex = 0 → cSize ∈ validHashSizes) ∧ (st.readIndex ≠ 0 → cSize = 0) := by
  by_cases h0 : st.readIndex = 0 <;> simp [h0]

/-- A call from a read index inside the token never panics; an error leaves the state as it was,
    a response is what `Delivers` says, and an acceptable call gets a response. -/
theorem attestGetPlatToken_ok (sharedBufferStart : Nat) (token : List UInt8) (st : AttestState)
    (call : AttestCall) (hidx : st.readIndex ≤ token.length) :
    ∃ st' res, attestGetPlatToken sharedBufferStart token st call.bufPa call.bufSize call.cSize =
        .ok (st', res) ∧
      (∀ e, res = .error e → st' = st) ∧
      (∀ resp, res = .ok resp → Delivers sharedBufferStart token st call resp st') ∧
      (Acceptable sharedBufferStart st call → ∃ resp, res = .ok resp) := by
  obtain ⟨bufPa, bufSize, cSize⟩ := call
  simp only [attestGetPlatToken]
  by_cases hbad : ((st.readIndex == 0) && !validHashSizes.contains cSize) ||
      (!(st.readIndex == 0) && cSize != 0)
  · -- case: the challenge size does not fit the position in the token
    simp only [hbad, if_true]
    refine ⟨st, _, rfl, fun _ _ => rfl, fun resp h => (by cases h), fun hacc => ?_⟩
    have hfits := challenge_check_iff.mpr hacc.challenge
    rw [hbad] at hfits
    cases hfits
  have hchallenge : (st.readIndex = 0 → cSize ∈ validHashSizes) ∧
      (st.readIndex ≠ 0 → cSize = 0) := by
    simp only [Bool.or_eq_true, Bool.and_eq_true, beq_iff_eq, Bool.not_eq_eq_eq_not,
      Bool.not_true, List.contains_eq_any_beq, bne_iff_ne, not_or, not_and] at hbad
    refine ⟨fun h0 => ?_, fun h0 => ?_⟩
    · have := hbad.1 h0
      simpa [List.any_eq_true] using this
    · have := hbad.2
      simp only [beq_eq_false_iff_ne, ne_eq] at this
      by_contra hc
      exact this h0 hc
  -- the challenge is at most `MAX_HASH_SIZE`
  have hc64 : cSize ≤ maxHashSize := by
    by_cases h0 : st.readIndex = 0
    · have := hchallenge.1 h0
      simp only [validHashSizes, List.mem_cons, List.not_mem_nil, or_false] at this
      simp only [maxHashSize]
      omega
    · simp [hchallenge.2 h0, maxHashSize]
  simp only [hbad, Bool.false_eq_true, if_false]
  rcases hcheck : checkSharedBufferRange sharedBufferStart bufPa (max bufSize cSize) with e | ⟨⟩
  · -- case: the slice is not in the shared buffer
    refine ⟨st, _, rfl, fun _ _ => rfl, fun resp h => (by cases h), fun hacc => ?_⟩
    rw [checkSharedBufferRange_of_le hacc.start_le hacc.size_pos hacc.end_le hacc.end_lt] at hcheck
    cases hcheck
  have hrange := checkSharedBufferRange_ok hcheck
  have hlen := length_readSlice st.mem bufPa (max bufSize cSize)
  have hnot₁ : ¬ (cSize > maxHashSize ∨ cSize > (readSlice st.mem bufPa (max bufSize cSize)).length) := by
    rw [hlen]
    omega
  have hnot₂ : ¬ bufSize > (readSlice st.mem bufPa (max bufSize cSize)).length := by
    rw [hlen]
    omega
  simp only [if_neg hnot₁, if_neg hnot₂, readAttestationToken_of_le _ _ _ hidx]
  -- the platform wrote the hunk over the first `buf_size` bytes of the slice
  have hbuf : ((readSlice st.mem bufPa (max bufSize cSize)).take bufSize).length = bufSize := by
    rw [List.length_take, hlen]
    omega
  refine ⟨_, _, rfl, fun e h => (by cases h), ?_, fun _ => ⟨_, rfl⟩⟩
  intro resp h
  cases h
  rw [hbuf]
  refine ⟨hchallenge, hrange, rfl, ?_, (Nat.sub_sub _ _ _).symm, rfl⟩
  dsimp only
  have hA : ((token.drop st.readIndex).take (min bufSize (token.length - st.readIndex))).length =
      min bufSize (token.length - st.readIndex) := by
    simp only [List.length_take, List.length_drop]
    omega
  rw [readSlice_writeSlice _ _ _ (by rw [List.length_append, hA]; exact Nat.le_add_right _ _),
    List.take_append_of_le_length (le_of_eq hA.symm), List.take_take, Nat.min_self]

/-! ### Whole runs -/

/-- The read index stays inside the token over every sequence of calls. -/
theorem readIndex_le_of_step {sharedBufferStart : Nat} {token : List UInt8}
    {st st' : AttestState} {call : AttestCall} (hidx : st.readIndex ≤ token.length)
    (h : AttestStep sharedBufferStart token st call st') : st'.readIndex ≤ token.length := by
  obtain ⟨st'', res, hcall, herr, hok, -⟩ := attestGetPlatToken_ok sharedBufferStart token st call hidx
  obtain ⟨res', h⟩ := h
  rw [hcall] at h
  obtain ⟨rfl, rfl⟩ := Prod.mk.inj (Except.ok.inj h)
  cases res with
  | error e => rw [herr e rfl]; exact hidx
  | ok resp =>
    have hd := hok resp rfl
    rw [hd.readIndex]
    split_ifs
    · rw [hd.hunkSize]
      omega
    · exact Nat.zero_le _

/-- Between two resets the hunks follow each other through the token: from a read index `i`, if
    every accepted call but the last leaves bytes to read, the hunks concatenate to a prefix of
    the token from `i`, and to all of it when the last accepted call leaves none. The induction is
    on the calls, taken from the state after the first one. -/
theorem hunks_concatenate (sharedBufferStart : Nat) (token : List UInt8) :
    ∀ (calls : List AttestCall) (st st' : AttestState) outs,
      st.readIndex ≤ token.length →
      runCalls sharedBufferStart token st calls = .ok (st', outs) →
      (∀ out ∈ (delivered outs).dropLast, 0 < out.1.remainingSize) →
      (delivered outs).flatMap Prod.snd <+: token.drop st.readIndex ∧
        ((delivered outs).getLast?.any (fun out => out.1.remainingSize == 0) →
          (delivered outs).flatMap Prod.snd = token.drop st.readIndex)
  | [], st, st', outs, _, hrun, _ => by
    simp only [runCalls, pure_eq_ok, Except.ok.injEq, Prod.mk.injEq] at hrun
    obtain ⟨-, rfl⟩ := hrun
    simp [delivered]
  | call :: calls, st, st', outs, hidx, hrun, hmid => by
    obtain ⟨st₁, res, hcall, herr, hok, -⟩ := attestGetPlatToken_ok sharedBufferStart token st call hidx
    simp only [runCalls, hcall, ok_bind] at hrun
    obtain ⟨⟨st₂, outs'⟩, hrest, hret⟩ := bind_eq_ok.mp hrun
    simp only [pure_eq_ok, Except.ok.injEq, Prod.mk.injEq] at hret
    obtain ⟨rfl, rfl⟩ := hret
    have hidx₁ : st₁.readIndex ≤ token.length := readIndex_le_of_step hidx ⟨res, hcall⟩
    cases res with
    | error e =>
      -- an error: nothing delivered, the same index
      have hst := herr e rfl
      subst hst
      simpa [delivered, Except.map] using
        hunks_concatenate sharedBufferStart token calls st₁ st₂ outs' hidx hrest
          (by simpa [delivered, Except.map] using hmid)
    | ok resp =>
      have hd := hok resp rfl
      have hsplit : token.drop st.readIndex =
          (token.drop st.readIndex).take resp.tokenHunkSize ++
            token.drop (st.readIndex + resp.tokenHunkSize) := by
        rw [← List.drop_drop, List.take_append_drop]
      simp only [delivered, Except.map, List.filterMap_cons, List.flatMap_cons] at hmid ⊢
      rw [hd.hunk]
      by_cases hrem : 0 < resp.remainingSize
      · -- bytes remain: the next calls go on from the index past the hunk
        have hnext : st₁.readIndex = st.readIndex + resp.tokenHunkSize := by
          rw [hd.readIndex, if_pos hrem]
        have hmid' : ∀ out ∈ (delivered outs').dropLast, 0 < out.1.remainingSize := by
          intro out hout
          apply hmid
          cases hds : delivered outs' with
          | nil => rw [hds] at hout; cases hout
          | cons d ds =>
            simp only [delivered] at hds
            rw [hds, List.dropLast_cons_cons]
            exact List.mem_cons_of_mem _ (by rw [← hds]; exact hout)
        obtain ⟨hpre, hfull⟩ := hunks_concatenate sharedBufferStart token calls st₁ st₂ outs'
          hidx₁ hrest hmid'
        rw [hnext] at hpre hfull
        simp only [delivered] at hpre hfull
        refine ⟨?_, fun hlast => ?_⟩
        · have h := (List.prefix_append_right_inj
            ((token.drop st.readIndex).take resp.tokenHunkSize)).mpr hpre
          rwa [← hsplit] at h
        · cases hds : delivered outs' with
          | nil =>
            simp only [delivered] at hds
            simp only [hds, List.getLast?_singleton, Option.any_some, beq_iff_eq] at hlast
            omega
          | cons d ds =>
            simp only [delivered] at hds
            rw [hds, List.getLast?_cons_cons] at hlast
            rw [hds] at hfull ⊢
            rw [hfull hlast]
            exact hsplit.symm
      · -- no bytes remain: this hunk is the rest of the token, and the last accepted call
        have hsize : resp.tokenHunkSize = token.length - st.readIndex := by
          have := hd.remaining
          rw [hd.hunkSize] at this ⊢
          omega
        have hnone : delivered outs' = [] := by
          cases hds : delivered outs' with
          | nil => rfl
          | cons d ds =>
            simp only [delivered] at hds
            rw [hds] at hmid
            exact absurd (hmid _ (by rw [List.dropLast_cons_cons]; exact List.mem_cons_self)) hrem
        simp only [delivered] at hnone
        rw [hnone, List.flatMap_nil, List.append_nil, hsize, List.take_of_length_le
          (by simp)]
        exact ⟨List.prefix_refl _, fun _ => rfl⟩

/-- The attestation token is streamed exactly once, in order. From the first call, with the read
    index at 0 and any memory, in every state a sequence of calls reaches: the index stays inside
    the token; every call returns without panicking; an error leaves the index and memory as they
    were; an accepted call had the challenge size its position asks for, handed the platform a
    slice inside the shared buffer, wrote the token's next `token_hunk_size` bytes to the start of
    the buffer, reported the bytes left after them, and moved the index past them or back to 0;
    every call with the challenge size its position asks for and a slice in the shared buffer is
    accepted; and from an index of 0 the hunks of the accepted calls up to the first that leaves
    no byte concatenate to the token without gap or overlap. -/
theorem plat_token_streams_once (sharedBufferStart : Nat) (token : List UInt8) (mem : Memory) :
    ∀ st, Transition.Reachable (AttestStep sharedBufferStart token) ⟨0, mem⟩ st →
      st.readIndex ≤ token.length ∧
      (∀ call, ∃ st' res,
        attestGetPlatToken sharedBufferStart token st call.bufPa call.bufSize call.cSize =
          .ok (st', res) ∧
        (∀ e, res = .error e → st' = st) ∧
        (∀ resp, res = .ok resp → Delivers sharedBufferStart token st call resp st') ∧
        (Acceptable sharedBufferStart st call → ∃ resp, res = .ok resp)) ∧
      (st.readIndex = 0 → ∀ calls st' outs,
        runCalls sharedBufferStart token st calls = .ok (st', outs) →
        (∀ out ∈ (delivered outs).dropLast, 0 < out.1.remainingSize) →
        (delivered outs).getLast?.any (fun out => out.1.remainingSize == 0) →
        (delivered outs).flatMap Prod.snd = token) := by
  intro st hreach
  have hidx : st.readIndex ≤ token.length := by
    refine Transition.Reachable.invariant (I := fun st => st.readIndex ≤ token.length) hreach
      (Nat.zero_le _) ?_
    intro st call st' hst hstep
    exact readIndex_le_of_step hst hstep
  refine ⟨hidx, fun call => attestGetPlatToken_ok sharedBufferStart token st call hidx, ?_⟩
  intro h0 calls st' outs hrun hmid hlast
  have := (hunks_concatenate sharedBufferStart token calls st st' outs hidx hrun hmid).2 hlast
  rwa [h0, List.drop_zero] at this

/-- On the FVP's shared buffer, a stream of a three-byte token through a two-byte buffer: after
    the first call, with a SHA-256 challenge, the index is 2 and the buffer holds the first two
    bytes; the continuation call, with no challenge, is accepted and delivers the last byte. -/
theorem plat_token_streams_once_second :
    Transition.Reachable (AttestStep 0xffbf_f000 [1, 2, 3]) ⟨0, fun _ => 0⟩
        ⟨2, writeSlice (fun _ => 0) 0xffbf_f000 [1, 2]⟩ ∧
      Acceptable 0xffbf_f000 ⟨2, writeSlice (fun _ => 0) 0xffbf_f000 [1, 2]⟩ ⟨0xffbf_f000, 2, 0⟩ ∧
      ∃ st' resp, attestGetPlatToken 0xffbf_f000 [1, 2, 3]
          ⟨2, writeSlice (fun _ => 0) 0xffbf_f000 [1, 2]⟩ 0xffbf_f000 2 0 = .ok (st', .ok resp) ∧
        Delivers 0xffbf_f000 [1, 2, 3] ⟨2, writeSlice (fun _ => 0) 0xffbf_f000 [1, 2]⟩
          ⟨0xffbf_f000, 2, 0⟩ resp st' := by
  have hreach : Transition.Reachable (AttestStep 0xffbf_f000 [1, 2, 3]) ⟨0, fun _ => 0⟩
      ⟨2, writeSlice (fun _ => 0) 0xffbf_f000 [1, 2]⟩ :=
    Transition.Reachable.tail (a := ⟨0xffbf_f000, 2, 32⟩) (.refl _) ⟨_, rfl⟩
  have hacc : Acceptable 0xffbf_f000 ⟨2, writeSlice (fun _ => 0) 0xffbf_f000 [1, 2]⟩
      ⟨0xffbf_f000, 2, 0⟩ :=
    ⟨⟨fun h => absurd h (by decide), fun _ => rfl⟩, le_rfl, by decide, by decide, by decide⟩
  obtain ⟨st', res, hcall, -, hok, hgets⟩ :=
    (plat_token_streams_once 0xffbf_f000 [1, 2, 3] (fun _ => 0) _ hreach).2.1 ⟨0xffbf_f000, 2, 0⟩
  obtain ⟨resp, rfl⟩ := hgets hacc
  exact ⟨hreach, hacc, st', resp, hcall, hok resp rfl⟩

end RustedFirmware.Rmmd
