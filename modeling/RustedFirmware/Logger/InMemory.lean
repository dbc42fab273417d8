import RustedFirmware.Lib.Rust
import RustedFirmware.Lib.Transition
import RustedFirmware.Lib.Utf8

set_option autoImplicit false

/-! The in-memory logger (`MemoryLogger` in `src/logger/inmemory.rs`).

    The logger keeps the newest `BUFFER_SIZE` bytes written to it in a ring: `next_offset` is the
    slot of the next byte and `logged_bytes_count` counts every byte written since the last reset.
    `as_str` rotates a full ring so that its oldest byte is at index 0, then skips the bytes that
    a wrap left of a partly overwritten character, retrying `str::from_utf8` on what is left.

    Over a run of `write_str`, `as_str` and `reset` calls the ghost log of the bytes written since
    the last reset fixes the ring (`Holds`): the `d`-th newest byte of the log sits `d` slots
    before `next_offset`, and until the ring fills `next_offset` is the count. `as_str` returns
    the newest bytes of the log from the first character boundary on. -/

namespace RustedFirmware.Logger

open Rust Utf8

/-- `MemoryLogger<BUFFER_SIZE>`; the buffer is read and written below `BUFFER_SIZE`. -/
structure MemoryLogger where
  nextOffset : Nat
  loggedBytesCount : Nat
  buffer : Nat → UInt8

namespace MemoryLogger

section Model

variable (bufferSize : Nat)

/-- `MemoryLogger::new`: an empty logger over a zeroed ring. -/
def new : MemoryLogger := ⟨0, 0, fun _ => 0⟩

/-- `MemoryLogger::reset`: the bytes stay in the buffer and are forgotten. -/
def reset (l : MemoryLogger) : MemoryLogger := { l with nextOffset := 0, loggedBytesCount := 0 }

/-- `buffer[start..start + src.len()].copy_from_slice(src)`, which panics when the range leaves
    the buffer. -/
def copyFromSlice (buffer : Nat → UInt8) (start : Nat) (src : List UInt8) :
    Except Panic (Nat → UInt8) :=
  if start + src.length ≤ bufferSize then
    pure fun i => if start ≤ i ∧ i < start + src.length then src.getD (i - start) 0 else buffer i
  else throw .indexOutOfBounds

/-- `MemoryLogger::add_bytes`. The count and the offset are `usize` arithmetic under
    `overflow-checks`; of more bytes than the buffer holds only the last `BUFFER_SIZE` are
    written, the first copy up to the end of the buffer and the second from index 0. -/
def addBytes (l : MemoryLogger) (bytes : List UInt8) : Except Panic MemoryLogger := do
  let loggedBytesCount ← Usize.add l.loggedBytesCount bytes.length
  let bytes := if bytes.length > bufferSize then bytes.drop (bytes.length - bufferSize) else bytes
  let room ← Usize.sub bufferSize l.nextOffset
  let bufferEndLen := min bytes.length room
  let buffer ← copyFromSlice bufferSize l.buffer l.nextOffset (bytes.take bufferEndLen)
  let buffer ← copyFromSlice bufferSize buffer 0 (bytes.drop bufferEndLen)
  let next ← Usize.add l.nextOffset bytes.length
  let nextOffset ← Usize.rem next bufferSize
  pure ⟨nextOffset, loggedBytesCount, buffer⟩

/-- `<[u8]>::rotate_left(mid)` on the buffer. -/
def rotateLeft (buffer : Nat → UInt8) (mid : Nat) : Except Panic (Nat → UInt8) :=
  if mid ≤ bufferSize then pure fun i => buffer ((i + mid) % bufferSize)
  else throw (.assertFailed "mid <= self.len()")

/-- `MemoryLogger::shift_to_start`: a ring that has filled is rotated so that its oldest byte,
    at `next_offset`, comes to index 0. -/
def shiftToStart (l : MemoryLogger) : Except Panic MemoryLogger :=
  if l.loggedBytesCount < bufferSize then pure l
  else do
    let buffer ← rotateLeft bufferSize l.buffer l.nextOffset
    pure { l with buffer, nextOffset := 0 }

/-- `<MemoryLogger as fmt::Write>::write_str`, which returns `Ok(())`. -/
def writeStr (l : MemoryLogger) (s : String) : Except Panic MemoryLogger :=
  addBytes bufferSize l (strBytes s)

variable (fromUtf8 : List UInt8 → Except Utf8Error (List UInt8))

/-- The loop of `as_str`, for at most `fuel` rounds: a corrupt sequence at the start of `current`
    is skipped and decoding retried, and an incomplete character ends the loop with `""`. The
    source loops until it returns; an `error_len()` of at least 1 makes `current.len() + 1`
    rounds enough. -/
def asStrLoop : Nat → List UInt8 → Except Panic (List UInt8)
  | 0, _ => pure []
  | fuel + 1, current =>
    match fromUtf8 current with
    | .ok validStr => pure validStr
    | .error e =>
      match e.errorLen with
      | some len =>
        if len ≤ current.length then asStrLoop fuel (current.drop len) else throw .indexOutOfBounds
      | none => pure []

/-- `MemoryLogger::as_str`, which returns the rotated logger with the string. -/
def asStr (l : MemoryLogger) : Except Panic (MemoryLogger × List UInt8) := do
  let l ← shiftToStart bufferSize l
  let current := (List.range (min bufferSize l.loggedBytesCount)).map l.buffer
  let validStr ← asStrLoop fromUtf8 (current.length + 1) current
  pure (l, validStr)

/-- The bytes the logger holds, oldest first: the ring from `next_offset` once it has filled,
    else the bytes logged from index 0. -/
def contents (l : MemoryLogger) : List UInt8 :=
  if bufferSize ≤ l.loggedBytesCount then
    (List.range bufferSize).map fun j => l.buffer ((l.nextOffset + j) % bufferSize)
  else (List.range l.loggedBytesCount).map l.buffer

end Model

/-! ### What each operation does -/

variable {bufferSize : Nat}

theorem copyFromSlice_eq_ok {buffer buffer' : Nat → UInt8} {start : Nat} {src : List UInt8}
    (h : copyFromSlice bufferSize buffer start src = .ok buffer') :
    start + src.length ≤ bufferSize ∧ ∀ i, buffer' i =
      if start ≤ i ∧ i < start + src.length then src.getD (i - start) 0 else buffer i := by
  unfold copyFromSlice at h
  split at h
  case isTrue hle =>
    cases h
    exact ⟨hle, fun _ => rfl⟩
  case isFalse => cases h

/-- The two copies of `add_bytes` put byte `t` of `bytes` `t` slots after `next_offset`, round
    the end of the ring, and leave the other slots as they were. -/
theorem copyFromSlice_wrap {buffer buffer₁ buffer₂ : Nat → UInt8} {next : Nat}
    {bytes : List UInt8} (hnext : next < bufferSize) (hlen : bytes.length ≤ bufferSize)
    (h₁ : copyFromSlice bufferSize buffer next
      (bytes.take (min bytes.length (bufferSize - next))) = .ok buffer₁)
    (h₂ : copyFromSlice bufferSize buffer₁ 0
      (bytes.drop (min bytes.length (bufferSize - next))) = .ok buffer₂)
    {t : Nat} (ht : t < bufferSize) :
    buffer₂ ((next + t) % bufferSize) =
      if t < bytes.length then bytes.getD t 0 else buffer ((next + t) % bufferSize) := by
  set e := min bytes.length (bufferSize - next) with he
  obtain ⟨-, hb₁⟩ := copyFromSlice_eq_ok h₁
  obtain ⟨-, hb₂⟩ := copyFromSlice_eq_ok h₂
  have htake : (bytes.take e).length = e := by simp; omega
  have hdrop : (bytes.drop e).length = bytes.length - e := List.length_drop
  rw [htake] at hb₁
  rw [hdrop] at hb₂
  rw [hb₂, hb₁]
  rcases Nat.lt_or_ge (next + t) bufferSize with hwrap | hwrap
  -- case: the slot is at or after `next_offset`, where the first copy writes
  · rw [Nat.mod_eq_of_lt hwrap, if_neg (by omega)]
    by_cases hte : t < e
    · rw [if_pos (by omega), if_pos (by omega), Nat.add_sub_cancel_left]
      simp [List.getD_eq_getElem?_getD, hte]
    · rw [if_neg (by omega), if_neg (by omega)]
  -- case: the slot is before `next_offset`, where the second copy writes from index 0
  · have hslot : (next + t) % bufferSize = next + t - bufferSize := by
      rw [Nat.mod_eq_sub_mod hwrap, Nat.mod_eq_of_lt (by omega)]
    rw [hslot]
    by_cases htk : t < bytes.length
    · rw [if_pos (by omega), if_pos htk]
      simp only [List.getD_eq_getElem?_getD, List.getElem?_drop, Nat.sub_zero]
      congr 2
      omega
    · rw [if_neg (by omega), if_neg (by omega), if_neg htk]

/-- `add_bytes` writes the last `BUFFER_SIZE` bytes it is given. -/
theorem keep_end (bytes : List UInt8) :
    (if bytes.length > bufferSize then bytes.drop (bytes.length - bufferSize) else bytes) =
      bytes.drop (bytes.length - bufferSize) := by
  split
  case isTrue => rfl
  case isFalse hle => rw [Nat.sub_eq_zero_of_le (by omega), List.drop_zero]

/-- Going back `d` slots from an offset reduced modulo the ring's size. -/
theorem mod_add_sub_mod {a d : Nat} (hd : d ≤ bufferSize) :
    (a % bufferSize + bufferSize - d) % bufferSize = (a + bufferSize - d) % bufferSize := by
  rw [Nat.add_sub_assoc hd, Nat.mod_add_mod, ← Nat.add_sub_assoc hd]

/-! ### The ring holds the newest bytes of the log -/

/-- The logger holds the newest bytes of `log`, the bytes written since the last reset: the
    `d`-th newest sits `d` slots before `next_offset`, and until the ring fills `next_offset` is
    the number of bytes logged. -/
structure Holds (bufferSize : Nat) (l : MemoryLogger) (log : List UInt8) : Prop where
  nextOffset_lt : l.nextOffset < bufferSize
  loggedBytesCount_eq : l.loggedBytesCount = log.length
  nextOffset_eq : log.length < bufferSize → l.nextOffset = log.length
  newest : ∀ d, 0 < d → d ≤ bufferSize → d ≤ log.length →
    l.buffer ((l.nextOffset + bufferSize - d) % bufferSize) = log.getD (log.length - d) 0

variable {l l' : MemoryLogger} {log : List UInt8}

theorem holds_new (hn : 0 < bufferSize) : Holds bufferSize new [] where
  nextOffset_lt := hn
  loggedBytesCount_eq := rfl
  nextOffset_eq _ := rfl
  newest d hd _ hdL := absurd hdL (by simp; omega)

theorem Holds.reset (h : Holds bufferSize l log) : Holds bufferSize (reset l) [] where
  nextOffset_lt := Nat.zero_lt_of_lt h.nextOffset_lt
  loggedBytesCount_eq := rfl
  nextOffset_eq _ := rfl
  newest d hd _ hdL := absurd hdL (by simp; omega)

/-- `add_bytes` appends its bytes to the log. -/
theorem Holds.addBytes {bytes : List UInt8} (h : Holds bufferSize l log)
    (hadd : addBytes bufferSize l bytes = .ok l') : Holds bufferSize l' (log ++ bytes) := by
  obtain ⟨count, hcount, hadd⟩ := bind_eq_ok.mp hadd
  obtain ⟨room, hroom, hadd⟩ := bind_eq_ok.mp hadd
  obtain ⟨buffer₁, h₁, hadd⟩ := bind_eq_ok.mp hadd
  obtain ⟨buffer₂, h₂, hadd⟩ := bind_eq_ok.mp hadd
  obtain ⟨next, hnext, hadd⟩ := bind_eq_ok.mp hadd
  obtain ⟨nextOffset, hrem, hadd⟩ := bind_eq_ok.mp hadd
  cases hadd
  obtain ⟨rfl, -⟩ := Usize.add_eq_ok hcount
  obtain ⟨rfl, -⟩ := Usize.sub_eq_ok hroom
  obtain ⟨rfl, -⟩ := Usize.add_eq_ok hnext
  obtain ⟨rfl, -⟩ := Usize.rem_eq_ok hrem
  rw [keep_end] at h₁ h₂ ⊢
  set kept := bytes.drop (bytes.length - bufferSize) with hkept
  have hkeptLen : kept.length = bytes.length - (bytes.length - bufferSize) := List.length_drop
  have hwrite := fun t ht => copyFromSlice_wrap h.nextOffset_lt (by omega) h₁ h₂ (t := t) ht
  constructor
  case nextOffset_lt => exact Nat.mod_lt _ (Nat.zero_lt_of_lt h.nextOffset_lt)
  case loggedBytesCount_eq => simp [h.loggedBytesCount_eq]
  case nextOffset_eq =>
    intro hlt
    rw [List.length_append] at hlt
    have hold := h.nextOffset_eq (by omega)
    show (l.nextOffset + kept.length) % bufferSize = _
    rw [hold, hkeptLen, Nat.mod_eq_of_lt (by omega), List.length_append]
    omega
  case newest =>
    intro d hd hdn hdL
    rw [List.length_append] at hdL ⊢
    show buffer₂ (((l.nextOffset + kept.length) % bufferSize + bufferSize - d) % bufferSize) = _
    rw [mod_add_sub_mod hdn]
    by_cases hdk : d ≤ kept.length
    -- case: the byte is one of those just written
    · have hslot : (l.nextOffset + kept.length + bufferSize - d) % bufferSize =
          (l.nextOffset + (kept.length - d)) % bufferSize := by
        rw [show l.nextOffset + kept.length + bufferSize - d =
          l.nextOffset + (kept.length - d) + bufferSize by omega, Nat.add_mod_right]
      rw [hslot, hwrite _ (by omega), if_pos (by omega),
        List.getD_append_right _ _ _ _ (by omega)]
      simp only [hkept, List.getD_eq_getElem?_getD, List.getElem?_drop, List.length_drop]
      congr 2
      omega
    -- case: the byte is older and the write left its slot alone
    · have hslot : l.nextOffset + kept.length + bufferSize - d =
          l.nextOffset + (kept.length + bufferSize - d) := by omega
      have hold := h.newest (d - kept.length) (by omega) (by omega) (by omega)
      rw [hslot, hwrite _ (by omega), if_neg (by omega),
        show l.nextOffset + (kept.length + bufferSize - d) =
          l.nextOffset + bufferSize - (d - kept.length) by omega,
        hold, List.getD_append _ _ _ _ (by omega)]
      congr 1
      omega

/-- `shift_to_start` keeps the invariant, and on a ring that has filled it leaves `next_offset`
    at 0. -/
theorem Holds.shiftToStart (h : Holds bufferSize l log) :
    ∃ l', shiftToStart bufferSize l = .ok l' ∧ Holds bufferSize l' log ∧
      (bufferSize ≤ log.length → l'.nextOffset = 0) := by
  unfold MemoryLogger.shiftToStart
  by_cases hpart : l.loggedBytesCount < bufferSize
  -- case: the ring has not filled and nothing moves
  · rw [if_pos hpart]
    refine ⟨l, rfl, h, fun hfull => ?_⟩
    rw [h.loggedBytesCount_eq] at hpart
    omega
  -- case: the ring is rotated by `next_offset`
  · rw [if_neg hpart, rotateLeft, if_pos h.nextOffset_lt.le]
    refine ⟨_, rfl, ⟨Nat.zero_lt_of_lt h.nextOffset_lt, h.loggedBytesCount_eq, ?_, ?_⟩,
      fun _ => rfl⟩
    · intro hlt
      rw [h.loggedBytesCount_eq] at hpart
      omega
    · intro d hd hdn hdL
      show l.buffer (((0 + bufferSize - d) % bufferSize + l.nextOffset) % bufferSize) = _
      rw [Nat.mod_add_mod, ← h.newest d hd hdn hdL]
      congr 2
      omega

/-- The contents are the newest `BUFFER_SIZE` bytes of the log. -/
theorem Holds.contents_eq (h : Holds bufferSize l log) :
    contents bufferSize l = log.drop (log.length - bufferSize) := by
  unfold contents
  rw [h.loggedBytesCount_eq]
  apply List.ext_getElem
  · split <;> simp <;> omega
  · intro j _ hj
    rw [List.length_drop] at hj
    rw [List.getElem_drop, ← List.getD_eq_getElem log 0]
    split
    -- case: the ring has filled; byte `j` is the `BUFFER_SIZE - j`-th newest
    case isTrue hfull =>
      have hold := h.newest (bufferSize - j) (by omega) (Nat.sub_le _ _) (by omega)
      rw [show l.nextOffset + bufferSize - (bufferSize - j) = l.nextOffset + j by omega] at hold
      rw [List.getElem_map, List.getElem_range, hold]
      congr 1
      omega
    -- case: the bytes sit from index 0, with `next_offset` the count
    case isFalse hpart =>
      have hold := h.newest (log.length - j) (by omega) (by omega) (by omega)
      rw [h.nextOffset_eq (by omega),
        show log.length + bufferSize - (log.length - j) = j + bufferSize by omega,
        Nat.add_mod_right, Nat.mod_eq_of_lt (by omega)] at hold
      rw [List.getElem_map, List.getElem_range, hold]
      congr 1
      omega

/-- After `shift_to_start` the held bytes sit from index 0, which `as_str` reads. -/
theorem range_map_buffer_eq_contents
    (hzero : bufferSize ≤ l.loggedBytesCount → l.nextOffset = 0) :
    (List.range (min bufferSize l.loggedBytesCount)).map l.buffer = contents bufferSize l := by
  unfold contents
  split
  case isTrue hfull =>
    rw [min_eq_left hfull, hzero hfull]
    apply List.map_congr_left
    intro j hj
    rw [List.mem_range] at hj
    rw [Nat.zero_add, Nat.mod_eq_of_lt hj]
  case isFalse hpart => rw [min_eq_right (by omega)]

/-! ### `as_str` -/

section AsStr

variable {fromUtf8 : List UInt8 → Except Utf8Error (List UInt8)}

/-- With `from_utf8` as documented, the loop of `as_str` skips the leading bytes that cannot
    start a character and returns the rest, when the rest is valid. -/
theorem asStrLoop_eq (hspec : FromUtf8Spec fromUtf8) :
    ∀ (fuel : Nat) (current : List UInt8), current.length < fuel →
      Valid (current.dropWhile notFirst) →
      asStrLoop fromUtf8 fuel current = .ok (current.dropWhile notFirst)
  | 0, _, hfuel, _ => absurd hfuel (Nat.not_lt_zero _)
  | fuel + 1, [], _, hv => by
    rw [asStrLoop, hspec.ok_of_valid [] hv]
    rfl
  | fuel + 1, b :: rest, hfuel, hv => by
    by_cases hb : notFirst b = true
    -- case: a byte that continues a character is one corrupt sequence
    · rw [List.dropWhile_cons_of_pos hb] at hv ⊢
      rw [asStrLoop, hspec.error_of_notFirst b rest hb]
      dsimp only
      rw [if_pos (by simp), List.drop_one, List.tail_cons]
      exact asStrLoop_eq hspec fuel rest (by simpa using hfuel) hv
    · rw [List.dropWhile_cons_of_neg hb] at hv ⊢
      rw [asStrLoop, hspec.ok_of_valid _ hv]
      rfl

/-- `as_str` on a logger that holds the newest bytes of a valid log returns them from the first
    byte that starts a character, and keeps the invariant. -/
theorem Holds.asStr (hspec : FromUtf8Spec fromUtf8) (h : Holds bufferSize l log)
    (hv : Valid log) :
    ∃ l', asStr bufferSize fromUtf8 l =
      .ok (l', (log.drop (log.length - bufferSize)).dropWhile notFirst) ∧
      Holds bufferSize l' log := by
  obtain ⟨l₁, hshift, h₁, hzero⟩ := h.shiftToStart
  have hcurrent : (List.range (min bufferSize l₁.loggedBytesCount)).map l₁.buffer =
      log.drop (log.length - bufferSize) := by
    rw [range_map_buffer_eq_contents fun hfull => hzero (h₁.loggedBytesCount_eq ▸ hfull),
      h₁.contents_eq]
  obtain ⟨k, -, hdrop, -, -, hvk⟩ := dropWhile_drop hv (Nat.sub_le log.length bufferSize)
  refine ⟨l₁, ?_, h₁⟩
  simp only [MemoryLogger.asStr, hshift, ok_bind, hcurrent]
  rw [asStrLoop_eq hspec _ _ (Nat.lt_succ_self _) (hdrop ▸ hvk)]
  rfl

end AsStr

end MemoryLogger

/-! ### Runs of calls -/

/-- A call on the logger. -/
inductive Call where
  | writeStr (s : String)
  | asStr
  | reset

open MemoryLogger

section Runs

variable (bufferSize : Nat) (fromUtf8 : List UInt8 → Except Utf8Error (List UInt8))

/-- One call that returns, on the logger paired with the ghost log of the bytes written since the
    last reset. -/
def Step : MemoryLogger × List UInt8 → Call → MemoryLogger × List UInt8 → Prop
  | (l, log), .writeStr s, (l', log') =>
    writeStr bufferSize l s = .ok l' ∧ log' = log ++ strBytes s
  | (l, log), .asStr, (l', log') =>
    (∃ out, asStr bufferSize fromUtf8 l = .ok (l', out)) ∧ log' = log
  | (l, _), .reset, (l', log') => l' = reset l ∧ log' = []

variable {bufferSize fromUtf8}

/-- Every call keeps the invariant, and the log stays valid UTF-8. -/
theorem step_holds (hspec : FromUtf8Spec fromUtf8) {st st' : MemoryLogger × List UInt8}
    {call : Call} (hst : Holds bufferSize st.1 st.2 ∧ Valid st.2)
    (hstep : Step bufferSize fromUtf8 st call st') : Holds bufferSize st'.1 st'.2 ∧ Valid st'.2 := by
  obtain ⟨l, log⟩ := st
  obtain ⟨l', log'⟩ := st'
  obtain ⟨h, hv⟩ := hst
  cases call with
  | writeStr s =>
    obtain ⟨hwrite, rfl⟩ := hstep
    exact ⟨h.addBytes hwrite, hv.append (valid_strBytes s)⟩
  | asStr =>
    obtain ⟨⟨out, hout⟩, rfl⟩ := hstep
    obtain ⟨l₁, hasStr, h₁⟩ := h.asStr hspec hv
    rw [hasStr] at hout
    cases hout
    exact ⟨h₁, hv⟩
  | reset =>
    obtain ⟨rfl, rfl⟩ := hstep
    exact ⟨h.reset, valid_nil⟩

/-- Every state a run reaches from a new logger holds the newest bytes of a valid log. -/
theorem reachable_holds (hn : 0 < bufferSize) (hspec : FromUtf8Spec fromUtf8)
    {st : MemoryLogger × List UInt8}
    (hreach : Transition.Reachable (Step bufferSize fromUtf8) (new, []) st) :
    Holds bufferSize st.1 st.2 ∧ Valid st.2 :=
  hreach.invariant ⟨holds_new hn, valid_nil⟩ fun _ _ _ hst hstep => step_holds hspec hst hstep

/-- In every state a run of `write_str`, `as_str` and `reset` calls reaches, `next_offset` is in
    the ring and the contents are the newest `BUFFER_SIZE` bytes of the strings written since the
    last reset; `as_str` returns, leaves the contents as they were, and returns that log from
    its first character boundary at or after the newest `BUFFER_SIZE` bytes. -/
theorem memoryLogger_keeps_newest (hn : 0 < bufferSize) (hspec : FromUtf8Spec fromUtf8)
    {l : MemoryLogger} {log : List UInt8}
    (hreach : Transition.Reachable (Step bufferSize fromUtf8) (new, []) (l, log)) :
    l.nextOffset < bufferSize ∧ contents bufferSize l = log.drop (log.length - bufferSize) ∧
      ∃ l' out, asStr bufferSize fromUtf8 l = .ok (l', out) ∧
        contents bufferSize l' = contents bufferSize l ∧
        ∃ k, out = log.drop k ∧ log.length - bufferSize ≤ k ∧ IsCharBoundary log k ∧
          ∀ j, log.length - bufferSize ≤ j → j < k → ¬IsCharBoundary log j := by
  obtain ⟨h, hv⟩ := reachable_holds hn hspec hreach
  obtain ⟨l', hasStr, h'⟩ := h.asStr hspec hv
  obtain ⟨k, hk, hdrop, hbound, hfirst, -⟩ := dropWhile_drop hv (Nat.sub_le log.length bufferSize)
  refine ⟨h.nextOffset_lt, h.contents_eq, l', _, hasStr, ?_, k, hdrop, hk, hbound, hfirst⟩
  rw [h'.contents_eq, h.contents_eq]

/-- A four-byte ring: an over-long write that fills it, a read that rotates it, a reset, and two
    writes of which the second wraps; the ring then holds the newest four bytes written since the
    reset, and `as_str` returns them. -/
theorem memoryLogger_keeps_newest_wrap :
    0 < 4 ∧ FromUtf8Spec firstErrorDecoder ∧
      ∃ l, Transition.Reachable (Step 4 firstErrorDecoder) (new, [])
          (l, strBytes "fgh" ++ strBytes "ij") ∧
        l.nextOffset < 4 ∧ contents 4 l = strBytes "ghij" ∧
        ∃ l' out, asStr 4 firstErrorDecoder l = .ok (l', out) ∧ contents 4 l' = strBytes "ghij" ∧
          ∃ k, out = (strBytes "fgh" ++ strBytes "ij").drop k ∧ 1 ≤ k := by
  obtain ⟨l, hreach⟩ : ∃ l, Transition.Reachable (Step 4 firstErrorDecoder) (new, [])
      (l, strBytes "fgh" ++ strBytes "ij") := by
    have h₁ : Transition.Reachable (Step 4 firstErrorDecoder) (new, []) (_, _) :=
      Transition.Reachable.tail (a := .writeStr "abcde") (.refl _) ⟨rfl, rfl⟩
    have h₂ : Transition.Reachable (Step 4 firstErrorDecoder) (new, []) (_, _) :=
      h₁.tail (a := .asStr) ⟨⟨_, rfl⟩, rfl⟩
    have h₃ : Transition.Reachable (Step 4 firstErrorDecoder) (new, []) (_, _) :=
      h₂.tail (a := .reset) ⟨rfl, rfl⟩
    have h₄ : Transition.Reachable (Step 4 firstErrorDecoder) (new, []) (_, _) :=
      h₃.tail (a := .writeStr "fgh") ⟨rfl, rfl⟩
    exact ⟨_, h₄.tail (a := .writeStr "ij") ⟨rfl, rfl⟩⟩
  obtain ⟨hoff, hcontents, l', out, hasStr, hcontents', k, hout, hk, -⟩ :=
    memoryLogger_keeps_newest (by decide) fromUtf8Spec_firstErrorDecoder hreach
  have hlast : contents 4 l = strBytes "ghij" := by
    rw [hcontents]
    decide
  exact ⟨by decide, fromUtf8Spec_firstErrorDecoder, l, hreach, hoff, hlast, l', out, hasStr,
    hcontents'.trans hlast, k, hout, hk⟩

/-- The source's `memory_logger_corrupt_utf8`: a wrap that cuts the first crab leaves three. -/
example : ((writeStr 16 new "🦀🦀🦀🦀" >>= fun l => writeStr 16 l "a") >>=
    asStr 16 firstErrorDecoder).map Prod.snd = .ok (strBytes "🦀🦀🦀a") := by
  decide

end Runs

end RustedFirmware.Logger
