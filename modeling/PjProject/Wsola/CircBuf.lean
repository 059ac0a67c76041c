import PjProject.Library.Outcome

set_option autoImplicit false

/-! # The circular buffer

`pjmedia/circbuf.h` without the samples: a buffer is where its first sample is and how many there are, a
pointer is a position relative to `buf`. Every range of samples that is read or written is checked to lie
in its array (`access`), so that a wrong pointer is a fault.

Each operation has a lemma that says when it succeeds.
-/

namespace Wsola

open Outcome

inductive Fault where
  /-- A range of samples is not in its array. -/
  | outOfBounds
  /-- `PJ_ETOOBIG`. -/
  | tooBig
  /-- A `pj_assert` fails. -/
  | assertion
  /-- An integer is divided by zero. -/
  | divByZero
  /-- A loop does not end. -/
  | diverges
  deriving DecidableEq

/-- The `count` samples from a position on are in an array of `size` ones. No samples are in any. -/
def access (size : Nat) (pos : Int) (count : Nat) : Except Fault Unit :=
  if count = 0 ∨ (0 ≤ pos ∧ pos + count ≤ size) then .ok () else .error .outOfBounds

/-- `pjmedia_circ_buf`. -/
structure CircBuf where
  capacity : Nat
  start : Nat
  len : Nat
  deriving DecidableEq

def circBufCreate (capacity : Nat) : CircBuf := ⟨capacity, 0, 0⟩

def circBufReset (cb : CircBuf) : CircBuf := { cb with start := 0, len := 0 }

def circBufSetLen (cb : CircBuf) (len : Nat) : CircBuf := { cb with len := len }

def circBufAdvReadPtr (cb : CircBuf) (count : Nat) : CircBuf :=
  if cb.len ≤ count then circBufReset cb
  else
    let start := cb.start + count
    { cb with
      start := if cb.capacity ≤ start then start - cb.capacity else start
      len := cb.len - count }

def circBufAdvWritePtr (cb : CircBuf) (count : Nat) : Except Fault CircBuf :=
  if cb.capacity < count + cb.len then .error .tooBig else .ok { cb with len := cb.len + count }

/-- The lengths of the two read regions; the first one begins at `start`, the second one at `buf`. -/
def circBufGetReadRegions (cb : CircBuf) : Nat × Nat :=
  if cb.capacity < cb.start + cb.len then
    (cb.capacity - cb.start, cb.len - (cb.capacity - cb.start))
  else (cb.len, 0)

/-- Where the first write region begins and the lengths of both. -/
def circBufGetWriteRegions (cb : CircBuf) : Nat × Nat × Nat :=
  let reg1 := if cb.capacity ≤ cb.start + cb.len then cb.start + cb.len - cb.capacity
    else cb.start + cb.len
  if cb.capacity < reg1 + (cb.capacity - cb.len) then (reg1, cb.capacity - reg1, cb.start)
  else (reg1, cb.capacity - cb.len, 0)

/-- Copy `count` samples from or to two regions, the first one of `reg1Cnt` samples at `reg1`, the second
one at `buf`. -/
def accessRegions (capacity : Nat) (reg1 : Int) (reg1Cnt count : Nat) : Except Fault Unit :=
  if count ≤ reg1Cnt then access capacity reg1 count
  else do
    access capacity reg1 reg1Cnt
    access capacity 0 (count - reg1Cnt)

def circBufWrite (cb : CircBuf) (count : Nat) : Except Fault CircBuf :=
  if cb.capacity - cb.len < count then .error .tooBig
  else do
    let regions := circBufGetWriteRegions cb
    accessRegions cb.capacity regions.1 regions.2.1 count
    circBufAdvWritePtr cb count

def circBufCopy (cb : CircBuf) (startIdx count : Nat) : Except Fault Unit :=
  if cb.len < count + startIdx then .error .tooBig
  else
    let reg1Cnt := (circBufGetReadRegions cb).1
    if startIdx < reg1Cnt then
      accessRegions cb.capacity (cb.start + startIdx) (reg1Cnt - startIdx) count
    else access cb.capacity (startIdx - reg1Cnt) count

/-- One pass of the loop of `pjmedia_circ_buf_pack_buffer`, which rolls the samples to the left by the gap
between the regions. -/
def rollOnce (capacity : Nat) (reg1 : Int) (reg1Cnt reg2Cnt gap : Nat) : Except Fault Unit := do
  access capacity (reg1 - gap) reg1Cnt
  access capacity reg1 reg1Cnt
  access capacity (reg1 + reg1Cnt - gap) gap
  access capacity 0 gap
  -- the rest of the second region; nothing if the gap takes it all
  access capacity 0 (reg2Cnt - gap)
  access capacity gap (reg2Cnt - gap)

/-- The loop; it returns where the first region begins then. -/
def rollLeft (capacity : Nat) : Nat → Int → Nat → Nat → Nat → Except Fault Int
  | 0, _, _, _, _ => .error .diverges
  | fuel + 1, reg1, reg1Cnt, reg2Cnt, gap => do
      let gap := min gap reg2Cnt
      rollOnce capacity reg1 reg1Cnt reg2Cnt gap
      if 0 < reg2Cnt - gap then
        rollLeft capacity fuel (reg1 - gap) (reg1Cnt + gap) (reg2Cnt - gap) gap
      else .ok (reg1 - gap)

def circBufPackBuffer (fuel : Nat) (cb : CircBuf) : Except Fault CircBuf := do
  let regions := circBufGetReadRegions cb
  let reg1 ←
    if regions.2 = 0 then .ok (cb.start : Int)
    else if cb.capacity - cb.len = 0 then .error .tooBig
    else rollLeft cb.capacity fuel cb.start regions.1 regions.2 (cb.capacity - cb.len)
  -- shift the samples to the left edge
  if reg1 = 0 then .ok { cb with start := 0 }
  else do
    access cb.capacity 0 cb.len
    access cb.capacity reg1 cb.len
    .ok { cb with start := 0 }

/-! ## When the operations succeed -/

/-- There is a first position, and the samples fit. -/
structure CircBuf.Ok (cb : CircBuf) : Prop where
  start_lt : cb.start < cb.capacity
  len_le : cb.len ≤ cb.capacity

theorem access_ok {size : Nat} {pos : Int} {count : Nat} (h0 : 0 ≤ pos) (h : pos + count ≤ size) :
    access size pos count = .ok () := by
  unfold access
  rw [if_pos (.inr ⟨h0, h⟩)]

variable {cb : CircBuf} {count startIdx : Nat}

theorem circBufAdvReadPtr_ok (h : cb.Ok) (hlt : count < cb.len) :
    (circBufAdvReadPtr cb count).Ok ∧ (circBufAdvReadPtr cb count).len = cb.len - count ∧
      (circBufAdvReadPtr cb count).capacity = cb.capacity := by
  have hs := h.start_lt
  have hl := h.len_le
  unfold circBufAdvReadPtr
  rw [if_neg (by omega)]
  refine ⟨⟨?_, ?_⟩, rfl, rfl⟩
  · dsimp only
    split
    · omega
    · omega
  · dsimp only
    omega

theorem accessRegions_ok {capacity : Nat} {reg1 : Int} {reg1Cnt : Nat} (h0 : 0 ≤ reg1)
    (h1 : reg1 + min count reg1Cnt ≤ capacity) (h2 : count - reg1Cnt ≤ capacity) :
    accessRegions capacity reg1 reg1Cnt count = .ok () := by
  unfold accessRegions
  split
  · exact access_ok h0 (by omega)
  · rw [access_ok h0 (by omega), ok_bind, access_ok (by omega) (by omega)]

theorem circBufWrite_ok (h : cb.Ok) (hfit : cb.len + count ≤ cb.capacity) :
    circBufWrite cb count = .ok { cb with len := cb.len + count } := by
  have hs := h.start_lt
  have haccess : accessRegions cb.capacity (circBufGetWriteRegions cb).1
      (circBufGetWriteRegions cb).2.1 count = .ok () := by
    apply accessRegions_ok
    · omega
    · unfold circBufGetWriteRegions
      dsimp only
      split
      · split
        · dsimp only
          omega
        · dsimp only
          omega
      · split
        · dsimp only
          omega
        · dsimp only
          omega
    · omega
  unfold circBufWrite circBufAdvWritePtr
  rw [if_neg (by omega)]
  dsimp only
  rw [haccess, ok_bind, if_neg (by omega)]

theorem circBufCopy_ok (h : cb.Ok) (hfit : startIdx + count ≤ cb.len) :
    circBufCopy cb startIdx count = .ok () := by
  have hs := h.start_lt
  have hl := h.len_le
  unfold circBufCopy circBufGetReadRegions
  rw [if_neg (by omega)]
  by_cases hwrap : cb.capacity < cb.start + cb.len
  · simp only [if_pos hwrap]
    by_cases hin : startIdx < cb.capacity - cb.start
    · rw [if_pos hin]
      exact accessRegions_ok (by omega) (by omega) (by omega)
    · rw [if_neg hin]
      exact access_ok (by omega) (by omega)
  · simp only [if_neg hwrap]
    by_cases hin : startIdx < cb.len
    · rw [if_pos hin]
      exact accessRegions_ok (by omega) (by omega) (by omega)
    · have h0 : count = 0 := by omega
      rw [if_neg hin, h0]
      simp [access]

/-- The gap between the regions keeps its length while both move to the left. -/
theorem rollLeft_ok {capacity : Nat} : ∀ (fuel : Nat) {reg1 : Int} {reg1Cnt reg2Cnt gap : Nat},
    0 < gap → 0 < reg2Cnt → reg2Cnt ≤ fuel → reg1 + reg1Cnt = capacity →
    (reg2Cnt : Int) + gap ≤ reg1 →
    ∃ pos : Int, rollLeft capacity fuel reg1 reg1Cnt reg2Cnt gap = .ok pos ∧
      pos + reg1Cnt + reg2Cnt = capacity
  | 0, _, _, _, _, _, h2, hfuel, _, _ => by omega
  | fuel + 1, reg1, reg1Cnt, reg2Cnt, gap, hgap, h2, hfuel, hend, hroom => by
      unfold rollLeft
      have hone : rollOnce capacity reg1 reg1Cnt reg2Cnt (min gap reg2Cnt) = .ok () := by
        unfold rollOnce
        rw [access_ok (by omega) (by omega), ok_bind, access_ok (by omega) (by omega), ok_bind,
          access_ok (by omega) (by omega), ok_bind, access_ok (by omega) (by omega), ok_bind,
          access_ok (by omega) (by omega), ok_bind, access_ok (by omega) (by omega)]
      dsimp only
      rw [hone, ok_bind]
      by_cases hmore : 0 < reg2Cnt - min gap reg2Cnt
      · rw [if_pos hmore]
        rcases rollLeft_ok fuel (show 0 < min gap reg2Cnt by omega) hmore (by omega)
          (show reg1 - (min gap reg2Cnt : Nat) + (reg1Cnt + min gap reg2Cnt : Nat) = capacity by omega)
          (by omega) with ⟨pos, hpos, heq⟩
        exact ⟨pos, hpos, by omega⟩
      · rw [if_neg hmore]
        exact ⟨_, rfl, by omega⟩

/-- **Packing** succeeds when the buffer is not full. -/
theorem circBufPackBuffer_ok (h : cb.Ok) (hgap : cb.len < cb.capacity) {fuel : Nat}
    (hfuel : cb.len ≤ fuel) : circBufPackBuffer fuel cb = .ok { cb with start := 0 } := by
  have hs := h.start_lt
  unfold circBufPackBuffer circBufGetReadRegions
  by_cases hwrap : cb.capacity < cb.start + cb.len
  · simp only [if_pos hwrap]
    rw [if_neg (by omega), if_neg (by omega)]
    rcases @rollLeft_ok cb.capacity fuel cb.start (cb.capacity - cb.start)
      (cb.len - (cb.capacity - cb.start)) (cb.capacity - cb.len) (by omega) (by omega) (by omega)
      (by omega) (by omega) with ⟨pos, hpos, heq⟩
    rw [hpos, ok_bind]
    by_cases h0 : pos = 0
    · rw [if_pos h0]
    · rw [if_neg h0, access_ok (by omega) (by omega), ok_bind, access_ok (by omega) (by omega),
        ok_bind]
  · simp only [if_neg hwrap, if_true]
    rw [ok_bind]
    by_cases h0 : (cb.start : Int) = 0
    · rw [if_pos h0]
    · rw [if_neg h0, access_ok (by omega) (by omega), ok_bind, access_ok (by omega) (by omega),
        ok_bind]

end Wsola
