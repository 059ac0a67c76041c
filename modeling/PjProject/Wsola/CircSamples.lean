import PjProject.Library.Circular
import PjProject.Library.MachineInt
import PjProject.Wsola.CircBuf

set_option autoImplicit false

/-! # Copying samples

`pjmedia_copy_samples` and `pjmedia_move_samples` of `pjmedia/frame.h`. Both hand `count << 1` bytes to the C
library, computed in an `unsigned`: from `2^31` samples on some of the samples are not copied.
-/

namespace Wsola

open MachineInt Outcome Segment

/-- An array of samples. Only its first `size` cells may be accessed. -/
structure Samples where
  size : Nat
  cell : Nat → Int16

/-- The samples in `count << 1` bytes. -/
def copiedCnt (count : Nat) : Nat := uint32 (2 * count : Nat) / 2

/-- `pjmedia_copy_samples` from the array `b` to another one. -/
def pjmediaCopySamples (a : Samples) (dst : Int) (b : Samples) (src : Int) (count : Nat) :
    Except Fault Samples := do
  access a.size dst (copiedCnt count)
  access b.size src (copiedCnt count)
  .ok { a with cell := splice a.cell b.cell dst.toNat src.toNat (copiedCnt count) }

/-- `pjmedia_move_samples`. -/
def pjmediaMoveSamples (a : Samples) (dst src : Int) (count : Nat) : Except Fault Samples :=
  pjmediaCopySamples a dst a src count

/-- `pjmedia_copy_samples` within an array. What it does is not defined where the ranges overlap. -/
def pjmediaCopyWithin (a : Samples) (dst src : Int) (count : Nat) : Except Fault Samples :=
  if dst + count ≤ src ∨ src + count ≤ dst then pjmediaMoveSamples a dst src count
  else .error .outOfBounds

/-! ## What is copied -/

variable {a b : Samples} {dst src count : Nat}

theorem copiedCnt_of_lt (h : count < 2147483648) : copiedCnt count = count := by
  unfold copiedCnt
  rw [uint32_natCast (by omega)]
  omega

@[simp] theorem copiedCnt_zero : copiedCnt 0 = 0 := copiedCnt_of_lt (by omega)

theorem copiedCnt_le (count : Nat) : copiedCnt count ≤ count := by
  unfold copiedCnt uint32
  omega

/-- Whatever is copied lies in the ranges. -/
theorem pjmediaCopySamples_returns {d s : Int} (hd : d = dst) (hs : s = src) (hdst : dst + count ≤ a.size)
    (hsrc : src + count ≤ b.size) :
    pjmediaCopySamples a d b s count
      = .ok { a with cell := splice a.cell b.cell dst src (copiedCnt count) } := by
  subst hd
  subst hs
  have hle := copiedCnt_le count
  unfold pjmediaCopySamples
  rw [access_ok (by omega) (by omega), ok_bind, access_ok (by omega) (by omega), ok_bind]
  simp

theorem pjmediaCopySamples_ok {d s : Int} (hd : d = dst) (hs : s = src) (h : count < 2147483648)
    (hdst : dst + count ≤ a.size) (hsrc : src + count ≤ b.size) :
    pjmediaCopySamples a d b s count = .ok { a with cell := splice a.cell b.cell dst src count } := by
  rw [pjmediaCopySamples_returns hd hs hdst hsrc, copiedCnt_of_lt h]

/-- No samples can be moved between any places. -/
theorem pjmediaMoveSamples_none {d s : Int} : pjmediaMoveSamples a d s 0 = .ok a := by
  unfold pjmediaMoveSamples pjmediaCopySamples
  simp [access, bind, Except.bind]

/-- There need be no place for no samples. -/
theorem pjmediaMoveSamples_ok {d s : Int} (hd : d = dst) (hs : s = src) (h : count < 2147483648)
    (hin : count = 0 ∨ (dst + count ≤ a.size ∧ src + count ≤ a.size)) :
    pjmediaMoveSamples a d s count = .ok { a with cell := splice a.cell a.cell dst src count } := by
  rcases hin with rfl | ⟨hdst, hsrc⟩
  · rw [pjmediaMoveSamples_none, splice_zero]
  · exact pjmediaCopySamples_ok hd hs h hdst hsrc

theorem pjmediaCopyWithin_ok {d s : Int} (hd : d = dst) (hs : s = src) (h : count < 2147483648)
    (hdst : dst + count ≤ a.size) (hsrc : src + count ≤ a.size)
    (hapart : dst + count ≤ src ∨ src + count ≤ dst) :
    pjmediaCopyWithin a d s count = .ok { a with cell := splice a.cell a.cell dst src count } := by
  unfold pjmediaCopyWithin
  rw [if_pos (by omega), pjmediaMoveSamples_ok hd hs h (.inr ⟨hdst, hsrc⟩)]

end Wsola

/-! ## The samples of the circular buffer

`pjmedia/circbuf.h` with the samples: the buffer is that of `CircBuf` with its cells. The regions and the
read pointer are those of `CircBuf`; here the operations copy the samples and return a status, and what a
failed one leaves can be seen.

Each operation has a lemma that says what it does to the samples in the buffer, in their order
(`PjmediaCircBuf.content`).
-/

namespace Wsola

open MachineInt Outcome Segment Circular

/-- `pjmedia_circ_buf` with its samples. -/
structure PjmediaCircBuf extends CircBuf where
  cell : Nat → Int16

/-- The array `buf`. -/
def PjmediaCircBuf.buf (cb : PjmediaCircBuf) : Samples := ⟨cb.capacity, cb.cell⟩

inductive Status where
  | success
  /-- `PJ_ETOOBIG`. -/
  | tooBig
  deriving DecidableEq

/-- What an operation returns, leaves of the buffer, and leaves of the array `data` of its caller. -/
structure Result where
  status : Status
  circbuf : PjmediaCircBuf
  data : Samples

def pjmediaCircBufCreate (capacity : Nat) : PjmediaCircBuf :=
  { circBufCreate capacity with cell := fun _ => 0 }

def pjmediaCircBufReset (cb : PjmediaCircBuf) : PjmediaCircBuf :=
  { cb with toCircBuf := circBufReset cb.toCircBuf }

def pjmediaCircBufSetLen (cb : PjmediaCircBuf) (len : Nat) : PjmediaCircBuf :=
  { cb with toCircBuf := circBufSetLen cb.toCircBuf len }

def pjmediaCircBufAdvReadPtr (cb : PjmediaCircBuf) (count : Nat) : PjmediaCircBuf :=
  { cb with toCircBuf := circBufAdvReadPtr cb.toCircBuf count }

/-- Copy `count` samples out of the read regions; the first one has `reg1Cnt` samples from `reg1` on. -/
def copyOut (cb : PjmediaCircBuf) (data : Samples) (reg1 : Int) (reg1Cnt count : Nat) :
    Except Fault Samples :=
  if count ≤ reg1Cnt then pjmediaCopySamples data 0 cb.buf reg1 count
  else do
    let data ← pjmediaCopySamples data 0 cb.buf reg1 reg1Cnt
    pjmediaCopySamples data reg1Cnt cb.buf 0 (count - reg1Cnt)

def pjmediaCircBufRead (cb : PjmediaCircBuf) (data : Samples) (count : Nat) : Except Fault Result :=
  if cb.len < count then .ok ⟨.tooBig, cb, data⟩
  else do
    let data ← copyOut cb data cb.start (circBufGetReadRegions cb.toCircBuf).1 count
    .ok ⟨.success, pjmediaCircBufAdvReadPtr cb count, data⟩

/-- Copy `count` samples into the write regions. -/
def copyIn (cb : PjmediaCircBuf) (data : Samples) (reg1 : Int) (reg1Cnt count : Nat) :
    Except Fault Samples :=
  if count ≤ reg1Cnt then pjmediaCopySamples cb.buf reg1 data 0 count
  else do
    let buf ← pjmediaCopySamples cb.buf reg1 data 0 reg1Cnt
    pjmediaCopySamples buf 0 data reg1Cnt (count - reg1Cnt)

def pjmediaCircBufWrite (cb : PjmediaCircBuf) (data : Samples) (count : Nat) : Except Fault Result :=
  if cb.capacity - cb.len < count then .ok ⟨.tooBig, cb, data⟩
  else do
    let regions := circBufGetWriteRegions cb.toCircBuf
    let buf ← copyIn cb data regions.1 regions.2.1 count
    let cb := { cb with cell := buf.cell }
    -- `pjmedia_circ_buf_adv_write_ptr`
    if cb.capacity < uint32 (count + cb.len : Nat) then .ok ⟨.tooBig, cb, data⟩
    else .ok ⟨.success, pjmediaCircBufSetLen cb (uint32 (cb.len + count : Nat)), data⟩

def pjmediaCircBufCopy (cb : PjmediaCircBuf) (startIdx : Nat) (data : Samples) (count : Nat) :
    Except Fault Result :=
  if cb.len < uint32 (count + startIdx : Nat) then .ok ⟨.tooBig, cb, data⟩
  else
    let reg1Cnt := (circBufGetReadRegions cb.toCircBuf).1
    if startIdx < reg1Cnt then do
      let data ← copyOut cb data (cb.start + startIdx) (reg1Cnt - startIdx) count
      .ok ⟨.success, cb, data⟩
    else do
      let data ← pjmediaCopySamples data 0 cb.buf (startIdx - reg1Cnt) count
      .ok ⟨.success, cb, data⟩

/-- One pass of the loop of `pjmedia_circ_buf_pack_buffer`. -/
def packOnce (buf : Samples) (reg1 : Int) (reg1Cnt reg2Cnt gap : Nat) : Except Fault Samples := do
  let buf ← pjmediaMoveSamples buf (reg1 - gap) reg1 reg1Cnt
  let buf ← pjmediaCopyWithin buf (reg1 + reg1Cnt - gap) 0 gap
  if gap < reg2Cnt then pjmediaMoveSamples buf 0 gap (reg2Cnt - gap) else .ok buf

/-- The loop, which rolls the samples to the left by the gap between the regions; it also returns where the
first region begins then. -/
def packLoop : Nat → Samples → Int → Nat → Nat → Nat → Except Fault (Samples × Int)
  | 0, _, _, _, _, _ => .error .diverges
  | fuel + 1, buf, reg1, reg1Cnt, reg2Cnt, gap => do
      let gap := min gap reg2Cnt
      let buf ← packOnce buf reg1 reg1Cnt reg2Cnt gap
      if 0 < reg2Cnt - gap then packLoop fuel buf (reg1 - gap) (reg1Cnt + gap) (reg2Cnt - gap) gap
      else .ok (buf, reg1 - gap)

/-- The end of `pjmedia_circ_buf_pack_buffer`: the samples are shifted to the left edge. -/
def packShift (cb : PjmediaCircBuf) (buf : Samples) (reg1 : Int) : Except Fault PjmediaCircBuf := do
  let buf ← if reg1 = 0 then .ok buf else pjmediaMoveSamples buf 0 reg1 cb.len
  .ok { cb with start := 0, cell := buf.cell }

/-- `pjmedia_circ_buf_pack_buffer`. A pass of the loop takes a sample of the second region at least. -/
def pjmediaCircBufPackBuffer (cb : PjmediaCircBuf) (data : Samples) : Except Fault Result :=
  let regions := circBufGetReadRegions cb.toCircBuf
  let gap := cb.capacity - cb.len
  if regions.2 = 0 then do
    let cb ← packShift cb cb.buf cb.start
    .ok ⟨.success, cb, data⟩
  else if gap = 0 then .ok ⟨.tooBig, cb, data⟩
  else do
    let rolled ← packLoop regions.2 cb.buf cb.start regions.1 regions.2 gap
    let cb ← packShift cb rolled.1 rolled.2
    .ok ⟨.success, cb, data⟩

/-! ## The samples in their order -/

/-- The samples in the buffer, from the first one on. -/
def PjmediaCircBuf.content (cb : PjmediaCircBuf) : List Int16 :=
  window cb.cell cb.capacity cb.start cb.len

/-- The samples are in the buffer. -/
abbrev PjmediaCircBuf.Ok (cb : PjmediaCircBuf) : Prop := cb.toCircBuf.Ok

/-- The array `data` of a caller after `count` samples were copied there. -/
def Returned (data data' : Samples) (l : List Int16) : Prop :=
  data'.size = data.size ∧ seg data'.cell 0 l.length = l ∧ ∀ i, l.length ≤ i → data'.cell i = data.cell i

variable {cb : PjmediaCircBuf} {data : Samples} {count startIdx : Nat}

@[simp] theorem PjmediaCircBuf.content_length : cb.content.length = cb.len := window_length _ _ _ _

/-- The read regions have all samples, and lie in the buffer. -/
theorem PjmediaCircBuf.Ok.regions_add (h : cb.Ok) :
    (circBufGetReadRegions cb.toCircBuf).1 + (circBufGetReadRegions cb.toCircBuf).2 = cb.len ∧
      cb.start + (circBufGetReadRegions cb.toCircBuf).1 ≤ cb.capacity := by
  have hs := h.start_lt
  unfold circBufGetReadRegions
  split
  · constructor
    · dsimp only
      omega
    · dsimp only
      omega
  · constructor
    · rfl
    · dsimp only
      omega

/-- The two read regions hold the samples. -/
theorem PjmediaCircBuf.Ok.content_eq (h : cb.Ok) :
    cb.content = seg cb.cell cb.start (circBufGetReadRegions cb.toCircBuf).1
      ++ seg cb.cell 0 (circBufGetReadRegions cb.toCircBuf).2 := by
  have hs := h.start_lt
  have hl := h.len_le
  unfold PjmediaCircBuf.content circBufGetReadRegions
  by_cases hwrap : cb.capacity < cb.start + cb.len
  · rw [if_pos hwrap]
    exact window_eq_seg_append (by omega) (by omega) hl
  · rw [if_neg hwrap]
    simp [window_eq_seg (f := cb.cell) (show cb.start + cb.len ≤ cb.capacity by omega)]

/-! ## Reading and copying -/

/-- A range of `count` samples is copied in two pieces of less than `2^31` samples, the first one of
`reg1Cnt` at most. -/
def Pieces (reg1Cnt count : Nat) : Prop := min count reg1Cnt < 2147483648 ∧ count - reg1Cnt < 2147483648

/-- The two pieces come out one behind the other. -/
theorem copyOut_ok {reg1 reg1Cnt : Nat} (hp : Pieces reg1Cnt count) (hdata : count ≤ data.size)
    (h1 : reg1 + min count reg1Cnt ≤ cb.capacity) (h2 : count - reg1Cnt ≤ cb.capacity) :
    ∃ data', copyOut cb data reg1 reg1Cnt count = .ok data' ∧
      Returned data data' (seg cb.cell reg1 (min count reg1Cnt) ++ seg cb.cell 0 (count - reg1Cnt)) := by
  obtain ⟨hp1, hp2⟩ := hp
  unfold copyOut
  by_cases hle : count ≤ reg1Cnt
  · have hrest : count - reg1Cnt = 0 := by omega
    rw [if_pos hle, hrest, Nat.min_eq_left hle, seg_zero, List.append_nil]
    rw [Nat.min_eq_left hle] at hp1 h1
    refine ⟨_, @pjmediaCopySamples_ok _ _ 0 reg1 count _ _ rfl rfl hp1 (by omega) h1, rfl, ?_, ?_⟩
    · rw [seg_length]
      exact seg_splice
    · intro i hi
      rw [seg_length] at hi
      exact splice_apart (by omega)
  · have hmin : min count reg1Cnt = reg1Cnt := by omega
    rw [hmin] at hp1 h1 ⊢
    rw [if_neg hle, @pjmediaCopySamples_ok data cb.buf 0 reg1 reg1Cnt 0 reg1 rfl rfl hp1 (by omega) h1,
      ok_bind]
    refine ⟨_, @pjmediaCopySamples_ok _ _ reg1Cnt 0 _ _ _ rfl rfl hp2 (by dsimp only; omega)
      (show 0 + (count - reg1Cnt) ≤ cb.capacity by omega), rfl, ?_, ?_⟩
    · rw [List.length_append, seg_length, seg_length, seg_add, Nat.zero_add]
      -- the second piece lies behind the first one
      rw [seg_splice, seg_splice_apart (by omega), seg_splice]
      rfl
    · intro i hi
      rw [List.length_append, seg_length, seg_length] at hi
      calc splice (splice data.cell cb.cell 0 reg1 reg1Cnt) cb.cell reg1Cnt 0 (count - reg1Cnt) i
          = splice data.cell cb.cell 0 reg1 reg1Cnt i := splice_apart (by omega)
        _ = data.cell i := splice_apart (by omega)

/-- A slice that begins in the first read region. -/
theorem PjmediaCircBuf.Ok.slice_first (h : cb.Ok) (hfit : startIdx + count ≤ cb.len)
    (hin : startIdx ≤ (circBufGetReadRegions cb.toCircBuf).1) :
    (cb.content.drop startIdx).take count =
      seg cb.cell (cb.start + startIdx) (min count ((circBufGetReadRegions cb.toCircBuf).1 - startIdx))
        ++ seg cb.cell 0 (count - ((circBufGetReadRegions cb.toCircBuf).1 - startIdx)) := by
  have hsum := h.regions_add
  rw [h.content_eq, List.drop_append_of_le_length (by simpa using hin), drop_seg hin]
  generalize (circBufGetReadRegions cb.toCircBuf).1 = reg1Cnt at *
  generalize (circBufGetReadRegions cb.toCircBuf).2 = reg2Cnt at *
  rw [List.take_append, seg_length]
  congr 1
  · by_cases hle : count ≤ reg1Cnt - startIdx
    · rw [Nat.min_eq_left hle, take_seg hle]
    · rw [Nat.min_eq_right (by omega), List.take_of_length_le (by simp; omega)]
  · exact take_seg (by omega)

/-- A slice of the second read region. -/
theorem PjmediaCircBuf.Ok.slice_second (h : cb.Ok) (hfit : startIdx + count ≤ cb.len)
    (hout : (circBufGetReadRegions cb.toCircBuf).1 ≤ startIdx) :
    (cb.content.drop startIdx).take count =
      seg cb.cell (startIdx - (circBufGetReadRegions cb.toCircBuf).1) count := by
  have hsum := h.regions_add
  rw [h.content_eq, List.drop_append, seg_length]
  generalize (circBufGetReadRegions cb.toCircBuf).1 = reg1Cnt at *
  generalize (circBufGetReadRegions cb.toCircBuf).2 = reg2Cnt at *
  rw [List.drop_of_length_le (by simpa using hout), List.nil_append, drop_seg (by omega),
    take_seg (by omega), Nat.zero_add]

/-- The read pointer is advanced over the first samples. -/
theorem pjmediaCircBufAdvReadPtr_content (h : cb.Ok) :
    (pjmediaCircBufAdvReadPtr cb count).content = cb.content.drop count := by
  have hs := h.start_lt
  have hl := h.len_le
  unfold PjmediaCircBuf.content pjmediaCircBufAdvReadPtr circBufAdvReadPtr
  by_cases hall : cb.len ≤ count
  · rw [if_pos hall, List.drop_of_length_le (by simpa using hall)]
    rfl
  · rw [if_neg hall, window_drop _ _ _ (by omega)]
    dsimp only
    congr 1
    by_cases hwrap : cb.capacity ≤ cb.start + count
    · rw [if_pos hwrap, Nat.mod_eq_sub_mod hwrap, Nat.mod_eq_of_lt (by omega)]
    · rw [if_neg hwrap, Nat.mod_eq_of_lt (by omega)]

theorem pjmediaCircBufAdvReadPtr_keeps (h : cb.Ok) :
    (pjmediaCircBufAdvReadPtr cb count).Ok ∧
      (pjmediaCircBufAdvReadPtr cb count).capacity = cb.capacity := by
  have hs := h.start_lt
  by_cases hall : cb.len ≤ count
  · have hreset : (pjmediaCircBufAdvReadPtr cb count).toCircBuf = circBufReset cb.toCircBuf := if_pos hall
    exact ⟨⟨by rw [hreset]; simp [circBufReset]; omega, by rw [hreset]; simp [circBufReset]⟩, by rw [hreset]; rfl⟩
  · rcases circBufAdvReadPtr_ok h (show count < cb.len by omega) with ⟨hok, -, hcap⟩
    exact ⟨hok, hcap⟩

/-! ## Writing -/

/-- Behind samples that reach the end of the buffer, the free cells are in one region. -/
theorem writeRegions_wrapped {c : CircBuf} (h : c.Ok) (hwrap : c.capacity ≤ c.start + c.len) :
    (circBufGetWriteRegions c).1 = c.start + c.len - c.capacity ∧
      (circBufGetWriteRegions c).2.1 = c.capacity - c.len := by
  have hs := h.start_lt
  have hl := h.len_le
  unfold circBufGetWriteRegions
  simp only [if_pos hwrap]
  rw [if_neg (by omega)]
  exact ⟨rfl, rfl⟩

/-- Otherwise the first write region goes to the end. -/
theorem writeRegions_straight {c : CircBuf} (hwrap : c.start + c.len < c.capacity) :
    (circBufGetWriteRegions c).1 = c.start + c.len ∧
      (circBufGetWriteRegions c).2.1 = c.capacity - (c.start + c.len) := by
  unfold circBufGetWriteRegions
  simp only [if_neg (show ¬ c.capacity ≤ c.start + c.len by omega)]
  split
  · exact ⟨rfl, rfl⟩
  · constructor
    · rfl
    · dsimp only
      omega

/-- What is written stands behind what is there. -/
theorem copyIn_ok (h : cb.Ok) (hfit : cb.len + count ≤ cb.capacity) (hdata : count ≤ data.size)
    (hp : Pieces (circBufGetWriteRegions cb.toCircBuf).2.1 count) :
    ∃ buf, copyIn cb data (circBufGetWriteRegions cb.toCircBuf).1
        (circBufGetWriteRegions cb.toCircBuf).2.1 count = .ok buf ∧
      window buf.cell cb.capacity cb.start (cb.len + count) = cb.content ++ seg data.cell 0 count := by
  have hs := h.start_lt
  obtain ⟨hp1, hp2⟩ := hp
  unfold copyIn PjmediaCircBuf.content
  by_cases hwrap : cb.capacity ≤ cb.start + cb.len
  · rcases writeRegions_wrapped h hwrap with ⟨h1, h2⟩
    rw [h1, h2, if_pos (by omega)]
    rw [h2] at hp1
    refine ⟨_, @pjmediaCopySamples_ok cb.buf data (cb.start + cb.len - cb.capacity) 0 count _ _ rfl rfl
      (by omega) (show cb.start + cb.len - cb.capacity + count ≤ cb.capacity by omega) (by omega), ?_⟩
    rw [window_eq_seg_append (by omega) (by omega) hfit, window_eq_seg_append (by omega) hwrap (by omega),
      List.append_assoc]
    dsimp only [PjmediaCircBuf.buf]
    congr 1
    · exact seg_splice_apart (by omega)
    · have hcnt : cb.len + count - (cb.capacity - cb.start)
          = (cb.start + cb.len - cb.capacity) + count := by omega
      rw [hcnt, seg_add, seg_splice_apart (by omega), Nat.zero_add, seg_splice]
      congr 2
      omega
  · rcases writeRegions_straight (show cb.start + cb.len < cb.capacity by omega) with ⟨h1, h2⟩
    rw [h1, h2, window_eq_seg (show cb.start + cb.len ≤ cb.capacity by omega)]
    rw [h2] at hp1 hp2
    by_cases hle : count ≤ cb.capacity - (cb.start + cb.len)
    · rw [if_pos hle]
      refine ⟨_, @pjmediaCopySamples_ok cb.buf data (cb.start + cb.len) 0 count _ _ rfl rfl (by omega)
        (show cb.start + cb.len + count ≤ cb.capacity by omega) (by omega), ?_⟩
      rw [window_eq_seg (by omega), seg_add, seg_splice]
      congr 1
      exact seg_splice_apart (by omega)
    · -- the second piece goes to the beginning
      rw [if_neg hle, @pjmediaCopySamples_ok cb.buf data (cb.start + cb.len) 0 _ _ 0 rfl rfl (by omega)
        (show cb.start + cb.len + (cb.capacity - (cb.start + cb.len)) ≤ cb.capacity by omega) (by omega), ok_bind]
      refine ⟨_, @pjmediaCopySamples_ok _ _ 0 (cb.capacity - (cb.start + cb.len)) _ _ _ rfl rfl hp2
        (show 0 + (count - (cb.capacity - (cb.start + cb.len))) ≤ cb.capacity by omega) (by omega), ?_⟩
      dsimp only [PjmediaCircBuf.buf]
      rw [window_eq_seg_append (by omega) (by omega) hfit,
        show cb.capacity - cb.start = cb.len + (cb.capacity - (cb.start + cb.len)) by omega, seg_add,
        seg_splice_apart (by omega), seg_splice_apart (by omega), seg_splice_apart (by omega), seg_splice,
        show cb.len + count - (cb.len + (cb.capacity - (cb.start + cb.len)))
          = count - (cb.capacity - (cb.start + cb.len)) by omega, seg_splice, List.append_assoc,
        seg_split (show cb.capacity - (cb.start + cb.len) ≤ count by omega)]
      simp

theorem pjmediaCircBufWrite_ok (h : cb.Ok) (hcap : cb.capacity < 4294967296)
    (hfit : cb.len + count ≤ cb.capacity) (hdata : count ≤ data.size)
    (hp : Pieces (circBufGetWriteRegions cb.toCircBuf).2.1 count) :
    ∃ cb' : PjmediaCircBuf, pjmediaCircBufWrite cb data count = .ok ⟨.success, cb', data⟩ ∧
      cb'.toCircBuf = { cb.toCircBuf with len := cb.len + count } ∧
      cb'.content = cb.content ++ seg data.cell 0 count := by
  rcases copyIn_ok h hfit hdata hp with ⟨buf, hbuf, hcontent⟩
  refine ⟨{ cb with len := cb.len + count, cell := buf.cell }, ?_, rfl, hcontent⟩
  unfold pjmediaCircBufWrite
  rw [if_neg (by omega)]
  dsimp only
  rw [hbuf, ok_bind, uint32_natCast (by omega), uint32_natCast (by omega), if_neg (by omega)]
  rfl

/-! ## Packing -/

/-- **One pass** moves the gap behind the first region and fills it from the second one. -/
theorem packOnce_ok {buf : Samples} {reg1 : Int} {pos reg1Cnt reg2Cnt gap : Nat} (hpos : reg1 = pos)
    (hgap : gap ≤ reg2Cnt) (hend : pos + reg1Cnt = buf.size) (hroom : reg2Cnt + gap ≤ pos)
    (hshort : reg1Cnt + reg2Cnt < 2147483648) :
    ∃ buf', packOnce buf reg1 reg1Cnt reg2Cnt gap = .ok buf' ∧ buf'.size = buf.size ∧
      seg buf'.cell (pos - gap) (reg1Cnt + gap) = seg buf.cell pos reg1Cnt ++ seg buf.cell 0 gap ∧
      seg buf'.cell 0 (reg2Cnt - gap) = seg buf.cell gap (reg2Cnt - gap) := by
  unfold packOnce
  rw [@pjmediaMoveSamples_ok buf (pos - gap) pos reg1Cnt _ _ (by omega) hpos (by omega) (by omega), ok_bind,
    @pjmediaCopyWithin_ok _ (pos - gap + reg1Cnt) 0 gap _ 0 (by omega) rfl (by omega)
      (by dsimp only; omega) (by dsimp only; omega) (by omega), ok_bind]
  dsimp only
  have hsource : 0 + gap ≤ pos - gap := by omega
  by_cases hmore : gap < reg2Cnt
  · rw [if_pos hmore]
    refine ⟨_, @pjmediaMoveSamples_ok _ 0 gap _ _ _ rfl rfl (by omega) (by dsimp only; omega), rfl, ?_, ?_⟩
    · dsimp only
      rw [seg_splice_apart (by omega), seg_add, seg_splice_apart (by omega), seg_splice, seg_splice,
        seg_splice_apart (.inl hsource)]
    · rw [seg_splice, seg_splice_apart (by omega), seg_splice_apart (by omega)]
  · have hnone : reg2Cnt - gap = 0 := by omega
    rw [if_neg hmore]
    refine ⟨_, rfl, rfl, ?_, by rw [hnone, seg_zero, seg_zero]⟩
    dsimp only
    rw [seg_add, seg_splice_apart (by omega), seg_splice, seg_splice, seg_splice_apart (.inl hsource)]

/-- **The loop** ends, with both regions one behind the other at the end of the buffer. The gap between
them keeps its length until less than that is left of the second region. -/
theorem packLoop_ok : ∀ (fuel : Nat) {buf : Samples} {reg1 : Int} {pos reg1Cnt reg2Cnt gap : Nat},
    reg1 = pos → 0 < gap → 0 < reg2Cnt → reg2Cnt ≤ fuel → pos + reg1Cnt = buf.size →
    reg2Cnt + gap ≤ pos → reg1Cnt + reg2Cnt < 2147483648 →
    ∃ (buf' : Samples) (pos' : Nat), packLoop fuel buf reg1 reg1Cnt reg2Cnt gap = .ok (buf', (pos' : Int)) ∧
      buf'.size = buf.size ∧ pos' + (reg1Cnt + reg2Cnt) = buf.size ∧
      seg buf'.cell pos' (reg1Cnt + reg2Cnt) = seg buf.cell pos reg1Cnt ++ seg buf.cell 0 reg2Cnt
  | 0, _, _, _, _, _, _, _, _, h2, hfuel, _, _, _ => by omega
  | fuel + 1, buf, reg1, pos, reg1Cnt, reg2Cnt, gap, hpos, hgap, h2, hfuel, hend, hroom, hshort => by
      unfold packLoop
      dsimp only
      have hgap' : min gap reg2Cnt ≤ reg2Cnt := Nat.min_le_right _ _
      have hpos' : 0 < min gap reg2Cnt := by omega
      have hroom' : reg2Cnt + min gap reg2Cnt ≤ pos := by omega
      generalize min gap reg2Cnt = gap' at *
      rcases packOnce_ok hpos hgap' hend hroom' hshort with ⟨buf₁, h₁, hsize₁, hfirst, hsecond⟩
      rw [h₁, ok_bind]
      by_cases hmore : 0 < reg2Cnt - gap'
      · rw [if_pos hmore]
        rcases packLoop_ok fuel (show reg1 - gap' = ((pos - gap' : Nat) : Int) by omega) hpos' hmore (by omega)
          (show pos - gap' + (reg1Cnt + gap') = buf₁.size by omega) (by omega) (by omega)
          with ⟨buf', pos', h', hsize', hpos₁, hseg⟩
        have hcnt : reg1Cnt + gap' + (reg2Cnt - gap') = reg1Cnt + reg2Cnt := by omega
        rw [hcnt] at hpos₁ hseg
        refine ⟨buf', pos', h', by omega, by omega, ?_⟩
        calc seg buf'.cell pos' (reg1Cnt + reg2Cnt)
            = seg buf₁.cell (pos - gap') (reg1Cnt + gap') ++ seg buf₁.cell 0 (reg2Cnt - gap') := hseg
          _ = seg buf.cell pos reg1Cnt ++ seg buf.cell 0 gap' ++ seg buf.cell gap' (reg2Cnt - gap') := by
              rw [hfirst, hsecond]
          _ = seg buf.cell pos reg1Cnt ++ seg buf.cell 0 reg2Cnt := by
              rw [List.append_assoc, @seg_split _ buf.cell 0 reg2Cnt gap' hgap', Nat.zero_add]
      · obtain rfl : gap' = reg2Cnt := by omega
        rw [if_neg hmore]
        refine ⟨buf₁, pos - gap', ?_, hsize₁, by omega, hfirst⟩
        rw [hpos]
        congr 2
        omega

/-- The samples are shifted to the beginning. -/
theorem packShift_ok {buf : Samples} {reg1 : Int} {pos : Nat} (hpos : reg1 = pos)
    (hsize : buf.size = cb.capacity) (hend : pos + cb.len ≤ cb.capacity)
    (hshort : pos = 0 ∨ cb.len < 2147483648) :
    ∃ cb' : PjmediaCircBuf, packShift cb buf reg1 = .ok cb' ∧
      cb'.toCircBuf = { cb.toCircBuf with start := 0 } ∧
      seg cb'.cell 0 cb.len = seg buf.cell pos cb.len := by
  unfold packShift
  by_cases h0 : reg1 = 0
  · obtain rfl : pos = 0 := by omega
    rw [if_pos h0, ok_bind]
    exact ⟨_, rfl, rfl, rfl⟩
  · rw [if_neg h0, @pjmediaMoveSamples_ok buf 0 pos cb.len 0 _ rfl hpos (by omega) (by omega), ok_bind]
    exact ⟨_, rfl, rfl, seg_splice⟩

/-- **Packing** a buffer that has room, or whose samples do not wrap, stores them from the beginning on. -/
theorem pjmediaCircBufPackBuffer_ok (h : cb.Ok)
    (hroom : cb.start + cb.len ≤ cb.capacity ∨ cb.len < cb.capacity)
    (hshort : cb.start = 0 ∨ cb.len < 2147483648) :
    ∃ cb' : PjmediaCircBuf, pjmediaCircBufPackBuffer cb data = .ok ⟨.success, cb', data⟩ ∧
      cb'.toCircBuf = { cb.toCircBuf with start := 0 } ∧ seg cb'.cell 0 cb.len = cb.content := by
  have hs := h.start_lt
  have hl := h.len_le
  unfold pjmediaCircBufPackBuffer
  by_cases hwrap : cb.capacity < cb.start + cb.len
  · have hregions : circBufGetReadRegions cb.toCircBuf
        = (cb.capacity - cb.start, cb.len - (cb.capacity - cb.start)) := if_pos hwrap
    have hcontent := h.content_eq
    rw [hregions] at hcontent ⊢
    dsimp only at hcontent ⊢
    rw [if_neg (by omega), if_neg (by omega)]
    rcases @packLoop_ok (cb.len - (cb.capacity - cb.start)) cb.buf cb.start cb.start (cb.capacity - cb.start)
      (cb.len - (cb.capacity - cb.start)) (cb.capacity - cb.len) rfl (by omega) (by omega) (by omega)
      (show cb.start + (cb.capacity - cb.start) = cb.capacity by omega) (by omega) (by omega)
      with ⟨buf', pos, hloop, hsize, hpos, hseg⟩
    rw [show cb.capacity - cb.start + (cb.len - (cb.capacity - cb.start)) = cb.len by omega] at hpos hseg
    rw [hloop, ok_bind]
    rcases packShift_ok rfl hsize (show pos + cb.len ≤ cb.capacity from Nat.le_of_eq hpos) (by omega)
      with ⟨cb', hshift, hbuf, hcells⟩
    dsimp only
    rw [hshift, ok_bind]
    exact ⟨cb', rfl, hbuf, (hcells.trans hseg).trans hcontent.symm⟩
  · have hregions : circBufGetReadRegions cb.toCircBuf = (cb.len, 0) := if_neg hwrap
    rcases @packShift_ok cb cb.buf cb.start cb.start rfl rfl (by omega) hshort
      with ⟨cb', hshift, hbuf, hcells⟩
    rw [hregions]
    dsimp only
    rw [if_pos rfl, hshift, ok_bind]
    refine ⟨cb', rfl, hbuf, hcells.trans ?_⟩
    exact (window_eq_seg (by omega)).symm

/-- A full buffer whose samples wrap is left as it is. -/
theorem pjmediaCircBufPackBuffer_full (hwrap : cb.capacity < cb.start + cb.len) (hfull : cb.len = cb.capacity)
    (hs : cb.start < cb.capacity) :
    pjmediaCircBufPackBuffer cb data = .ok ⟨.tooBig, cb, data⟩ := by
  unfold pjmediaCircBufPackBuffer circBufGetReadRegions
  rw [if_pos hwrap]
  dsimp only
  rw [if_neg (by omega), if_pos (by omega)]

/-! ## Without the samples -/

/-- Writing changes the lengths as `circBufWrite` does. -/
theorem circBufWrite_of_samples (h : cb.Ok) (hcap : cb.capacity < 4294967296)
    (hfit : cb.len + count ≤ cb.capacity) (hdata : count ≤ data.size)
    (hp : Pieces (circBufGetWriteRegions cb.toCircBuf).2.1 count) :
    ∃ cb' : PjmediaCircBuf, pjmediaCircBufWrite cb data count = .ok ⟨.success, cb', data⟩ ∧
      circBufWrite cb.toCircBuf count = .ok cb'.toCircBuf := by
  rcases pjmediaCircBufWrite_ok h hcap hfit hdata hp with ⟨cb', hwrite, hbuf, -⟩
  refine ⟨cb', hwrite, ?_⟩
  rw [hbuf]
  exact circBufWrite_ok h hfit

/-- Packing changes them as `circBufPackBuffer` does. -/
theorem circBufPackBuffer_of_samples (h : cb.Ok) (hroom : cb.len < cb.capacity)
    (hshort : cb.start = 0 ∨ cb.len < 2147483648) {fuel : Nat} (hfuel : cb.len ≤ fuel) :
    ∃ cb' : PjmediaCircBuf, pjmediaCircBufPackBuffer cb data = .ok ⟨.success, cb', data⟩ ∧
      circBufPackBuffer fuel cb.toCircBuf = .ok cb'.toCircBuf := by
  rcases @pjmediaCircBufPackBuffer_ok cb data h (.inr hroom) hshort with ⟨cb', hpack, hbuf, -⟩
  refine ⟨cb', hpack, ?_⟩
  rw [hbuf]
  exact circBufPackBuffer_ok h hroom hfuel

end Wsola
