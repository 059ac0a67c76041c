import PjProject.Library.MachineInt

set_option autoImplicit false

/-! # The frame list of the jitter buffer

`jb_framelist_t` of `pjmedia/src/pjmedia/jbuf.c`: a circular buffer of `max_count` slots. The
window is the `size` slots from `head` on, modulo `max_count`; its slot `i` holds the frame with
the sequence number `origin + i`. A frame can be flagged *discarded* inside the window, and
`discarded_num` counts the flagged slots.

The arrays of the source are functions on the slot number, but for `content`, one array of bytes in
which the frame of a slot lies at `pos * frame_size`; what it holds before a frame is put is taken to be
zero. Sequence numbers and distances are C's `int`, counts and positions are `unsigned`: `int32` and
`uint32` stand where the source computes in these types. A function that can fail an assertion, leave
`content` or loop for ever ends in a `Fault`; loops take the number of iterations they are allowed as
`fuel`.
-/

namespace Jbuf

open MachineInt

/-- `pjmedia_jb_frame_type`, with the internal flag `PJMEDIA_JB_DISCARDED_FRAME`. -/
inductive JbFrameType where
  | missing
  | normal
  | zeroPrefetch
  | zeroEmpty
  | discarded
  deriving DecidableEq

/-- The status codes of the frame list operations. -/
inductive Status where
  | success
  | einval
  | etoosmall
  | etoomany
  | eexists
  deriving DecidableEq

/-- How a call can fail to return: a false `pj_assert`, an access outside `content`, or a loop that has
not ended within the iterations it was given. -/
inductive Fault where
  | assertion
  | outOfBounds
  | diverges
  deriving DecidableEq

/-- `jb_framelist_t`. -/
structure JbFramelist where
  frameSize : Nat
  maxCount : Nat
  content : Nat → UInt8
  frameType : Nat → JbFrameType
  contentLen : Nat → Nat
  bitInfo : Nat → Nat
  ts : Nat → Nat
  head : Nat
  size : Nat
  discardedNum : Nat
  origin : Int

/-- `INVALID_OFFSET`. -/
def invalidOffset : Int := -9999

/-- `MAX_MISORDER` of `jb_framelist_put_at`. -/
def maxMisorder : Int := 100

/-- `MAX_DROPOUT` of `jb_framelist_put_at`. -/
def maxDropout : Int := 3000

/-- Overwrite `n` cells of an array from `lo` on: `pj_memset`, `pj_bzero`. -/
def fill {α : Type} (f : Nat → α) (lo n : Nat) (v : α) : Nat → α :=
  fun i => if lo ≤ i ∧ i < lo + n then v else f i

/-- Overwrite one cell of an array. -/
def setAt {α : Type} (f : Nat → α) (pos : Nat) (v : α) : Nat → α :=
  fun i => if i = pos then v else f i

/-- The bytes that are allocated for `content`: a product of two `unsigned`. -/
def JbFramelist.contentSize (fl : JbFramelist) : Nat := uint32 (fl.frameSize * fl.maxCount : Nat)

/-- Where the frame of a slot begins in `content`. -/
def JbFramelist.offset (fl : JbFramelist) (pos : Nat) : Nat := uint32 (pos * fl.frameSize : Nat)

/-- The bytes of `content` for a slot. -/
def JbFramelist.frameAt (fl : JbFramelist) (pos : Nat) : List UInt8 :=
  (List.range fl.frameSize).map fun i => fl.content (fl.offset pos + i)

/-- The first `n` bytes for a slot are in `content`. -/
def JbFramelist.inContent (fl : JbFramelist) (pos n : Nat) : Bool :=
  n == 0 || decide (fl.offset pos + n ≤ fl.contentSize)

/-- `pj_memcpy` of the first `n` bytes of a frame to the slot `pos`. -/
def JbFramelist.copyIn (fl : JbFramelist) (pos : Nat) (frame : List UInt8) (n : Nat) : Nat → UInt8 :=
  fun i => if fl.offset pos ≤ i ∧ i < fl.offset pos + n then frame.getD (i - fl.offset pos) 0
    else fl.content i

def jbFramelistReset (fl : JbFramelist) : JbFramelist :=
  { fl with
    head := 0
    origin := invalidOffset
    size := 0
    discardedNum := 0
    frameType := fill fl.frameType 0 fl.maxCount .missing
    contentLen := fill fl.contentLen 0 fl.maxCount 0 }

def jbFramelistInit (frameSize maxCount : Nat) : JbFramelist :=
  jbFramelistReset
    { frameSize := frameSize
      maxCount := maxCount
      content := fun _ => 0
      frameType := fun _ => .missing
      contentLen := fun _ => 0
      bitInfo := fun _ => 0
      ts := fun _ => 0
      head := 0
      size := 0
      discardedNum := 0
      origin := 0 }

def jbFramelistSize (fl : JbFramelist) : Nat := fl.size

/-- The difference is computed in `unsigned`. -/
def jbFramelistEffSize (fl : JbFramelist) : Nat :=
  uint32 ((fl.size : Int) - fl.discardedNum)

def jbFramelistOrigin (fl : JbFramelist) : Int := fl.origin

/-! ## Removing frames -/

/-- The loop `for (i = lo; i < lo + n; ++i)` of `jb_framelist_remove_head`: take the flagged slots
off `discarded_num`, asserting each time that it is positive. -/
def uncountDiscarded (ft : Nat → JbFrameType) : Nat → Nat → Nat → Except Fault Nat
  | _, 0, d => .ok d
  | lo, n + 1, d =>
      if ft lo = .discarded then
        if 0 < d then uncountDiscarded ft (lo + 1) n (d - 1) else .error .assertion
      else uncountDiscarded ft (lo + 1) n d

/-- Remove the oldest frames, at most `count`. The slots are cleared in two steps when they run
over the end of the arrays. -/
def jbFramelistRemoveHead (fl : JbFramelist) (count : Nat) : Except Fault (JbFramelist × Nat) :=
  let count := if fl.size < count then fl.size else count
  if count = 0 then .ok (fl, 0)
  else
    let tmp := uint32 (fl.head + count : Nat)
    let step1 := if fl.maxCount < tmp then fl.maxCount - fl.head else count
    let step2 := if fl.maxCount < tmp then count - step1 else 0
    match uncountDiscarded fl.frameType fl.head step1 fl.discardedNum with
    | .error e => .error e
    | .ok d1 =>
        let ft1 := fill fl.frameType fl.head step1 .missing
        let len1 := fill fl.contentLen fl.head step1 0
        match uncountDiscarded ft1 0 step2 d1 with
        | .error e => .error e
        | .ok d2 =>
            .ok ({ fl with
                    frameType := fill ft1 0 step2 .missing
                    contentLen := fill len1 0 step2 0
                    discardedNum := d2
                    origin := int32 (fl.origin + count)
                    head := tmp % fl.maxCount
                    size := fl.size - count }, count)

/-! ## Getting and peeking -/

/-- What `jb_framelist_get` and `jb_framelist_peek` hand out. -/
structure FrameOut where
  frame : List UInt8
  type : JbFrameType
  size : Nat
  bitInfo : Nat
  ts : Nat
  seq : Int
  deriving DecidableEq

/-- The loop of `jb_framelist_get` that skips discarded frames. -/
def skipDiscarded : Nat → JbFramelist → Bool → Except Fault (JbFramelist × Bool)
  | 0, _, _ => .error .diverges
  | fuel + 1, fl, prevDiscarded =>
      if fl.frameType fl.head = .discarded then
        match jbFramelistRemoveHead fl 1 with
        | .error e => .error e
        | .ok (fl', _) => skipDiscarded fuel fl' true
      else .ok (fl, prevDiscarded)

/-- The head frame as it is handed out. After skipped frames a *missing* frame is returned, so that
the caller conceals the gap; `frame` is then not written. -/
def headOut (fl : JbFramelist) (prevDiscarded : Bool) : FrameOut :=
  if prevDiscarded then
    { frame := [], type := .missing, size := 0, bitInfo := 0,
      ts := fl.ts fl.head, seq := fl.origin }
  else
    { frame := fl.frameAt fl.head, type := fl.frameType fl.head,
      size := fl.contentLen fl.head, bitInfo := fl.bitInfo fl.head,
      ts := fl.ts fl.head, seq := fl.origin }

/-- The frame list without its head. -/
def dropHead (fl : JbFramelist) : JbFramelist :=
  { fl with
    frameType := setAt fl.frameType fl.head .missing
    contentLen := setAt fl.contentLen fl.head 0
    bitInfo := setAt fl.bitInfo fl.head 0
    ts := setAt fl.ts fl.head 0
    origin := int32 (fl.origin + 1)
    head := uint32 (fl.head + 1 : Nat) % fl.maxCount
    size := fl.size - 1 }

/-- Take the head frame out. All `frame_size` bytes of its slot are copied. -/
def takeHead (fl : JbFramelist) (prevDiscarded : Bool) : Except Fault (JbFramelist × FrameOut) :=
  if !prevDiscarded && !fl.inContent fl.head fl.frameSize then .error .outOfBounds
  else .ok (dropHead fl, headOut fl prevDiscarded)

def jbFramelistGet (fuel : Nat) (fl : JbFramelist) :
    Except Fault (JbFramelist × Option FrameOut) :=
  if fl.size = 0 then .ok (fl, none)
  else
    match skipDiscarded fuel fl false with
    | .error e => .error e
    | .ok (fl', prevDiscarded) =>
        if fl'.size = 0 then .ok (fl', none)
        else (takeHead fl' prevDiscarded).map fun r => (r.1, some r.2)

/-- The loop of `jb_framelist_peek`: the position of the `idx`-th frame from `pos` on that is not
discarded. -/
def peekPos (fl : JbFramelist) : Nat → Nat → Nat → Except Fault Nat
  | 0, _, _ => .error .diverges
  | fuel + 1, pos, idx =>
      if fl.frameType pos ≠ .discarded then
        if idx = 0 then .ok pos
        else peekPos fl fuel (uint32 (pos + 1 : Nat) % fl.maxCount) (idx - 1)
      else peekPos fl fuel (uint32 (pos + 1 : Nat) % fl.maxCount) idx

/-- The frame is handed out as a pointer into `content`. -/
def jbFramelistPeek (fuel : Nat) (fl : JbFramelist) (offset : Nat) :
    Except Fault (Option FrameOut) :=
  if jbFramelistEffSize fl ≤ offset then .ok none
  else
    match peekPos fl fuel fl.head offset with
    | .error e => .error e
    | .ok pos =>
        .ok (some { frame := fl.frameAt pos, type := fl.frameType pos,
                    size := fl.contentLen pos, bitInfo := fl.bitInfo pos,
                    ts := fl.ts pos, seq := int32 (fl.origin + offset) })

/-! ## Putting and discarding -/

/-- The slot a frame goes to, once it is known to be neither late nor too far ahead. A slot in use
means a duplicate. -/
def storeAt (fl : JbFramelist) (index distance : Int) (frame : List UInt8)
    (frameSize bitInfo ts : Nat) (frameType : JbFrameType) : Except Fault (JbFramelist × Status) :=
  let pos := uint32 (fl.head + distance) % fl.maxCount
  if fl.frameType pos ≠ .missing then .ok (fl, .eexists)
  else if frameType = .normal ∧ fl.inContent pos frameSize = false then .error .outOfBounds
  else
    .ok ({ fl with
        frameType := setAt fl.frameType pos frameType
        contentLen := setAt fl.contentLen pos frameSize
        bitInfo := setAt fl.bitInfo pos bitInfo
        ts := setAt fl.ts pos ts
        size := if int32 (fl.origin + int32 fl.size) ≤ index then uint32 (distance + 1)
                else fl.size
        content := if frameType = .normal then fl.copyIn pos frame frameSize else fl.content },
      .success)

/-- `jb_framelist_put_at` after the check for late frames: `fl` has the origin that check leaves. -/
def putOrdered (fl : JbFramelist) (index : Int) (frame : List UInt8)
    (frameSize bitInfo ts : Nat) (frameType : JbFrameType) :
    Except Fault (JbFramelist × Status) :=
  if fl.size = 0 ∧ fl.discardedNum ≠ 0 then .error .assertion
  else
    -- an empty buffer restarts at this frame
    let fl := if fl.size = 0 then { fl with origin := index } else fl
    let distance := int32 (index - fl.origin)
    if int32 fl.maxCount ≤ distance then
      if maxDropout < distance then
        storeAt { jbFramelistReset fl with origin := index } index 0 frame frameSize
          bitInfo ts frameType
      else .ok (fl, .etoomany)
    else storeAt fl index distance frame frameSize bitInfo ts frameType

def jbFramelistPutAt (fl : JbFramelist) (index : Int) (frame : List UInt8)
    (frameSize bitInfo ts : Nat) (frameType : JbFrameType) :
    Except Fault (JbFramelist × Status) :=
  if fl.frameSize < frameSize then .ok (fl, .einval)
  else if index < fl.origin then
    if int32 (fl.origin - index) < maxMisorder then .ok (fl, .etoosmall)
    else
      -- sequence restart: the frames in the window are renumbered to end just below `index`
      putOrdered { fl with origin := int32 (index - fl.size) } index frame frameSize
        bitInfo ts frameType
  else putOrdered fl index frame frameSize bitInfo ts frameType

def jbFramelistDiscard (fl : JbFramelist) (index : Int) : JbFramelist × Status :=
  if fl.origin ≤ index ∧ index < int32 (fl.origin + int32 fl.size) then
    let pos := uint32 (fl.head + int32 (index - fl.origin)) % fl.maxCount
    ({ fl with
        frameType := setAt fl.frameType pos .discarded
        discardedNum := uint32 (fl.discardedNum + 1 : Nat) }, .success)
  else (fl, .einval)

end Jbuf
