import PjProject.Jbuf.Framelist

set_option autoImplicit false

/-! # The jitter buffer

`struct pjmedia_jbuf` of `pjmedia/src/pjmedia/jbuf.c` and its operations: the frame list of
`Jbuf/Framelist.lean` with the burst level calculation, the prefetch state and the two discard
algorithms. The delay and burst statistics (`pj_math_stat`) and the name are left out: no
operation reads them.
-/

namespace Jbuf

open MachineInt

/-- `enum pjmedia_jb_op`. -/
inductive JbOp where
  | init
  | put
  | get
  deriving DecidableEq

/-- `JB_STATUS_INITIALIZING` and `JB_STATUS_PROCESSING`. -/
inductive JbStatus where
  | initializing
  | processing
  deriving DecidableEq

/-- `pjmedia_jb_discard_algo`; it also stands for the function pointer `jb_discard_algo`. -/
inductive JbDiscardAlgo where
  | none
  | static
  | progressive
  deriving DecidableEq

/-- `struct pjmedia_jbuf`. -/
structure PjmediaJbuf where
  jbFrameSize : Nat
  jbFramePtime : Nat
  jbMaxCount : Nat
  jbInitPrefetch : Int
  jbMinPrefetch : Int
  jbMaxPrefetch : Int
  jbMaxBurst : Int
  jbMinShrinkGap : Int
  jbDiscardAlgo : JbDiscardAlgo
  jbFramelist : JbFramelist
  jbLevel : Int
  jbMaxHistLevel : Int
  jbStableHist : Int
  jbLastOp : JbOp
  jbEffLevel : Int
  jbPrefetch : Int
  jbPrefetching : Bool
  jbStatus : JbStatus
  jbInitCycleCnt : Int
  jbDiscardRef : Int
  jbDiscardDist : Nat
  jbLost : Nat
  jbDiscard : Nat
  jbEmpty : Nat

def jbDefaultInitDelay : Nat := 15
def maxBurstMsec : Nat := 1000
def initCycle : Int := 10
def staDiscSafeShrinkingDiff : Int := 1
def jbufDiscMinGap : Nat := 200
def jbufProDiscMinBurst : Nat := 1
def jbufProDiscMaxBurst : Nat := 100
def jbufProDiscT1 : Nat := 2000
def jbufProDiscT2 : Nat := 10000
def stableHistoryLimit : Int := 20

def pjmediaJbufReset (jb : PjmediaJbuf) : PjmediaJbuf :=
  { jb with
    jbLevel := 0
    jbLastOp := .init
    jbStableHist := 0
    jbStatus := .initializing
    jbInitCycleCnt := 0
    jbMaxHistLevel := 0
    jbPrefetching := decide (jb.jbPrefetch ≠ 0)
    jbDiscardDist := 0
    jbFramelist := jbFramelistReset jb.jbFramelist }

def pjmediaJbufSetDiscard (jb : PjmediaJbuf) (algo : JbDiscardAlgo) : PjmediaJbuf :=
  { jb with jbDiscardAlgo := algo }

/-- The structure is allocated zeroed. -/
def pjmediaJbufCreate (frameSize ptime maxCount : Nat) : PjmediaJbuf :=
  pjmediaJbufReset (pjmediaJbufSetDiscard
    { jbFrameSize := frameSize
      jbFramePtime := ptime
      jbMaxCount := maxCount
      jbInitPrefetch := 0
      jbMinPrefetch := 0
      jbMaxPrefetch := int32 (uint32 (maxCount * 4 : Nat) / 5 : Nat)
      jbMaxBurst := int32 (max (maxBurstMsec / ptime) (uint32 (maxCount * 3 : Nat) / 4) : Nat)
      jbMinShrinkGap := int32 (jbufDiscMinGap / ptime : Nat)
      jbDiscardAlgo := .none
      jbFramelist := jbFramelistInit frameSize maxCount
      jbLevel := 0
      jbMaxHistLevel := 0
      jbStableHist := 0
      jbLastOp := .init
      jbEffLevel := 0
      jbPrefetch := int32 (min jbDefaultInitDelay (uint32 (maxCount * 4 : Nat) / 5) : Nat)
      jbPrefetching := false
      jbStatus := .initializing
      jbInitCycleCnt := 0
      jbDiscardRef := 0
      jbDiscardDist := 0
      jbLost := 0
      jbDiscard := 0
      jbEmpty := 0 } .progressive)

def pjmediaJbufSetFixed (jb : PjmediaJbuf) (prefetch : Nat) : PjmediaJbuf × Status :=
  if prefetch ≤ jb.jbMaxCount then
    (pjmediaJbufSetDiscard
      { jb with
        jbMinPrefetch := int32 prefetch
        jbMaxPrefetch := int32 prefetch
        jbPrefetch := int32 prefetch
        jbInitPrefetch := int32 prefetch } .none, .success)
  else (jb, .einval)

def pjmediaJbufSetAdaptive (jb : PjmediaJbuf) (prefetch minPrefetch maxPrefetch : Nat) :
    PjmediaJbuf × Status :=
  if minPrefetch ≤ maxPrefetch ∧ prefetch ≤ maxPrefetch ∧ maxPrefetch ≤ jb.jbMaxCount then
    ({ jb with
        jbPrefetch := int32 prefetch
        jbInitPrefetch := int32 prefetch
        jbMinPrefetch := int32 minPrefetch
        jbMaxPrefetch := int32 maxPrefetch }, .success)
  else (jb, .einval)

/-! ## Burst level and discard algorithms -/

/-- `jbuf_calculate_jitter`. -/
def jbufCalculateJitter (jb : PjmediaJbuf) : PjmediaJbuf :=
  let jb := { jb with jbMaxHistLevel := max jb.jbMaxHistLevel jb.jbLevel }
  if jb.jbLevel < jb.jbEffLevel then
    -- burst level is decreasing
    let jb := { jb with jbStableHist := int32 (jb.jbStableHist + 1) }
    if stableHistoryLimit < jb.jbStableHist then
      let diff := max 1 (Int.tdiv (int32 (jb.jbEffLevel - jb.jbMaxHistLevel)) 3)
      let effLevel := int32 (jb.jbEffLevel - diff)
      { jb with
        jbEffLevel := effLevel
        jbPrefetch := if jb.jbInitPrefetch ≠ 0
          then min (max effLevel jb.jbMinPrefetch) jb.jbMaxPrefetch else jb.jbPrefetch
        jbMaxHistLevel := 0
        jbStableHist := 0 }
    else jb
  else if jb.jbEffLevel < jb.jbLevel then
    -- burst level is increasing
    let effLevel := min jb.jbMaxHistLevel (int32 (jb.jbMaxCount * 4 / 5 : Nat))
    { jb with
      jbEffLevel := effLevel
      jbPrefetch := if jb.jbInitPrefetch ≠ 0
        then max (min effLevel jb.jbMaxPrefetch) jb.jbMinPrefetch else jb.jbPrefetch
      jbStableHist := 0 }
  else { jb with jbStableHist := 0 }

/-- `jbuf_discard_static`. -/
def jbufDiscardStatic (jb : PjmediaJbuf) : Except Fault PjmediaJbuf :=
  let burstLevel := max jb.jbEffLevel jb.jbLevel
  let diff := int32 ((jbFramelistEffSize jb.jbFramelist : Int) - int32 (burstLevel * 2))
  if staDiscSafeShrinkingDiff ≤ diff then
    let seqOrigin := jbFramelistOrigin jb.jbFramelist
    -- the reference is moved back after a sequence restart
    let ref := if seqOrigin < jb.jbDiscardRef then seqOrigin else jb.jbDiscardRef
    if jb.jbMinShrinkGap ≤ int32 (seqOrigin - ref) then
      match jbFramelistRemoveHead jb.jbFramelist 1 with
      | .error e => .error e
      | .ok (fl, removed) =>
          .ok { jb with
                jbFramelist := fl
                jbDiscardRef := jbFramelistOrigin fl
                jbDiscard := uint32 (jb.jbDiscard + removed : Nat) }
    else .ok { jb with jbDiscardRef := ref }
  else .ok jb

/-- The discard duration `T` of `jbuf_discard_progressive`, in milliseconds. -/
def discardDuration (burstLevel : Nat) : Nat :=
  if burstLevel ≤ jbufProDiscMinBurst then jbufProDiscT1
  else if jbufProDiscMaxBurst ≤ burstLevel then jbufProDiscT2
  else jbufProDiscT1 + (jbufProDiscT2 - jbufProDiscT1) * (burstLevel - jbufProDiscMinBurst) /
    (jbufProDiscMaxBurst - jbufProDiscMinBurst)

/-- The last sequence number in the buffer, as `jbuf_discard_progressive` computes it. -/
def lastSeq (fl : JbFramelist) : Int :=
  int32 (jbFramelistOrigin fl + jbFramelistSize fl - 1)

/-- `jb_discard_ref` as the schedule of `jbuf_discard_progressive` leaves it: a new schedule starts
at the last frame, and a sequence restart moves the reference back to it. -/
def scheduledRef (jb : PjmediaJbuf) : Int :=
  if jb.jbDiscardDist = 0 then lastSeq jb.jbFramelist
  else if lastSeq jb.jbFramelist < jb.jbDiscardRef then lastSeq jb.jbFramelist
  else jb.jbDiscardRef

/-- `jb_discard_dist` as the schedule leaves it, for a latency of `overflow` frames above the
burst level. -/
def scheduledDist (jb : PjmediaJbuf) (burstLevel overflow : Nat) : Nat :=
  uint32 (max jb.jbMinShrinkGap
    (int32 (discardDuration burstLevel / overflow / jb.jbFramePtime : Nat)))

/-- `jbuf_discard_progressive`. -/
def jbufDiscardProgressive (jb : PjmediaJbuf) : PjmediaJbuf :=
  if jb.jbLastOp ≠ .put then jb
  else
    let curSize := jbFramelistEffSize jb.jbFramelist
    let burstLevel := uint32 (max jb.jbEffLevel jb.jbLevel)
    if curSize ≤ burstLevel then { jb with jbDiscardDist := 0 }
    else
      let ref := scheduledRef jb
      let dist := scheduledDist jb burstLevel (curSize - burstLevel)
      if int32 (ref + int32 dist) ≤ lastSeq jb.jbFramelist then
        let discardSeq :=
          if int32 (ref + dist) < jbFramelistOrigin jb.jbFramelist
          then jbFramelistOrigin jb.jbFramelist else int32 (ref + dist)
        { jb with
          jbFramelist := (jbFramelistDiscard jb.jbFramelist discardSeq).1
          jbDiscardDist := dist
          jbDiscardRef := discardSeq }
      else { jb with jbDiscardDist := dist, jbDiscardRef := ref }

/-- The call through `jb_discard_algo` at the end of `jbuf_update`. -/
def callDiscardAlgo (jb : PjmediaJbuf) : Except Fault PjmediaJbuf :=
  match jb.jbStatus, jb.jbDiscardAlgo with
  | .processing, .progressive => .ok (jbufDiscardProgressive jb)
  | .processing, .static => jbufDiscardStatic jb
  | _, _ => .ok jb

/-- `jbuf_update`. -/
def jbufUpdate (jb : PjmediaJbuf) (oper : JbOp) : Except Fault PjmediaJbuf :=
  if jb.jbLastOp = oper then callDiscardAlgo jb
  else
    let jb := { jb with jbLastOp := oper }
    if jb.jbStatus = .initializing then
      let jb := { jb with jbInitCycleCnt := int32 (jb.jbInitCycleCnt + 1) }
      if initCycle ≤ jb.jbInitCycleCnt ∧ oper = .get then
        let jb := jbufCalculateJitter
          { jb with jbStatus := .processing, jbLevel := min jb.jbLevel jb.jbMaxBurst }
        callDiscardAlgo { jb with jbLevel := 0 }
      else .ok { jb with jbLevel := 0 }
    else
      let jb := if oper = .get ∧ jb.jbLevel ≤ jb.jbMaxBurst then jbufCalculateJitter jb else jb
      callDiscardAlgo { jb with jbLevel := 0 }

/-! ## Put, get, peek and remove -/

/-- The loop of `pjmedia_jbuf_put_frame3`: while the frame is too far ahead, remove as few old
frames as make room for it. The last component counts the removed frames. -/
def putLoop (jb : PjmediaJbuf) (frame : List UInt8) (frameSize bitInfo : Nat) (frameSeq : Int)
    (ts : Nat) : Nat → JbFramelist × Status → Nat → Except Fault (JbFramelist × Status × Nat)
  | 0, _, _ => .error .diverges
  | fuel + 1, (fl, status), removed =>
      if status = .etoomany then
        let distance := int32 (int32 (int32 (frameSeq - jbFramelistOrigin fl)
          - int32 jb.jbMaxCount) + 1)
        if 0 < distance then
          match jbFramelistRemoveHead fl (uint32 distance) with
          | .error e => .error e
          | .ok (fl', n) =>
              match jbFramelistPutAt fl' frameSeq frame frameSize bitInfo ts .normal with
              | .error e => .error e
              | .ok r => putLoop jb frame frameSize bitInfo frameSeq ts fuel r (removed + n)
        else .error .assertion
      else .ok (fl, status, removed)

/-- `pjmedia_jbuf_put_frame3`, with the flag it reports: whether the frame was discarded. -/
def pjmediaJbufPutFrame3 (fuel : Nat) (jb : PjmediaJbuf) (frame : List UInt8) (bitInfo : Nat)
    (frameSeq : Int) (ts : Nat) : Except Fault (PjmediaJbuf × Bool) :=
  let curSize := int32 (jbFramelistEffSize jb.jbFramelist)
  let minFrameSize := min frame.length jb.jbFrameSize
  match jbFramelistPutAt jb.jbFramelist frameSeq frame minFrameSize bitInfo ts .normal with
  | .error e => .error e
  | .ok r =>
      match putLoop jb frame minFrameSize bitInfo frameSeq ts fuel r 0 with
      | .error e => .error e
      | .ok (fl, status, removed) =>
          let newSize := int32 (jbFramelistEffSize fl)
          let jb := { jb with
            jbFramelist := fl, jbDiscard := uint32 (jb.jbDiscard + removed : Nat) }
          if status = .success then
            let jb := { jb with
              jbPrefetching := jb.jbPrefetching && decide (newSize < jb.jbPrefetch)
              jbLevel := int32 (jb.jbLevel +
                if curSize < newSize then int32 (newSize - curSize) else 1) }
            match jbufUpdate jb .put with
            | .error e => .error e
            | .ok jb => .ok (jb, false)
          else .ok ({ jb with jbDiscard := uint32 (jb.jbDiscard + 1 : Nat) }, true)

/-- What `pjmedia_jbuf_get_frame3` does before `jbuf_update`: the state and the reported frame
type, with the frame when one was taken from the frame list. -/
def getFrame (fuel : Nat) (jb : PjmediaJbuf) :
    Except Fault (PjmediaJbuf × JbFrameType × Option FrameOut) :=
  if jb.jbPrefetching then
    .ok ({ jb with jbEmpty := uint32 (jb.jbEmpty + 1 : Nat) }, .zeroPrefetch, none)
  else
    match jbFramelistGet fuel jb.jbFramelist with
    | .error e => .error e
    | .ok (fl, some out) =>
        if out.type = .normal then
          .ok ({ jb with jbFramelist := fl }, .normal, some out)
        else
          .ok ({ jb with jbFramelist := fl, jbLost := uint32 (jb.jbLost + 1 : Nat) },
            .missing, some out)
    | .ok (fl, none) =>
        .ok ({ jb with
                jbFramelist := fl
                jbPrefetching := jb.jbPrefetching || decide (jb.jbPrefetch ≠ 0)
                jbEmpty := uint32 (jb.jbEmpty + 1 : Nat) }, .zeroEmpty, none)

/-- `pjmedia_jbuf_get_frame3`. -/
def pjmediaJbufGetFrame3 (fuel : Nat) (jb : PjmediaJbuf) :
    Except Fault (PjmediaJbuf × JbFrameType × Option FrameOut) :=
  match getFrame fuel jb with
  | .error e => .error e
  | .ok (jb, type, out) =>
      match jbufUpdate { jb with jbLevel := int32 (jb.jbLevel + 1) } .get with
      | .error e => .error e
      | .ok jb => .ok (jb, type, out)

/-- `pjmedia_jbuf_peek_frame`: it changes nothing. -/
def pjmediaJbufPeekFrame (fuel : Nat) (jb : PjmediaJbuf) (offset : Nat) :
    Except Fault (JbFrameType × Option FrameOut) :=
  match jbFramelistPeek fuel jb.jbFramelist offset with
  | .error e => .error e
  | .ok none => .ok (.zeroEmpty, none)
  | .ok (some out) => .ok (if out.type = .normal then .normal else .missing, some out)

/-- The loop of `pjmedia_jbuf_remove_frame`: as long as the last removal took discarded frames
along, remove that many more. -/
def removeMore : Nat → JbFramelist → Nat → Nat → Except Fault (JbFramelist × Nat)
  | 0, _, _, _ => .error .diverges
  | fuel + 1, fl, lastDiscardNum, count =>
      if fl.discardedNum < lastDiscardNum then
        let frameCnt := lastDiscardNum - fl.discardedNum
        match jbFramelistRemoveHead fl frameCnt with
        | .error e => .error e
        | .ok (fl', n) =>
            removeMore fuel fl' fl.discardedNum (uint32 ((count : Int) - frameCnt + n))
      else .ok (fl, count)

/-- `pjmedia_jbuf_remove_frame`. -/
def pjmediaJbufRemoveFrame (fuel : Nat) (jb : PjmediaJbuf) (frameCnt : Nat) :
    Except Fault (PjmediaJbuf × Nat) :=
  match jbFramelistRemoveHead jb.jbFramelist frameCnt with
  | .error e => .error e
  | .ok (fl, count) =>
      match removeMore fuel fl jb.jbFramelist.discardedNum count with
      | .error e => .error e
      | .ok (fl, count) => .ok ({ jb with jbFramelist := fl }, count)

/-! ## The machine -/

/-- A call of the jitter buffer's interface. -/
inductive JbufCall where
  | putFrame3 (frame : List UInt8) (bitInfo : Nat) (frameSeq : Int) (ts : Nat)
  | getFrame3
  | peekFrame (offset : Nat)
  | removeFrame (frameCnt : Nat)
  | reset
  | setFixed (prefetch : Nat)
  | setAdaptive (prefetch minPrefetch maxPrefetch : Nat)
  | setDiscard (algo : JbDiscardAlgo)

/-- The state after a call. Every loop of the call is given `fuel` iterations. -/
def jbufStep (fuel : Nat) (jb : PjmediaJbuf) : JbufCall → Except Fault PjmediaJbuf
  | .putFrame3 frame bitInfo frameSeq ts =>
      (pjmediaJbufPutFrame3 fuel jb frame bitInfo frameSeq ts).map (·.1)
  | .getFrame3 => (pjmediaJbufGetFrame3 fuel jb).map (·.1)
  | .peekFrame offset => (pjmediaJbufPeekFrame fuel jb offset).map (fun _ => jb)
  | .removeFrame frameCnt => (pjmediaJbufRemoveFrame fuel jb frameCnt).map (·.1)
  | .reset => .ok (pjmediaJbufReset jb)
  | .setFixed prefetch => .ok (pjmediaJbufSetFixed jb prefetch).1
  | .setAdaptive prefetch minPrefetch maxPrefetch =>
      .ok (pjmediaJbufSetAdaptive jb prefetch minPrefetch maxPrefetch).1
  | .setDiscard algo => .ok (pjmediaJbufSetDiscard jb algo)

end Jbuf
