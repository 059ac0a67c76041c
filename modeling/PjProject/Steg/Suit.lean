import Mathlib.Logic.Function.Basic
import PjProject.Library.Buffer
import PjProject.Library.MachineInt

set_option autoImplicit false

/-! # The steganographic transport

`CStegSuit` of `third_party/pjsua_libsteg/StegSuit.cpp`: a sliding-window protocol whose frames are
hidden in the RTP packets of a call. Every packet carries a frame of three header bytes and, if it
is not empty, a payload. The header has a type, a length, a parity bit, a 4-bit sequence number and
a 4-bit acknowledgement, which is the number the sender expects next.

The two sides use the same codec during a call; it decides how many bytes a packet can carry. Here a
packet is the frame that it carries; how a frame is hidden in an RTP packet, and when it gets across,
is in `Steg.Transport`. A frame is its header bytes and the bytes behind them; the waiting times are
unbounded.

`taken` and `committed` are records for the proofs: the frames a side has taken from its send
buffers, and those it has appended to its receive buffers.
-/

namespace Steg

/-- The payload types that `Control` knows. -/
inductive Codec where
  | pcmaSmall
  | g711
  | ilbc20
  | ilbc30
  deriving DecidableEq

/-- `SAEDU`: the payload bytes of a packet. -/
def Codec.saedu : Codec → Nat
  | .pcmaSmall => 37
  | .g711 => 122
  | .ilbc20 => 9
  | .ilbc30 => 11

/-! ## Frames -/

/-- The bytes of a frame. -/
structure Frame where
  b0 : UInt8
  b1 : UInt8
  b2 : UInt8
  data : List UInt8
  deriving DecidableEq

/-- `getSeqFromCursor`. -/
def getSeqFromCursor (f : Frame) : Nat := f.b2.toNat / 16

/-- `getTypeFromCursor`. -/
def getTypeFromCursor (f : Frame) : Nat := f.b0.toNat / 8 % 4

/-- `getLenFromCursor`. -/
def getLenFromCursor (f : Frame) : Nat := f.b0.toNat % 8 + f.b1.toNat % 128 * 8

/-- `m_Rcv.Frame[2] & 0xF`. -/
def getAnnFromCursor (f : Frame) : Nat := f.b2.toNat % 16

/-- `setLenToCursor`, with the bytes behind the header. -/
def setLenToCursor (len type odd seq lastRSeq : Nat) (data : List UInt8) : Frame where
  b0 := UInt8.ofNat (64 + 8 * (type + 1) + len % 8)
  b1 := UInt8.ofNat (len / 8 + odd * 128)
  b2 := UInt8.ofNat (seq * 16 + (lastRSeq + 1) % 16)
  data := data

/-- `m_CheckTable`: the parity of the bits of a byte. -/
def checkTable (b : UInt8) : Nat := ((List.range 8).map fun k => b.toNat / 2 ^ k % 2).sum % 2

/-- The parity of a payload. -/
def parity (data : List UInt8) : Nat := (data.map checkTable).sum % 2

/-! ## The state of one side -/

/-- `STMFrame`. -/
structure STMFrame where
  frame : Frame
  length : Nat
  time : Nat
  deriving DecidableEq

/-- An unused slot. -/
def STMFrame.empty : STMFrame := ⟨⟨0, 0, 0, []⟩, 0, 0⟩

/-- The state of a `CStegSuit`. `sd` are the bytes that are left to be sent and `rc` those
received, as messages (`0`) and as a file (`1`). -/
structure Suit where
  sd : Nat → List UInt8
  rc : Nat → List UInt8
  seq : Nat
  lastRSEQ : Nat
  lastRANN : Nat
  window : Nat → STMFrame
  cache : Nat → STMFrame
  threshold : Nat
  retranstep : Nat
  retrans : List STMFrame
  taken : List (Nat × List UInt8)
  committed : List (Nat × List UInt8)
  overflow : Bool

/-- `LThreshold`. -/
def lThreshold : Nat := 40

/-- `HThreshold`. -/
def hThreshold : Nat := 1000

/-- `Create`. -/
def create : Suit where
  sd _ := []
  rc _ := []
  seq := 0
  lastRSEQ := 0
  lastRANN := 1
  window _ := .empty
  cache _ := .empty
  threshold := lThreshold
  retranstep := 0
  retrans := []
  taken := []
  committed := []
  overflow := false

/-- `Configure`, while the call goes on. The sequence counters and the retransmission queue stay. -/
def configure (s : Suit) : Suit :=
  { s with sd := Function.update s.sd 1 []
           rc := Function.update s.rc 1 []
           window := fun i => { s.window i with length := 0, time := 0 }
           cache := fun i => { s.cache i with length := 0, time := 0 } }

/-- `SIADU`, the size of the buffers. -/
def siadu (saedu : Nat) : Nat := max (saedu * 8 * 2) 520

/-- `Send`. -/
def send (saedu : Nat) (s : Suit) (src : List UInt8) (type : Nat) : Suit :=
  if src.length > siadu saedu ∨ (type ≠ 1 ∧ type ≠ 2) then s
  else { s with sd := Function.update s.sd (type - 1) src }

/-! ## Sequence comparisons -/

/-- `Between`: `seq` is one of the eight numbers after `lastRSEQ`. -/
def between (seq lastRSEQ : Nat) : Bool :=
  (List.range 8).any fun cnt => seq == (lastRSEQ + cnt + 1) % 16

/-- `Inside`: `seq` is one of the eight numbers before `lastRANN`. -/
def inside (seq lastRANN : Nat) : Bool :=
  (List.range 8).any fun cnt => seq == (lastRANN + 15 * cnt + 15) % 16

/-! ## Sending -/

/-- The first half of `Retransmission`: the waiting times and the threshold. -/
def age (s : Suit) : Suit :=
  let window := fun i => if (s.window i).length ≠ 0 then { s.window i with time := (s.window i).time + 1 }
    else s.window i
  let threshold := min s.threshold hThreshold
  { s with window := window
           threshold := if (window ((s.lastRANN + 7) % 8)).length ≠ 0 then lThreshold else threshold }

/-- The slots that the other side has acknowledged are released. -/
def release (s : Suit) : Suit :=
  { s with window := fun i =>
      if (s.window i).length ≠ 0 ∧ inside (getSeqFromCursor (s.window i).frame) s.lastRANN then .empty
      else s.window i }

/-- The slot that has waited longest. -/
def oldest (s : Suit) : Nat :=
  (List.range 8).foldl (fun pos i => if (s.window i).time > (s.window pos).time then i else pos) 0

/-- The second half of `Retransmission`: a frame that has waited too long is queued again. -/
def requeue (s : Suit) : Suit :=
  let slot := s.window (oldest s)
  if slot.time > s.threshold then
    { s with threshold := s.threshold + lThreshold
             retrans := s.retrans.tail ++ [⟨slot.frame, slot.length, 0⟩] }
  else s

/-- `Retransmission`. -/
def retransmission (s : Suit) : Suit := requeue (release (age s))

/-- `STMSheader` for a frame that is sent again: its acknowledgement is renewed. -/
def resendFrame (f : Frame) (lastRSEQ : Nat) : Frame :=
  { f with b2 := UInt8.ofNat (f.b2.toNat / 16 * 16 + (lastRSEQ + 1) % 16) }

/-- `STMSheader` for a packet without a payload. -/
def emptyFrame (s : Suit) : Frame :=
  setLenToCursor 0 0 0 ((s.lastRANN + 16 - 1) % 16) s.lastRSEQ []

/-- `STMSheader` for `data` of the buffer `i`: the new frame. -/
def newFrame (s : Suit) (i : Nat) (data : List UInt8) : Frame :=
  setLenToCursor data.length i (parity data) ((s.seq + 1) % 16) s.lastRSEQ data

/-- `STMSheader` for `data` of the buffer `i`: the data is taken and the frame put into the
window. -/
def takeData (s : Suit) (i : Nat) (data : List UInt8) : Suit :=
  let slot := (s.seq + 1) % 16 % 8
  { s with seq := (s.seq + 1) % 16
           sd := Function.update s.sd i ((s.sd i).drop data.length)
           window := Function.update s.window slot
             { s.window slot with frame := newFrame s i data, length := data.length + 3 }
           taken := s.taken ++ [(i + 1, data)] }

/-- The buffer that `STMSdata` takes its data from. -/
def source (s : Suit) : Option Nat :=
  if (s.sd 0).length ≠ 0 then some 0 else if (s.sd 1).length ≠ 0 then some 1 else none

/-- The part of `Embedding` for a frame that is not sent again. -/
def embedNew (saedu : Nat) (s : Suit) : Suit × Frame :=
  let s := { s with retranstep := 0 }
  -- A full window and empty buffers both give an empty packet.
  if (s.window ((s.seq + 1) % 8)).length ≠ 0 then (s, emptyFrame s)
  else
    match source s with
    | none => (s, emptyFrame s)
    | some i =>
        let data := (s.sd i).take saedu
        (takeData s i data, newFrame s i data)

/-- `Embedding`: the new state and the frame that the packet carries. -/
def embedding (saedu : Nat) (s : Suit) : Suit × Frame :=
  let s := retransmission s
  match s.retrans with
  | [] => embedNew saedu s
  | r :: l =>
      if s.retranstep = 0 then
        -- The whole frame is embedded, so it leaves the queue; an empty one would not.
        if r.length ≠ 0 then
          ({ s with retranstep := 1, retrans := l }, resendFrame r.frame s.lastRSEQ)
        else ({ s with retranstep := 0 }, emptyFrame s)
      else embedNew saedu s

/-! ## Receiving -/

/-- The first half of `STMR`. A payload with a wrong parity ends it. -/
def accept (s : Suit) (f : Frame) : Option Suit :=
  if f.b0.toNat / 32 ≠ 2 then some s
  else if getLenFromCursor f = 0 then some { s with lastRANN := getAnnFromCursor f }
  else if parity (f.data.take (getLenFromCursor f)) ≠ f.b1.toNat / 128 then none
  else if between (getSeqFromCursor f) s.lastRSEQ then
    let slot := getSeqFromCursor f % 8
    some { s with cache := Function.update s.cache slot { s.cache slot with frame := f, length := 1 }
                  lastRANN := getAnnFromCursor f }
  else some s

/-- The payload of a frame is appended to a receive buffer. A full buffer is emptied first. -/
def commit (saedu : Nat) (s : Suit) (type : Nat) (data : List UInt8) : Suit :=
  let full := (s.rc (type - 1)).length > siadu saedu - data.length
  { s with rc := Function.update s.rc (type - 1)
             ((if full then [] else s.rc (type - 1)) ++ data)
           committed := s.committed ++ [(type, data)]
           overflow := s.overflow || full }

/-- The loop of `STMR` that commits the frames that are next in order. Every round empties a slot,
so there are at most eight. -/
def commitLoop (saedu : Nat) : Nat → Suit → Suit
  | 0, s => s
  | fuel + 1, s =>
      let slot := (s.lastRSEQ + 1) % 8
      if (s.cache slot).length ≠ 0 then
        let f := (s.cache slot).frame
        let len := getLenFromCursor f
        let s := { s with cache := Function.update s.cache slot { s.cache slot with length := 0 }
                          lastRSEQ := getSeqFromCursor f }
        let s := if len ≠ 0 then commit saedu s (getTypeFromCursor f) (f.data.take len) else s
        commitLoop saedu fuel s
      else s

/-- `STMR`. -/
def stmr (saedu : Nat) (s : Suit) (f : Frame) : Suit :=
  match accept s f with
  | none => s
  | some s => commitLoop saedu 8 s

/-- `Retriving`. A frame that is longer than a packet can carry is not one. -/
def retriving (saedu : Nat) (s : Suit) (f : Frame) : Suit :=
  if getLenFromCursor f > saedu then s else stmr saedu s f

/-! ## Two sides -/

/-- Two connected sides and the packets on their way from the first to the second and back. -/
structure Call where
  suit : Suit
  peer : Suit
  out : List Frame
  back : List Frame

/-- The call as the second side sees it. -/
def Call.swap (c : Call) : Call := ⟨c.peer, c.suit, c.back, c.out⟩

/-- What can happen at one side. -/
inductive Action where
  | send (src : List UInt8) (type : Nat)
  | embedding
  | retriving
  | lose (i : Nat)
  | configure
  deriving DecidableEq

/-- An action of the first side: `lose i` loses one of the packets that it has sent. -/
def act (codec : Codec) (c : Call) : Action → Call
  | .send src type => { c with suit := send codec.saedu c.suit src type }
  | .embedding =>
      let r := embedding codec.saedu c.suit
      { c with suit := r.1, out := c.out ++ [r.2] }
  | .retriving =>
      match c.back with
      | [] => c
      | f :: l => { c with suit := retriving codec.saedu c.suit f, back := l }
  | .lose i => { c with out := c.out.eraseIdx i }
  | .configure => { c with suit := configure c.suit }

/-- One step of a call: an action of the first side (`true`) or of the second one. -/
def step (codec : Codec) (c : Call) (a : Bool × Action) : Except Empty Call :=
  .ok (if a.1 then act codec c a.2 else (act codec c.swap a.2).swap)

/-- A call begins with two new sides and nothing on the way. -/
def Call.begin : Call := ⟨create, create, [], []⟩

end Steg

/-! ## The receiving side in memory

`SAER`, `STMR`, `Receive` and `Configure` of `third_party/pjsua_libsteg/StegSuit.cpp`, with the
buffers `RC` as the memory that they are: a storage of `SIADU` bytes, a length and a cursor. An access
outside an array is a fault.

`extract` is the header that `SAER` takes from the bits of an RTP header; it is made of three bytes of
the SSRC (`extract_bytes`). What the decoder leaves behind this header is any bytes.
-/

namespace Steg

open Buffer MachineInt

/-- How an operation can go wrong: it accesses memory outside an array, or a loop has not ended. -/
inductive MemFault where
  | outOfBounds
  | diverges
  deriving DecidableEq

/-! ## The header -/

/-- The 12 bytes of an RTP header. -/
abbrev RtpHeader := Fin 12 → UInt8

scoped instance neZeroBytes : NeZero 12 := ⟨by decide⟩

/-- A run of bits of the position book, from the bit `start` on. -/
def positions (start n : Nat) : List (Fin 12 × Nat) :=
  (List.range n).map fun k => (Fin.ofNat 12 ((start + k) / 8), 7 - (start + k) % 8)

/-- `InitPosBook` of `CStegRTP`: the byte and the bit of each position. -/
def posBook : List (Fin 12 × Nat) :=
  positions 40 24 ++ [(1, 7)] ++ positions 9 7 ++ positions 64 32 ++ positions 16 16

/-- The bit of a carrier at a position. -/
def carrierBit (carrier : RtpHeader) (p : Fin 12 × Nat) : UInt8 :=
  (carrier p.1 >>> UInt8.ofNat p.2) &&& 1

/-- `Extract`: the byte `i` of the data, whose bits start at the position 40. -/
def extract (carrier : RtpHeader) (i : Nat) : UInt8 :=
  (List.range 8).foldl (fun d k =>
    d + (carrierBit carrier (posBook.getD (40 + 8 * i + k) (0, 0)) <<< UInt8.ofNat (7 - k))) 0

/-- A byte is made of its bits. -/
theorem byte_of_bits (b : UInt8) :
    (List.range 8).foldl (fun d k =>
      d + (((b >>> UInt8.ofNat (7 - k)) &&& 1) <<< UInt8.ofNat (7 - k))) 0 = b := by
  have hall : ∀ n : Fin 256, (List.range 8).foldl (fun d k =>
      d + (((UInt8.ofNat n.val >>> UInt8.ofNat (7 - k)) &&& 1) <<< UInt8.ofNat (7 - k))) 0 =
        UInt8.ofNat n.val := by
    decide +kernel
  have hb := hall ⟨b.toNat, b.toNat_lt⟩
  simpa using hb

/-- The header of a frame is in the last three bytes of the SSRC. -/
theorem extract_bytes (carrier : RtpHeader) :
    extract carrier 0 = carrier 9 ∧ extract carrier 1 = carrier 10 ∧
      extract carrier 2 = carrier 11 := by
  refine ⟨?_, ?_, ?_⟩
  · exact byte_of_bits (carrier 9)
  · exact byte_of_bits (carrier 10)
  · exact byte_of_bits (carrier 11)

/-! ## The state -/

/-- `SIABuffer`. The cursor is a position in the storage. -/
structure SIABuffer where
  storage : List UInt8
  length : Nat
  cursor : Nat
  deriving DecidableEq

/-- A buffer after its storage has been set to zeros. -/
def SIABuffer.cleared (siadu : Nat) : SIABuffer := ⟨List.replicate siadu 0, 0, 0⟩

/-- What `STMR` and `Receive` work on: `RC`, the cache and the two sequence numbers. -/
structure Reception where
  rc : Nat → SIABuffer
  cache : Nat → STMFrame
  lastRSEQ : Nat
  lastRANN : Nat

/-- `Create` and `Allocate`. -/
def Reception.create (saedu : Nat) : Reception where
  rc _ := .cleared (siadu saedu)
  cache _ := .empty
  lastRSEQ := 0
  lastRANN := 1

/-- `Configure`, while the call goes on. -/
def Reception.configure (saedu : Nat) (r : Reception) : Reception :=
  { r with rc := Function.update r.rc 1 (.cleared (siadu saedu))
           cache := fun i => { r.cache i with length := 0, time := 0 } }

/-! ## `SAER` and `STMR` -/

/-- `SAER`: the frame of a packet. `secMsg` are the bytes that the decoder leaves at
`m_chRtrSecMsg`. -/
def saer (saedu : Nat) (hdr : RtpHeader) (secMsg : Nat → UInt8) : Option Frame :=
  let f : Frame := ⟨extract hdr 0, extract hdr 1, extract hdr 2, List.replicate saedu 0⟩
  if getLenFromCursor f > 0 then
    if getLenFromCursor f > saedu then none
    else some { f with data := (List.range saedu).map secMsg }
  else some f

/-- `(m_Rcv.Frame[0] & 0xE0) == 0x40`. -/
def carriesSync (f : Frame) : Bool := f.b0.toNat / 32 == 2

/-- The parity of the payload is that of the header. -/
def parityMatches (f : Frame) : Bool :=
  parity (f.data.take (getLenFromCursor f)) == f.b1.toNat / 128

/-- The first half of `STMR`. A payload with a wrong parity ends it. -/
def Reception.accept (r : Reception) (f : Frame) : Except MemFault (Option Reception) :=
  if carriesSync f then
    if getLenFromCursor f = 0 then .ok (some { r with lastRANN := getAnnFromCursor f })
    else do
      let _ ← bytesAt .outOfBounds f.data 0 (getLenFromCursor f)
      if parityMatches f then
        if between (getSeqFromCursor f) r.lastRSEQ then
          let slot := getSeqFromCursor f % 8
          return some
            { r with cache := Function.update r.cache slot { r.cache slot with frame := f, length := 1 }
                     lastRANN := getAnnFromCursor f }
        else return some r
      else return none
  else .ok (some r)

/-- `type - 1` as an index of `RC`. -/
def rcIndex (type : Nat) : Except MemFault Nat :=
  let i := uint32 ((type : Int) - 1)
  access .outOfBounds (i < 2) i

/-- The payload of a frame is appended to a receive buffer. A full buffer is emptied first. -/
def Reception.deliver (saedu : Nat) (r : Reception) (f : Frame) : Except MemFault Reception := do
  let len := getLenFromCursor f
  let i ← rcIndex (getTypeFromCursor f)
  let buf := if (r.rc i).length > uint32 ((siadu saedu : Int) - len) then .cleared (siadu saedu)
    else r.rc i
  let data ← bytesAt .outOfBounds f.data 0 len
  let storage ← writeAt .outOfBounds buf.storage buf.cursor data
  return { r with rc := Function.update r.rc i ⟨storage, buf.length + len, buf.cursor + len⟩ }

/-- The loop of `STMR`. -/
def Reception.deliverLoop (saedu : Nat) : Nat → Reception → Except MemFault Reception
  | 0, _ => .error .diverges
  | fuel + 1, r =>
      let slot := (r.lastRSEQ + 1) % 8
      if (r.cache slot).length ≠ 0 then do
        let f := (r.cache slot).frame
        let r := { r with cache := Function.update r.cache slot { r.cache slot with length := 0 }
                          lastRSEQ := getSeqFromCursor f }
        let r ← if getLenFromCursor f ≠ 0 then r.deliver saedu f else .ok r
        r.deliverLoop saedu fuel
      else .ok r

/-- `STMR`. There are eight slots. -/
def Reception.stmr (saedu : Nat) (r : Reception) (f : Frame) : Except MemFault Reception := do
  match ← r.accept f with
  | none => return r
  | some r => r.deliverLoop saedu 9

/-- `Retriving`. -/
def Reception.retriving (saedu : Nat) (r : Reception) (hdr : RtpHeader) (secMsg : Nat → UInt8) :
    Except MemFault Reception :=
  match saer saedu hdr secMsg with
  | none => .ok r
  | some f => r.stmr saedu f

/-! ## `Receive` -/

/-- What `Receive` returns: the receiver afterwards, its result and the bytes it has stored at
`pDst`. -/
structure Received where
  receiver : Reception
  ret : Nat
  dst : List UInt8

/-- The loop of `Receive` that looks for a file name, from before `cur` down: where it found the end
and, if it did, the beginning of it. -/
def nameScan (storage : List UInt8) : (cur : Nat) → (stop : Nat) → Except MemFault (Nat × Option Nat)
  | 0, stop => .ok (stop, none)
  | cur + 1, stop => do
      let c ← byteAt .outOfBounds storage cur
      if c = 62 then
        -- `Storage[cur + 1] == '\0'`
        let d ← byteAt .outOfBounds storage (cur + 1)
        nameScan storage cur (if d = 0 then cur else stop)
      else if stop > 0 ∧ c = 60 then return (stop, some cur)
      else nameScan storage cur stop

/-- What is left of a buffer without its first `n` bytes. `room` is the size of `swap`. -/
def SIABuffer.dropFront (buf : SIABuffer) (n : Nat) (room : Nat) : Except MemFault SIABuffer := do
  let length := uint32 ((buf.length : Int) - n)
  let swap ← bytesAt .outOfBounds buf.storage n length
  let swap ← access .outOfBounds (length ≤ room) swap
  let storage ← writeAt .outOfBounds buf.storage 0 swap
  return ⟨storage, length, length⟩

/-- The end of `Receive`: a whole buffer. -/
def Reception.receiveData (saedu : Nat) (r : Reception) (maxlength : Int) : Except MemFault Received :=
  let harves := siadu saedu / 2
  let buf := r.rc 1
  if (uint32 maxlength ≥ harves ∧ buf.length ≥ harves) ∨ (uint32 maxlength < harves ∧ maxlength > 0)
  then do
    let dst ← bytesAt .outOfBounds buf.storage 0 buf.length
    return ⟨{ r with rc := Function.update r.rc 1 (.cleared (siadu saedu)) }, buf.length, dst⟩
  else .ok ⟨r, 0, []⟩

/-- `Receive` of a file name. -/
def Reception.receiveName (saedu : Nat) (r : Reception) : Except MemFault Received := do
  let buf := r.rc 1
  let (stop, start) ← nameScan buf.storage buf.length 0
  match start with
  | some start => do
      let dst ← bytesAt .outOfBounds buf.storage (start + 1) (stop - start - 1)
      let buf ← buf.dropFront (stop + 2) (siadu saedu)
      return ⟨{ r with rc := Function.update r.rc 1 buf }, 1, dst⟩
  | none =>
      if stop = 0 ∧ buf.length > 0 then
        return ⟨{ r with rc := Function.update r.rc 1 (.cleared (siadu saedu)) }, 1234, []⟩
      else r.receiveData saedu (-1)

/-- `Receive` of a message. -/
def Reception.receiveMessage (saedu : Nat) (r : Reception) : Received :=
  let storage := (r.rc 0).storage
  match (storage.take (siadu saedu - 1)).findIdx? (· == 0) with
  | some i =>
      ⟨{ r with rc := Function.update r.rc 0 (.cleared (siadu saedu)) }, i, storage.take i ++ [0]⟩
  | none => ⟨r, 0, []⟩

/-- `Receive`. -/
def Reception.receive (saedu : Nat) (r : Reception) (maxlength type : Int) : Except MemFault Received :=
  if type = 1 then .ok (r.receiveMessage saedu)
  else if type = 2 then
    if maxlength = -1 then r.receiveName saedu
    else if maxlength = -2 ∧ (r.rc 1).length ≥ 4 then do
      let dst ← bytesAt .outOfBounds (r.rc 1).storage 0 4
      let buf ← (r.rc 1).dropFront 4 ((r.rc 1).length - 4)
      return ⟨{ r with rc := Function.update r.rc 1 buf }, 2, dst⟩
    else r.receiveData saedu maxlength
  else .ok ⟨r, 0, []⟩

end Steg
