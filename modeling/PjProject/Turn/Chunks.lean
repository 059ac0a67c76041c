import PjProject.Stun.MsgRoundTrip

set_option autoImplicit false

/-! # Messages on a TURN connection

`pjnath/src/pjnath/turn_sock.c`: `has_packet` and `on_data_read`, which take the messages out of
what has been received, with `pj_turn_session_on_rx_pkt` of `turn_session.c` and the buffer of the
active socket (`pjlib/src/pj/activesock.c`). A run is the list of reads; the session stays as it is
meanwhile. Of every call of `pj_turn_session_on_rx_pkt` the model keeps the place in the stream of
the first byte, and of `has_packet` whether it looks at bytes beyond the size it is given.

Over TCP the framing depends on the reads. Where a read completes no message nothing is left in the
buffer for the next one; a message is taken when its data are there but its padding is not; and
`has_packet` looks at the first byte of an empty buffer (`framed_iff`).
-/

namespace Turn

open Wire Stun

/-! ## The code -/

/-- `pj_turn_tp_type`. -/
inductive ConnType where
  | udp
  | tcp
  | tls
  deriving DecidableEq

/-- `GETVAL16H`. -/
def getval16h (buf : List UInt8) (pos : Nat) : Nat := ((read16 buf pos).getD 0).toNat

/-- The first two bits are those of a STUN message. -/
def stunBits (buf : List UInt8) : Bool := buf.getD 0 0 &&& 0xC0 == 0

/-- `has_packet`: the length of the packet, or zero. `buf` goes beyond `bufsize`. -/
def hasPacket (connType : ConnType) (buf : List UInt8) (bufsize : Nat) : Nat :=
  if connType = .udp then bufsize
  else if stunBits buf && getval16h buf 2 % 4 == 0 then
    if getval16h buf 2 + 20 ≤ bufsize then getval16h buf 2 + 20 else 0
  else if bufsize < 4 then 0
  else if getval16h buf 2 + 4 ≤ bufsize then pad4 (getval16h buf 2 + 4) else 0

/-- The number of bytes that `has_packet` looks at. -/
def inspected (connType : ConnType) (buf : List UInt8) (bufsize : Nat) : Nat :=
  if connType = .udp then 0
  else if stunBits buf then 4
  else if bufsize < 4 then 1
  else 4

/-- `pj_turn_session_on_rx_pkt`: `parsed_len`. Where the STUN message is not decoded it is zero. -/
def turnSessionOnRxPkt (env : MsgEnv) (connType : ConnType) (pkt : List UInt8) : Nat :=
  if stunBits pkt then
    match stunMsgDecode env pkt ⟨true, connType == .udp, true⟩ with
    | .ok r => r.2
    | .error _ => 0
  else if pkt.length < 4 then 0
  else if pkt.length < getval16h pkt 2 + 4 then if connType = .udp then pkt.length else 0
  else pad4 (getval16h pkt 2) + 4

/-- `read_op` of the active socket: the data, what is in the buffer behind them, and the place of
the data in the stream; and the record of the run. -/
structure ReadOp where
  pkt : List UInt8
  stale : List UInt8
  pos : Nat
  handed : List Nat
  beyond : Bool
  deriving DecidableEq

/-- What `has_packet` looks at is noted. -/
def ReadOp.look (connType : ConnType) (r : ReadOp) : ReadOp :=
  { r with beyond := r.beyond ||
      decide (r.pkt.length < inspected connType (r.pkt ++ r.stale) r.pkt.length) }

/-- The first `n` bytes are gone: the others are moved to the front, and what is behind them in the
buffer is not touched. -/
def ReadOp.drop (r : ReadOp) (n : Nat) : ReadOp :=
  { r with
    pkt := r.pkt.drop n
    stale := (r.pkt ++ r.stale).drop (r.pkt.drop n).length
    pos := r.pos + min n r.pkt.length }

/-- The data are given to `pj_turn_session_on_rx_pkt`. -/
def ReadOp.hand (r : ReadOp) : ReadOp := { r with handed := r.handed ++ [r.pos] }

/-- The loop of `on_data_read`, with `*remainder`. Every turn takes bytes out of the buffer. -/
def onDataReadLoop (env : MsgEnv) (connType : ConnType) : Nat → Nat → ReadOp → ReadOp × Nat
  | 0, remainder, r => (r, remainder)
  | fuel + 1, remainder, r =>
      let pktLen := hasPacket connType (r.pkt ++ r.stale) r.pkt.length
      let r := r.look connType
      if pktLen = 0 then (r, remainder)
      else
        let parsedLen := turnSessionOnRxPkt env connType r.pkt
        let r := r.hand.drop (if parsedLen = 0 then pktLen else parsedLen)
        onDataReadLoop env connType fuel r.pkt.length r

/-- A read of `bytes` in `ioqueue_on_read_complete` and `on_data_read`: the bytes are appended to
those that are kept, `*remainder` is zero, and what it is after the loop is kept. -/
def onDataRead (env : MsgEnv) (connType : ConnType) (r : ReadOp) (bytes : List UInt8) : ReadOp :=
  let r := { r with pkt := r.pkt ++ bytes, stale := r.stale.drop bytes.length }
  let l := onDataReadLoop env connType (r.pkt.length + 1) 0 r
  { l.1 with
    pkt := l.1.pkt.take l.2
    stale := l.1.pkt.drop l.2 ++ l.1.stale
    pos := l.1.pos + (l.1.pkt.length - l.2) }

/-- All reads of a connection. -/
def readAll (env : MsgEnv) (connType : ConnType) (r : ReadOp) (reads : List (List UInt8)) : ReadOp :=
  reads.foldl (onDataRead env connType) r

/-- Before the first read. -/
def ReadOp.start (buf : List UInt8) : ReadOp := ⟨[], buf, 0, [], false⟩

/-! ## Messages -/

/-- What a server sends: a STUN message, or ChannelData as `pj_turn_session_sendto` makes them. -/
inductive TurnMsg where
  | stun (bytes : List UInt8)
  | channelData (chNumber : UInt16) (data pad : List UInt8)
  deriving DecidableEq

def TurnMsg.bytes : TurnMsg → List UInt8
  | .stun bytes => bytes
  | .channelData chNumber data pad =>
      put16 chNumber ++ (put16 (UInt16.ofNat data.length) ++ (data ++ pad))

/-- The length. -/
def TurnMsg.len (m : TurnMsg) : Nat := m.bytes.length

/-- The length without padding. -/
def TurnMsg.dataLen : TurnMsg → Nat
  | .stun bytes => bytes.length
  | .channelData _ data _ => 4 + data.length

/-- The form of messages: the first two bits, the length, and the padding. -/
def TurnMsg.WellFormed : TurnMsg → Prop
  | .stun bytes => stunBits bytes = true ∧ bytes.length % 4 = 0 ∧
      ∃ length : UInt16, read16 bytes 2 = some length ∧ bytes.length = length.toNat + 20
  | .channelData chNumber data pad => 0x4000 ≤ chNumber.toNat ∧ chNumber.toNat ≤ 0x7FFF ∧
      data.length < 65536 ∧ pad.length = pad4 data.length - data.length

/-- The bytes of the messages. -/
def stream (msgs : List TurnMsg) : List UInt8 := (msgs.map TurnMsg.bytes).flatten

/-- Where a message begins, where its data end, and where its padding ends. -/
structure Mark where
  start : Nat
  dataEnd : Nat
  stop : Nat
  deriving DecidableEq

/-- The marks of messages from the place `pos` on. -/
def marks : Nat → List TurnMsg → List Mark
  | _, [] => []
  | pos, m :: msgs => ⟨pos, pos + m.dataLen, pos + m.len⟩ :: marks (pos + m.len) msgs

/-- Where the messages begin. -/
def starts (msgs : List TurnMsg) : List Nat := (marks 0 msgs).map Mark.start

/-- Where every read begins and ends. -/
def cuts : Nat → List (List UInt8) → List (Nat × Nat)
  | _, [] => []
  | b, bytes :: reads => (b, b + bytes.length) :: cuts (b + bytes.length) reads

/-- A read that ends inside a message has the end of the data of another one, and a read that begins
between data and padding does not go beyond the padding. -/
def ReadOk (msgs : List TurnMsg) (b c : Nat) : Prop :=
  (∀ m ∈ marks 0 msgs, m.start < c → c < m.dataEnd →
    ∃ m' ∈ marks 0 msgs, b < m'.dataEnd ∧ m'.dataEnd ≤ c) ∧
  ∀ m ∈ marks 0 msgs, m.dataEnd ≤ b → b < m.stop → c ≤ m.stop

end Turn

/-! ## The messages in the buffer

What `has_packet` and `pj_turn_session_on_rx_pkt` find in a buffer that begins with a message
(`hasPacket_msg`, `parsedLen_msg`), and what the loop of `on_data_read` takes out of it
(`loop_taken`): all messages whose data are there.
-/

namespace Turn

open Wire Stun

variable {env : MsgEnv} {m : TurnMsg} {todo : List TurnMsg} {r r' : ReadOp}
  {data rest unread : List UInt8}

/-! ## One message -/

theorem stunBits_left {data : List UInt8} (h : 0 < data.length) (rest : List UInt8) :
    stunBits (data ++ rest) = stunBits data := by
  match data, h with
  | _ :: _, _ => rfl

theorem getval16h_left {data : List UInt8} (h : 4 ≤ data.length) (rest : List UInt8) :
    getval16h (data ++ rest) 2 = getval16h data 2 := by
  unfold getval16h
  rw [read16_left h]

/-- A channel number does not have the bits of a STUN message. -/
theorem stunBits_channel {chNumber : UInt16} (h : 0x4000 ≤ chNumber.toNat) (l : List UInt8) :
    stunBits (put16 chNumber ++ l) = false := by
  have hall : ((List.range 256).all fun n =>
      decide (n < 64) || (UInt8.ofNat n &&& 0xC0 != 0)) = true := by decide +kernel
  have hlt := chNumber.toNat_lt
  have hn := List.all_eq_true.mp hall (chNumber.toNat / 256) (List.mem_range.mpr (by omega))
  rw [Bool.or_eq_true, decide_eq_true_eq] at hn
  have hne := hn.resolve_left (by omega)
  show (UInt8.ofNat (chNumber.toNat / 256) &&& 0xC0 == 0) = false
  rw [beq_eq_false_iff_ne]
  exact bne_iff_ne.mp hne

theorem four_le_dataLen (h : m.WellFormed) : 4 ≤ m.dataLen := by
  cases m with
  | stun bytes =>
      rcases h with ⟨_, _, length, _, hlen⟩
      show 4 ≤ bytes.length
      omega
  | channelData chNumber data pad =>
      show 4 ≤ 4 + data.length
      omega

theorem len_channelData (chNumber : UInt16) (data pad : List UInt8) :
    (TurnMsg.channelData chNumber data pad).len = 4 + (data.length + pad.length) := by
  show (data ++ pad).length + 4 = _
  rw [List.length_append]
  omega

theorem dataLen_le_len (m : TurnMsg) : m.dataLen ≤ m.len := by
  cases m with
  | stun bytes => exact Nat.le_refl _
  | channelData chNumber data pad =>
      rw [len_channelData]
      show 4 + data.length ≤ _
      omega

theorem len_lt (h : m.WellFormed) : m.len < m.dataLen + 4 := by
  cases m with
  | stun bytes =>
      show bytes.length < bytes.length + 4
      omega
  | channelData chNumber data pad =>
      have hpad := pad4_lt data.length
      rw [len_channelData, h.2.2.2]
      show _ < 4 + data.length + 4
      omega

/-- With less than four bytes there is no packet, whatever is behind them. -/
theorem hasPacket_short (buf : List UInt8) {bufsize : Nat} (h : bufsize < 4) :
    hasPacket .tcp buf bufsize = 0 := by
  unfold hasPacket
  rw [if_neg nofun]
  split
  · exact if_neg (by omega)
  · rfl

/-- `has_packet` on a buffer that begins with a message. -/
theorem hasPacket_msg (h : m.WellFormed) (hdata : data ++ unread = m.bytes ++ rest)
    (stale : List UInt8) :
    hasPacket .tcp (data ++ stale) data.length = if m.dataLen ≤ data.length then m.len else 0 := by
  have hfour := four_le_dataLen h
  by_cases hshort : data.length < 4
  · rw [hasPacket_short _ hshort, if_neg (by omega)]
  have hlen := dataLen_le_len m
  have hbits : stunBits (data ++ stale) = stunBits m.bytes := by
    rw [stunBits_left (by omega), ← stunBits_left (by omega) unread, hdata,
      stunBits_left (show 0 < m.len by omega)]
  have hval : getval16h (data ++ stale) 2 = getval16h m.bytes 2 := by
    rw [getval16h_left (by omega), ← getval16h_left (by omega) unread, hdata,
      getval16h_left (show 4 ≤ m.len by omega)]
  unfold hasPacket
  rw [if_neg nofun, hbits, hval]
  cases m with
  | stun bytes =>
      rcases h with ⟨hstun, hmod, length, hread, hblen⟩
      have hval : getval16h (TurnMsg.stun bytes).bytes 2 = length.toNat := by
        unfold getval16h
        rw [show read16 (TurnMsg.stun bytes).bytes 2 = some length from hread]
        rfl
      have hzero : (length.toNat % 4 == 0) = true := by
        rw [beq_iff_eq]
        omega
      rw [hval, show stunBits (TurnMsg.stun bytes).bytes = true from hstun, hzero, ← hblen]
      rfl
  | channelData chNumber data' pad =>
      rcases h with ⟨hlow, _, hsmall, hpad⟩
      have hval : getval16h (TurnMsg.channelData chNumber data' pad).bytes 2 = data'.length := by
        have hread : read16 (TurnMsg.channelData chNumber data' pad).bytes 2 =
            some (UInt16.ofNat data'.length) := read16_append (put16 chNumber) rfl _
        unfold getval16h
        rw [hread]
        exact toNat_length hsmall
      have hle := le_pad4 data'.length
      rw [hval, show stunBits (TurnMsg.channelData chNumber data' pad).bytes = false from
        stunBits_channel hlow _, if_neg (by rw [Bool.false_and]; exact Bool.false_ne_true),
        if_neg hshort, len_channelData, hpad, pad4_add_four]
      show (if data'.length + 4 ≤ data.length then _ else 0) =
        if 4 + data'.length ≤ data.length then _ else 0
      rw [Nat.add_comm 4, show 4 + (data'.length + (pad4 data'.length - data'.length)) =
        pad4 data'.length + 4 by omega]

/-- What is taken of a buffer that has the data of a message. -/
theorem parsedLen_msg (h : m.WellFormed) (hdata : data ++ unread = m.bytes ++ rest)
    (hle : m.dataLen ≤ data.length) :
    (if turnSessionOnRxPkt env .tcp data = 0 then m.len
      else turnSessionOnRxPkt env .tcp data) = m.len := by
  have hfour := four_le_dataLen h
  have hlen := dataLen_le_len m
  have hbits : stunBits data = stunBits m.bytes := by
    rw [← stunBits_left (by omega) unread, hdata, stunBits_left (show 0 < m.len by omega)]
  have hread : read16 data 2 = read16 m.bytes 2 := by
    rw [← read16_left (show 2 + 2 ≤ data.length by omega) unread, hdata,
      read16_left (show 2 + 2 ≤ m.len by omega)]
  split
  · rfl
  · rename_i hne
    unfold turnSessionOnRxPkt at hne ⊢
    rw [hbits] at hne ⊢
    cases m with
    | stun bytes =>
        rcases h with ⟨hstun, _, length, hlength, hblen⟩
        rw [show stunBits (TurnMsg.stun bytes).bytes = true from hstun, if_pos rfl] at hne ⊢
        cases hdec : stunMsgDecode env data ⟨true, ConnType.tcp == .udp, true⟩ with
        | error e =>
            rw [hdec] at hne
            exact absurd rfl hne
        | ok res =>
            -- The decoder has gone to the end of the message.
            have hparsed : ∃ length, read16 data 2 = some length ∧ res.2 = length.toNat + 20 :=
              parsed_length hdec
            rcases hparsed with ⟨length', hlength', hn⟩
            rw [hread, show read16 (TurnMsg.stun bytes).bytes 2 = some length from hlength]
              at hlength'
            show res.2 = bytes.length
            rw [hn, hblen, Option.some.inj hlength']
    | channelData chNumber data' pad =>
        rcases h with ⟨hlow, _, hsmall, hpad⟩
        have hval : getval16h data 2 = data'.length := by
          have hread' : read16 (TurnMsg.channelData chNumber data' pad).bytes 2 =
              some (UInt16.ofNat data'.length) := read16_append (put16 chNumber) rfl _
          unfold getval16h
          rw [hread, hread']
          exact toNat_length hsmall
        have hle' := le_pad4 data'.length
        have hle : 4 + data'.length ≤ data.length := hle
        rw [show stunBits (TurnMsg.channelData chNumber data' pad).bytes = false from
          stunBits_channel hlow _, if_neg Bool.false_ne_true, if_neg (by omega), hval,
          if_neg (by omega), len_channelData, hpad]
        omega

/-! ## Marks -/

theorem length_stream_cons (m : TurnMsg) (msgs : List TurnMsg) :
    (stream (m :: msgs)).length = m.len + (stream msgs).length := by
  show (m.bytes ++ stream msgs).length = _
  rw [List.length_append]
  rfl

theorem stream_append (done todo : List TurnMsg) :
    stream (done ++ todo) = stream done ++ stream todo := by
  unfold stream
  rw [List.map_append, List.flatten_append]

theorem marks_append (todo : List TurnMsg) : ∀ (done : List TurnMsg) (pos : Nat),
    marks pos (done ++ todo) = marks pos done ++ marks (pos + (stream done).length) todo
  | [], _ => rfl
  | m :: done, pos => by
      show _ :: marks (pos + m.len) (done ++ todo) = _ :: (_ ++ _)
      rw [marks_append todo done, length_stream_cons, Nat.add_assoc]

/-- The marks of messages are between the first and the last byte. -/
theorem marks_bounds : ∀ {msgs : List TurnMsg} {pos : Nat}, (∀ m ∈ msgs, m.WellFormed) →
    ∀ x ∈ marks pos msgs, pos ≤ x.start ∧ x.start < x.dataEnd ∧ x.dataEnd ≤ x.stop ∧
      x.stop ≤ pos + (stream msgs).length
  | [], _, _, x, hx => absurd hx List.not_mem_nil
  | m :: msgs, pos, hwf, x, hx => by
      have hm := four_le_dataLen (hwf m List.mem_cons_self)
      have hle := dataLen_le_len m
      rw [length_stream_cons]
      rcases List.mem_cons.mp hx with rfl | hx
      · dsimp only
        omega
      · have ih := marks_bounds (fun m hm => hwf m (List.mem_cons_of_mem _ hm)) x hx
        omega

/-- No message behind the first one has its data before the first one has. -/
theorem first_dataEnd (hwf : ∀ a ∈ m :: todo, a.WellFormed) {pos : Nat} :
    ∀ x ∈ marks pos (m :: todo), pos + m.dataLen ≤ x.dataEnd := by
  intro x hx
  have hle := dataLen_le_len m
  rcases List.mem_cons.mp hx with rfl | hx
  · exact Nat.le_refl _
  · have hb := marks_bounds (fun a ha => hwf a (List.mem_cons_of_mem _ ha)) x hx
    omega

/-! ## The loop -/

/-- Everything that is in the buffer has been received. -/
def ReadOp.received (r : ReadOp) : Nat := r.pos + r.pkt.length

theorem received_drop (r : ReadOp) (n : Nat) : (r.drop n).received = r.received := by
  show r.pos + min n r.pkt.length + (r.pkt.drop n).length = r.pos + r.pkt.length
  rw [List.length_drop]
  omega

/-- What happens to the record of the run: the places are behind the beginning of the buffer. -/
structure Extends (r r' : ReadOp) : Prop where
  handed : ∃ more, r'.handed = r.handed ++ more ∧ ∀ x ∈ more, r.pos ≤ x
  pos : r.pos ≤ r'.pos
  beyond : r.beyond = true → r'.beyond = true

theorem Extends.trans {r₁ r₂ r₃ : ReadOp} (h : Extends r₁ r₂) (h' : Extends r₂ r₃) :
    Extends r₁ r₃ := by
  rcases h.handed with ⟨more, hmore, hle⟩
  rcases h'.handed with ⟨more', hmore', hle'⟩
  refine ⟨⟨more ++ more', ?_, fun x hx => ?_⟩, h.pos.trans h'.pos,
    fun hb => h'.beyond (h.beyond hb)⟩
  · rw [hmore', hmore, List.append_assoc]
  · rcases List.mem_append.mp hx with hx | hx
    · exact hle x hx
    · exact h.pos.trans (hle' x hx)

theorem extends_same (h : r'.handed = r.handed) (hpos : r.pos ≤ r'.pos)
    (hb : r.beyond = true → r'.beyond = true) : Extends r r' :=
  ⟨⟨[], by rw [h, List.append_nil], fun _ hx => absurd hx List.not_mem_nil⟩, hpos, hb⟩

theorem extends_look (r : ReadOp) (connType : ConnType) : Extends r (r.look connType) := by
  refine extends_same rfl (Nat.le_refl _) fun hb => ?_
  show (r.beyond || _) = true
  rw [hb, Bool.true_or]

theorem extends_hand_drop (r : ReadOp) (n : Nat) : Extends r (r.hand.drop n) :=
  ⟨⟨[r.pos], rfl, fun x hx => by rw [List.mem_singleton.mp hx]⟩, Nat.le_add_right _ _,
    fun hb => hb⟩

theorem extends_loop (env : MsgEnv) : ∀ (fuel remainder : Nat) (r : ReadOp),
    Extends r (onDataReadLoop env .tcp fuel remainder r).1
  | 0, _, r => extends_same rfl (Nat.le_refl _) fun hb => hb
  | fuel + 1, remainder, r => by
      rw [onDataReadLoop]
      split
      · exact extends_look r .tcp
      · exact (extends_look r .tcp).trans
          ((extends_hand_drop _ _).trans (extends_loop env fuel _ _))

theorem received_loop (env : MsgEnv) : ∀ (fuel remainder : Nat) (r : ReadOp),
    (onDataReadLoop env .tcp fuel remainder r).1.received = r.received
  | 0, _, _ => rfl
  | fuel + 1, remainder, r => by
      rw [onDataReadLoop]
      split
      · rfl
      · rw [received_loop env fuel, received_drop]
        rfl

/-- Where the loop finds a packet, the beginning of the buffer is handed over. -/
theorem mem_handed_loop (env : MsgEnv) (fuel remainder : Nat)
    (h : hasPacket .tcp (r.pkt ++ r.stale) r.pkt.length ≠ 0) :
    r.pos ∈ (onDataReadLoop env .tcp (fuel + 1) remainder r).1.handed := by
  rw [onDataReadLoop]
  dsimp only
  rw [if_neg h]
  generalize (if turnSessionOnRxPkt env .tcp (r.look .tcp).pkt = 0 then
    hasPacket .tcp (r.pkt ++ r.stale) r.pkt.length
    else turnSessionOnRxPkt env .tcp (r.look .tcp).pkt) = n
  rcases (extends_loop env fuel ((r.look .tcp).hand.drop n).pkt.length
    ((r.look .tcp).hand.drop n)).handed with ⟨more, hmore, _⟩
  rw [hmore]
  refine List.mem_append_left _ ?_
  show r.pos ∈ r.handed ++ [r.pos]
  exact List.mem_append_right _ List.mem_cons_self

/-- An empty buffer is looked at beyond its size. -/
theorem look_empty (r : ReadOp) (h : r.pkt = []) : (r.look .tcp).beyond = true := by
  show (r.beyond || decide (r.pkt.length < inspected .tcp (r.pkt ++ r.stale) r.pkt.length)) = true
  rw [h, Bool.or_eq_true, decide_eq_true_eq]
  refine Or.inr ?_
  unfold inspected
  rw [if_neg nofun]
  split
  · decide
  · decide

/-- A turn of the loop that finds no packet ends it. -/
theorem loop_stop {fuel remainder : Nat}
    (h : hasPacket .tcp (r.pkt ++ r.stale) r.pkt.length = 0) :
    onDataReadLoop env .tcp (fuel + 1) remainder r = (r.look .tcp, remainder) := by
  rw [onDataReadLoop, h]
  rfl

/-- A turn of the loop that takes a message. -/
theorem loop_msg (hwf : m.WellFormed) (hdata : r.pkt ++ unread = m.bytes ++ rest)
    (hle : m.dataLen ≤ r.pkt.length) {fuel remainder : Nat} :
    onDataReadLoop env .tcp (fuel + 1) remainder r =
      onDataReadLoop env .tcp fuel (((r.look .tcp).hand.drop m.len).pkt.length)
        ((r.look .tcp).hand.drop m.len) := by
  have hfour := four_le_dataLen hwf
  have hlen := dataLen_le_len m
  have hpkt : hasPacket .tcp (r.pkt ++ r.stale) r.pkt.length = m.len := by
    rw [hasPacket_msg hwf hdata, if_pos hle]
  have hparsed : (if turnSessionOnRxPkt env .tcp (r.look .tcp).pkt = 0 then m.len
      else turnSessionOnRxPkt env .tcp (r.look .tcp).pkt) = m.len := parsedLen_msg hwf hdata hle
  rw [onDataReadLoop, hpkt]
  dsimp only
  rw [if_neg (by omega), hparsed]

/-- What the loop does to a buffer that begins with a message: the data of the messages `taken` are in
the buffer, and those of the first one of `left` are not. -/
structure Taken (todo taken left : List TurnMsg) (unread : List UInt8) (r r' : ReadOp) : Prop where
  split : todo = taken ++ left
  handed : r'.handed = r.handed ++ (marks r.pos taken).map Mark.start
  dataEnd : ∀ x ∈ marks r.pos taken, x.dataEnd ≤ r.received
  next : ∀ m, left.head? = some m → r.received < r.pos + (stream taken).length + m.dataLen
  pos : r'.pos = min (r.pos + (stream taken).length) r.received
  buffer : r.pos + (stream taken).length ≤ r.received → r'.pkt ++ unread = stream left
  padding : r.received < r.pos + (stream taken).length →
    ∃ pad, pad.length = r.pos + (stream taken).length - r.received ∧ pad.length < 4 ∧
      unread = pad ++ stream left
  looked : r'.pkt = [] → r'.beyond = true

/-- The next message is not complete. -/
theorem taken_nil (hdata : r.pkt ++ unread = stream todo)
    (hnext : ∀ m, todo.head? = some m → r.pkt.length < m.dataLen) :
    Taken todo [] todo unread r (r.look .tcp) := by
  have hzero : r.pos + (stream []).length = r.pos := rfl
  refine ⟨rfl, (List.append_nil _).symm, fun x hx => absurd hx List.not_mem_nil, fun m hm => ?_,
    ?_, fun _ => hdata, fun hlt => ?_, look_empty r⟩
  · have := hnext m hm
    unfold ReadOp.received
    omega
  · show r.pos = _
    unfold ReadOp.received
    omega
  · unfold ReadOp.received at hlt
    omega

theorem loop_taken (env : MsgEnv) : ∀ (todo : List TurnMsg) (fuel remainder : Nat) (r : ReadOp),
    (∀ m ∈ todo, m.WellFormed) → r.pkt ++ unread = stream todo → r.pkt.length < fuel →
    ∃ taken left,
      Taken todo taken left unread r (onDataReadLoop env .tcp fuel remainder r).1 ∧
      (onDataReadLoop env .tcp fuel remainder r).2 =
        if taken = [] then remainder else (onDataReadLoop env .tcp fuel remainder r).1.pkt.length
  | _, 0, _, _, _, _, hfuel => absurd hfuel (Nat.not_lt_zero _)
  | [], fuel + 1, remainder, r, _, hdata, _ => by
      have hnil : r.pkt = [] := (List.append_eq_nil_iff.mp hdata).1
      have hstop : hasPacket .tcp (r.pkt ++ r.stale) r.pkt.length = 0 := by
        refine hasPacket_short _ ?_
        rw [hnil]
        decide
      rw [loop_stop hstop]
      exact ⟨[], [], taken_nil hdata nofun, rfl⟩
  | m :: todo, fuel + 1, remainder, r, hwf, hdata, hfuel => by
      have hm : m.WellFormed := hwf m List.mem_cons_self
      have hmdata : r.pkt ++ unread = m.bytes ++ stream todo := hdata
      by_cases hle : m.dataLen ≤ r.pkt.length
      · rw [loop_msg hm hmdata hle]
        by_cases hlen : m.len ≤ r.pkt.length
        · -- The message and its padding are there.
          have hfour := four_le_dataLen hm
          have hdl := dataLen_le_len m
          have hdrop : (r.pkt.drop m.len) ++ unread = stream todo := by
            have h := congrArg (List.drop m.len) hmdata
            rw [List.drop_append_of_le_length hlen,
              List.drop_left' (show m.bytes.length = m.len from rfl)] at h
            exact h
          have hpos : ((r.look .tcp).hand.drop m.len).pos = r.pos + m.len := by
            show r.pos + min m.len r.pkt.length = _
            omega
          have hrec : ((r.look .tcp).hand.drop m.len).received = r.received := received_drop _ _
          rcases loop_taken env todo fuel ((r.look .tcp).hand.drop m.len).pkt.length
            ((r.look .tcp).hand.drop m.len) (fun a ha => hwf a (List.mem_cons_of_mem _ ha)) hdrop
            (by
              show (r.pkt.drop m.len).length < fuel
              rw [List.length_drop]
              omega) with ⟨taken, left, ht, hrem⟩
          have hr : (onDataReadLoop env .tcp fuel ((r.look .tcp).hand.drop m.len).pkt.length
              ((r.look .tcp).hand.drop m.len)).1.received = _ := received_loop env fuel _ _
          have hsum : r.pos + (stream (m :: taken)).length =
              r.pos + m.len + (stream taken).length := by
            rw [length_stream_cons]
            omega
          refine ⟨m :: taken, left, ⟨by rw [ht.split]; rfl, ?_, ?_, ?_, ?_, ?_, ?_, ht.looked⟩, ?_⟩
          · rw [ht.handed, hpos]
            show r.handed ++ [r.pos] ++ _ = r.handed ++ (r.pos :: _)
            rw [List.append_assoc]
            rfl
          · intro x hx
            rcases List.mem_cons.mp hx with rfl | hx
            · show r.pos + m.dataLen ≤ r.pos + r.pkt.length
              omega
            · rw [← hrec]
              refine ht.dataEnd x ?_
              rw [hpos]
              exact hx
          · intro a ha
            have h := ht.next a ha
            rw [hpos, hrec] at h
            rw [hsum]
            exact h
          · rw [ht.pos, hpos, hrec, hsum]
          · intro h
            refine ht.buffer ?_
            rw [hpos, hrec, ← hsum]
            exact h
          · intro h
            rw [hsum] at h ⊢
            have hpad := ht.padding
            rw [hpos, hrec] at hpad
            exact hpad h
          · rw [if_neg (by exact List.cons_ne_nil _ _), hrem]
            split
            · rename_i hnil
              have hp := ht.pos
              rw [hnil] at hp
              change _ = min (((r.look .tcp).hand.drop m.len).pos + 0) _ at hp
              unfold ReadOp.received at hr hp
              omega
            · rfl
        · -- The padding is not there: all that has been received is taken.
          have hfour := four_le_dataLen hm
          have hnil : ((r.look .tcp).hand.drop m.len).pkt = [] :=
            List.drop_of_length_le (by show r.pkt.length ≤ m.len; omega)
          have hpad := len_lt hm
          have hlone : (stream [m]).length = m.len := length_stream_cons m []
          cases fuel with
          | zero => omega
          | succ fuel =>
              have hstop : hasPacket .tcp (((r.look .tcp).hand.drop m.len).pkt ++
                  ((r.look .tcp).hand.drop m.len).stale)
                  ((r.look .tcp).hand.drop m.len).pkt.length = 0 := by
                refine hasPacket_short _ ?_
                rw [hnil]
                decide
              rw [loop_stop hstop]
              refine ⟨[m], todo, ⟨rfl, rfl, ?_, ?_, ?_, ?_, ?_,
                look_empty ((r.look .tcp).hand.drop m.len)⟩, ?_⟩
              · intro x hx
                rw [List.mem_singleton.mp hx]
                show r.pos + m.dataLen ≤ r.pos + r.pkt.length
                omega
              · intro a _
                rw [hlone]
                unfold ReadOp.received
                omega
              · show r.pos + min m.len r.pkt.length = _
                rw [hlone]
                unfold ReadOp.received
                omega
              · intro h
                rw [hlone] at h
                unfold ReadOp.received at h
                omega
              · intro _
                have h := congrArg (List.drop r.pkt.length) hmdata
                rw [List.drop_left' rfl, List.drop_append_of_le_length
                  (show r.pkt.length ≤ m.len by omega)] at h
                have hdl : (m.bytes.drop r.pkt.length).length = m.len - r.pkt.length :=
                  List.length_drop
                refine ⟨m.bytes.drop r.pkt.length, ?_, ?_, h⟩
                · rw [hdl, hlone]
                  unfold ReadOp.received
                  omega
                · omega
              · rw [if_neg (by exact List.cons_ne_nil _ _)]
                rfl
      · have hstop : hasPacket .tcp (r.pkt ++ r.stale) r.pkt.length = 0 := by
          rw [hasPacket_msg hm hmdata, if_neg hle]
        rw [loop_stop hstop]
        refine ⟨[], m :: todo, taken_nil hdata fun a ha => ?_, rfl⟩
        rw [← Option.some.inj ha]
        omega

end Turn
