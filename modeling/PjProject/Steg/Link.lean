import PjProject.Library.SerialNumber
import PjProject.Steg.Suit

set_option autoImplicit false

/-! # The link between a sender and a receiver

The invariant of one direction of a call, in terms of absolute frame numbers: the first frame that
a side takes from its buffers has the number 1. The sender `s` has taken `s.taken.length` frames,
the receiver `r` has committed `r.committed.length` of them, and the 4-bit fields are residues of
these counters. Every packet on its way is given a `Tag` with the numbers that belong to it.

`Link` is kept by everything that can happen at the sender (`Link.embedding`, `Link.heard`) and at
the receiver (`Link.answered`, `Link.received`).
-/

namespace Steg

open SerialNumber

/-! ## Sequence comparisons on absolute numbers -/

/-- `Between` on residues is the comparison of the counters. -/
theorem between_iff {k c : Nat} (h1 : k ≤ c + 8) (h2 : c < k + 8) :
    between (k % 16) (c % 16) = true ↔ c < k := by
  rw [← ahead_iff h1 h2]
  simp only [between, List.any_eq_true, List.mem_range, beq_iff_eq]
  constructor
  · rintro ⟨i, hi, h⟩
    exact ⟨i, hi, by omega⟩
  · rintro ⟨i, hi, h⟩
    exact ⟨i, hi, by omega⟩

/-- `Inside` on residues is the comparison of the counters; the acknowledgement is the number that
is expected next. -/
theorem inside_iff {k a : Nat} (h1 : k ≤ a + 8) (h2 : a < k + 8) :
    inside (k % 16) ((a + 1) % 16) = true ↔ k ≤ a := by
  rw [← behind_iff h1 h2]
  simp only [inside, List.any_eq_true, List.mem_range, beq_iff_eq]
  constructor
  · rintro ⟨i, hi, h⟩
    exact ⟨i, hi, by omega⟩
  · rintro ⟨i, hi, h⟩
    exact ⟨i, hi, by omega⟩

/-! ## Frames -/

theorem toNat_ofNat {x : Nat} (h : x < 256) : (UInt8.ofNat x).toNat = x := by
  rw [UInt8.toNat_ofNat']
  exact Nat.mod_eq_of_lt h

/-- The frame `f` carries the `k`-th of the frames `taken`. -/
structure Carries (f : Frame) (taken : List (Nat × List UInt8)) (k : Nat) : Prop where
  syn : f.b0.toNat / 32 = 2
  seq : getSeqFromCursor f = k % 16
  parity : parity f.data = f.b1.toNat / 128
  nonempty : getLenFromCursor f ≠ 0
  len : f.data.length = getLenFromCursor f
  pos : 1 ≤ k
  taken : taken[k - 1]? = some (getTypeFromCursor f, f.data)

theorem Carries.le_length {f : Frame} {taken : List (Nat × List UInt8)} {k : Nat}
    (h : Carries f taken k) : k ≤ taken.length := by
  have hlt := (List.getElem?_eq_some_iff.mp h.taken).1
  have hpos := h.pos
  omega

/-- More frames may be taken. -/
theorem Carries.mono {f : Frame} {taken taken' : List (Nat × List UInt8)} {k : Nat}
    (h : Carries f taken k) (ht : taken <+: taken') : Carries f taken' k :=
  { h with
    taken := by
      have hle := h.le_length
      have hpos := h.pos
      rcases ht with ⟨l, rfl⟩
      rw [List.getElem?_append_left (by omega)]
      exact h.taken }

theorem parity_lt (data : List UInt8) : parity data < 2 := Nat.mod_lt _ (by omega)

theorem getAnn_setLen {len type odd seq last : Nat} {data : List UInt8} (hs : seq < 16) :
    getAnnFromCursor (setLenToCursor len type odd seq last data) = (last + 1) % 16 := by
  unfold getAnnFromCursor setLenToCursor
  rw [toNat_ofNat (by omega)]
  omega

theorem getLen_setLen {len type odd seq last : Nat} {data : List UInt8} (ht : type < 2)
    (hl : len < 1024) (ho : odd < 2) :
    getLenFromCursor (setLenToCursor len type odd seq last data) = len := by
  unfold getLenFromCursor setLenToCursor
  rw [toNat_ofNat (by omega), toNat_ofNat (by omega)]
  omega

/-- A new frame carries the data that is taken for it. -/
theorem carries_newFrame {s : Suit} {i : Nat} {data : List UInt8} (hseq : s.seq = s.taken.length % 16)
    (hi : i < 2) (hd : data.length ≠ 0) (hl : data.length < 1024) :
    Carries (newFrame s i data) (s.taken ++ [(i + 1, data)]) (s.taken.length + 1) := by
  have hp := parity_lt data
  have hlen : getLenFromCursor (newFrame s i data) = data.length := getLen_setLen hi hl hp
  refine ⟨?_, ?_, ?_, ?_, ?_, by omega, ?_⟩
  · unfold newFrame setLenToCursor
    rw [toNat_ofNat (by omega)]
    omega
  · unfold newFrame getSeqFromCursor setLenToCursor
    rw [toNat_ofNat (by omega)]
    omega
  · unfold newFrame setLenToCursor
    rw [toNat_ofNat (by omega)]
    show parity data = _
    omega
  · rw [hlen]
    exact hd
  · rw [hlen]
    rfl
  · have htype : getTypeFromCursor (newFrame s i data) = i + 1 := by
      unfold newFrame getTypeFromCursor setLenToCursor
      rw [toNat_ofNat (by omega)]
      omega
    rw [htype]
    simp [newFrame, setLenToCursor]

theorem getAnn_resendFrame (f : Frame) (last : Nat) :
    getAnnFromCursor (resendFrame f last) = (last + 1) % 16 := by
  have hlt := f.b2.toNat_lt
  unfold getAnnFromCursor resendFrame
  rw [toNat_ofNat (by omega)]
  omega

/-- A frame that is sent again carries what it carried. -/
theorem Carries.resend {f : Frame} {taken : List (Nat × List UInt8)} {k : Nat}
    (h : Carries f taken k) (last : Nat) : Carries (resendFrame f last) taken k :=
  { h with
    seq := by
      have hlt := f.b2.toNat_lt
      have hseq := h.seq
      unfold getSeqFromCursor at hseq
      unfold getSeqFromCursor resendFrame
      rw [toNat_ofNat (by omega)]
      omega }

/-! ## The invariant -/

/-- The numbers that belong to a packet: the number of the frame it carries, or 0, and how many
frames its sender had taken and committed when it was sent. -/
structure Tag where
  num : Nat
  sent : Nat
  ack : Nat

/-- A packet with its numbers. -/
abbrev Packet := Frame × Tag

/-- The packet `p` of a sender that has taken `taken` is empty or carries one of the last eight
frames that had been taken when it was sent. -/
structure DataOk (taken : List (Nat × List UInt8)) (p : Packet) : Prop where
  sent_le : p.2.sent ≤ taken.length
  data : (p.1.b0.toNat / 32 = 2 ∧ getLenFromCursor p.1 = 0) ∨
    (p.2.sent < p.2.num + 8 ∧ p.2.num ≤ p.2.sent ∧ Carries p.1 taken p.2.num)

/-- The window slot `i` of the sender holds one of the last eight frames. -/
def SlotOk (taken : List (Nat × List UInt8)) (i : Nat) (f : Frame) : Prop :=
  ∃ k, k % 8 = i ∧ taken.length < k + 8 ∧ Carries f taken k

/-- The frame that waits to be sent again is one of the last eight, and no more than seven frames
have been taken after it. -/
def QueueOk (s : Suit) : Prop :=
  s.retrans = [] ∨ (s.retranstep = 0 ∧ ∃ q k, s.retrans = [q] ∧ q.length ≠ 0 ∧
    s.taken.length ≤ k + 7 ∧ Carries q.frame s.taken k)

/-- What holds of the sender alone: `a` is the last frame it knows to be acknowledged. -/
structure Sender (s : Suit) (a : Nat) : Prop where
  seq : s.seq = s.taken.length % 16
  rann : s.lastRANN = (a + 1) % 16
  acked : a ≤ s.taken.length
  room : s.taken.length ≤ a + 8
  held : ∀ k, a < k → k ≤ s.taken.length → (s.window (k % 8)).length ≠ 0
  slot : ∀ i < 8, (s.window i).length ≠ 0 → SlotOk s.taken i (s.window i).frame
  time : ∀ i, (s.window i).time ≠ 0 → (s.window i).length ≠ 0
  types : ∀ x ∈ s.taken, x.1 ≠ 0

/-- What holds of the receiver of the frames `taken`: it has committed the first of them, and its
cache holds some of the next eight. No frame after `top` has reached it. -/
structure Receiver (r : Suit) (taken : List (Nat × List UInt8)) (top : Nat) : Prop where
  rseq : r.lastRSEQ = r.committed.length % 16
  committed : r.committed <+: taken
  top_le : r.committed.length ≤ top
  cache : ∀ i < 8, (r.cache i).length ≠ 0 →
    ∃ k, k % 8 = i ∧ r.committed.length < k ∧ k ≤ r.committed.length + 8 ∧ k ≤ top ∧
      Carries (r.cache i).frame taken k

/-- The packets on their way to the receiver, in the order in which they were sent. -/
structure Forward (out : List Packet) (taken : List (Nat × List UInt8)) (top : Nat) : Prop where
  data : ∀ p ∈ out, DataOk taken p
  top : ∀ p ∈ out, top ≤ p.2.sent
  order : out.Pairwise fun p q => p.2.sent ≤ q.2.sent

/-- The acknowledgements on their way to the sender: none is older than `a`, none newer than what
the receiver has committed. -/
structure Backward (back : List Packet) (a c : Nat) : Prop where
  ann : ∀ p ∈ back, getAnnFromCursor p.1 = (p.2.ack + 1) % 16
  range : ∀ p ∈ back, a ≤ p.2.ack ∧ p.2.ack ≤ c
  order : back.Pairwise fun p q => p.2.ack ≤ q.2.ack

/-- One direction of a call. -/
structure Link (s r : Suit) (out back : List Packet) (a top : Nat) : Prop where
  sender : Sender s a
  queue : QueueOk s
  receiver : Receiver r s.taken top
  forward : Forward out s.taken top
  backward : Backward back a r.committed.length
  acked : a ≤ r.committed.length
  top_le : top ≤ s.taken.length

/-! ## The sender -/

variable {s s' r : Suit} {a : Nat}

/-- Waiting times do not matter. -/
theorem Sender.age (h : Sender s a) : Sender (age s) a := by
  have hlen : ∀ i, ((Steg.age s).window i).length = (s.window i).length := fun i => by
    simp only [Steg.age]
    split <;> rfl
  have hframe : ∀ i, ((Steg.age s).window i).frame = (s.window i).frame := fun i => by
    simp only [Steg.age]
    split <;> rfl
  refine ⟨h.seq, h.rann, h.acked, h.room, fun k h1 h2 => ?_, fun i hi hne => ?_, fun i ht => ?_,
    h.types⟩
  · rw [hlen]
    exact h.held k h1 h2
  · rw [hframe]
    exact h.slot i hi (by rw [← hlen]; exact hne)
  · rw [hlen]
    intro h0
    have ht' : (s.window i).time ≠ 0 := by simpa [Steg.age, h0] using ht
    exact h.time i ht' h0

/-- The number in a slot decides whether `Inside` releases it. -/
theorem Sender.inside_iff (h : Sender s a) {i k : Nat} (hn : s.taken.length < k + 8)
    (hc : Carries (s.window i).frame s.taken k) :
    inside (getSeqFromCursor (s.window i).frame) s.lastRANN = true ↔ k ≤ a := by
  have hle := hc.le_length
  have hroom := h.room
  have hacked := h.acked
  rw [hc.seq, h.rann]
  exact Steg.inside_iff (by omega) (by omega)

/-- Only acknowledged frames are released, and all of them. -/
theorem Sender.release (h : Sender s a) : Sender (release s) a := by
  refine ⟨h.seq, h.rann, h.acked, h.room, fun k h1 h2 => ?_, fun i hi hne => ?_, fun i ht => ?_,
    h.types⟩
  · have h2 : k ≤ s.taken.length := h2
    have hne := h.held k h1 h2
    rcases h.slot (k % 8) (Nat.mod_lt _ (by omega)) hne with ⟨k', hk', hn, hc⟩
    -- The slot of a frame that is not acknowledged holds this frame.
    have hroom := h.room
    have hle := hc.le_length
    have hkk : k' = k := by omega
    have hnot : ¬ inside (getSeqFromCursor (s.window (k % 8)).frame) s.lastRANN = true := by
      rw [h.inside_iff hn hc]
      omega
    simp only [Steg.release]
    rw [if_neg (fun hin => hnot hin.2)]
    exact hne
  · simp only [Steg.release] at hne ⊢
    split at hne
    · exact absurd rfl hne
    · rename_i hnot
      rw [if_neg hnot]
      exact h.slot i hi hne
  · simp only [Steg.release] at ht ⊢
    split at ht
    · exact absurd rfl ht
    · rename_i hnot
      rw [if_neg hnot]
      exact h.time i ht

theorem oldest_lt (s : Suit) : oldest s < 8 := by
  have hfold : ∀ (l : List Nat) (pos : Nat), pos < 8 → (∀ i ∈ l, i < 8) →
      l.foldl (fun pos i => if (s.window i).time > (s.window pos).time then i else pos) pos < 8 := by
    intro l
    induction l with
    | nil => exact fun pos hpos _ => hpos
    | cons i l ih =>
        intro pos hpos hl
        refine ih _ ?_ fun j hj => hl j (List.mem_cons_of_mem i hj)
        dsimp only
        split
        · exact hl i List.mem_cons_self
        · exact hpos
  exact hfold _ 0 (by omega) fun i hi => List.mem_range.mp hi

/-- The queue after `Retransmission`: what is in it was queued before, or stands in the window. -/
def Requeued (s : Suit) : Prop :=
  s.retrans = [] ∨ ∃ q k, s.retrans = [q] ∧ q.length ≠ 0 ∧ s.taken.length ≤ k + 7 ∧
    Carries q.frame s.taken k ∧ (s.retranstep = 0 ∨ (s.window (k % 8)).length ≠ 0)

theorem Sender.requeue (h : Sender s a) : Sender (requeue s) a := by
  unfold Steg.requeue
  dsimp only
  split
  · exact ⟨h.seq, h.rann, h.acked, h.room, h.held, h.slot, h.time, h.types⟩
  · exact h

theorem Sender.requeued (h : Sender s a) (hq : QueueOk s) : Requeued (Steg.requeue s) := by
  unfold Steg.requeue
  dsimp only
  split
  · rename_i ht
    have hne : (s.window (oldest s)).length ≠ 0 := h.time _ (by omega)
    rcases h.slot _ (oldest_lt s) hne with ⟨k, hk, hn, hc⟩
    refine Or.inr ⟨⟨(s.window (oldest s)).frame, (s.window (oldest s)).length, 0⟩, k, ?_, hne,
      by show s.taken.length ≤ k + 7; omega, hc, Or.inr ?_⟩
    · rcases hq with hq | ⟨-, q, k', hq, -⟩
      · rw [hq]
        rfl
      · rw [hq]
        rfl
    · show (s.window (k % 8)).length ≠ 0
      rw [hk]
      exact hne
  · rcases hq with hq | ⟨hstep, q, k, hq, hne, hn, hc⟩
    · exact Or.inl hq
    · exact Or.inr ⟨q, k, hq, hne, hn, hc, Or.inl hstep⟩

/-- What `Retransmission` leaves. -/
theorem Sender.retransmission (h : Sender s a) (hq : QueueOk s) :
    Sender (retransmission s) a ∧ Requeued (retransmission s) :=
  ⟨h.age.release.requeue, h.age.release.requeued hq⟩

/-- Nothing that belongs to the receiving role has changed. -/
structure SameReceiver (s s' : Suit) : Prop where
  lastRSEQ : s'.lastRSEQ = s.lastRSEQ
  cache : s'.cache = s.cache
  committed : s'.committed = s.committed
  rc : s'.rc = s.rc
  overflow : s'.overflow = s.overflow

/-- What `Embedding` leaves of the sender `s`, and the frame it hands out with the number `num`. -/
structure Embedded (s s' : Suit) (f : Frame) (a num : Nat) : Prop where
  sender : Sender s' a
  queue : QueueOk s'
  grows : s.taken <+: s'.taken
  data : ∀ ack, DataOk s'.taken (f, ⟨num, s'.taken.length, ack⟩)
  ann : getAnnFromCursor f = (s.lastRSEQ + 1) % 16
  same : SameReceiver s s'

theorem getAnn_emptyFrame (s : Suit) : getAnnFromCursor (emptyFrame s) = (s.lastRSEQ + 1) % 16 :=
  getAnn_setLen (Nat.mod_lt _ (by omega))

theorem dataOk_emptyFrame (s t : Suit) (ack : Nat) :
    DataOk s.taken (emptyFrame t, ⟨0, s.taken.length, ack⟩) := by
  refine ⟨le_rfl, Or.inl ⟨?_, getLen_setLen (by omega) (by omega) (by omega)⟩⟩
  unfold emptyFrame setLenToCursor
  rw [toNat_ofNat (by omega)]

/-- Room for a new frame: its slot is free, so the frame eight numbers before it is
acknowledged. -/
theorem Sender.room_of_free (h : Sender s a)
    (hfree : (s.window ((s.seq + 1) % 8)).length = 0) : s.taken.length + 1 ≤ a + 8 := by
  by_contra hfull
  have hroom := h.room
  have hseq := h.seq
  apply h.held (a + 1) (by omega) (by omega)
  rw [show (a + 1) % 8 = (s.seq + 1) % 8 by omega]
  exact hfree

/-- Taking data keeps the invariant of the sender. -/
theorem Sender.takeData (h : Sender s a) {i : Nat} {data : List UInt8} (hi : i < 2)
    (hd : data.length ≠ 0) (hl : data.length < 1024)
    (hfree : (s.window ((s.seq + 1) % 8)).length = 0) : Sender (takeData s i data) a := by
  have hroom := h.room_of_free hfree
  have hseq := h.seq
  have hacked := h.acked
  have hlen : (Steg.takeData s i data).taken.length = s.taken.length + 1 := by simp [Steg.takeData]
  have hpre : s.taken <+: (Steg.takeData s i data).taken := List.prefix_append _ _
  have hslot : (s.seq + 1) % 16 % 8 = (s.taken.length + 1) % 8 := by omega
  refine ⟨?_, h.rann, by rw [hlen]; omega, by rw [hlen]; omega, fun k h1 h2 => ?_,
    fun j hj hne => ?_, fun j ht => ?_, fun x hx => ?_⟩
  · rw [hlen]
    show (s.seq + 1) % 16 = _
    omega
  · rw [hlen] at h2
    show (Function.update s.window _ _ (k % 8)).length ≠ 0
    rw [hslot]
    by_cases hk : k % 8 = (s.taken.length + 1) % 8
    · rw [hk, Function.update_self]
      show data.length + 3 ≠ 0
      omega
    · rw [Function.update_of_ne hk]
      exact h.held k h1 (by omega)
  · have hne : (Function.update s.window ((s.seq + 1) % 16 % 8) _ j).length ≠ 0 := hne
    show SlotOk _ j (Function.update s.window ((s.seq + 1) % 16 % 8) _ j).frame
    by_cases hj' : j = (s.seq + 1) % 16 % 8
    · rw [hj', Function.update_self]
      refine ⟨s.taken.length + 1, by omega, by rw [hlen]; omega, carries_newFrame hseq hi hd hl⟩
    · rw [Function.update_of_ne hj'] at hne ⊢
      rcases h.slot j hj hne with ⟨k, hk, hn, hc⟩
      -- The oldest frame of the window would stand in the new frame's slot.
      exact ⟨k, hk, by rw [hlen]; omega, hc.mono hpre⟩
  · have ht : (Function.update s.window ((s.seq + 1) % 16 % 8) _ j).time ≠ 0 := ht
    show (Function.update s.window ((s.seq + 1) % 16 % 8) _ j).length ≠ 0
    by_cases hj' : j = (s.seq + 1) % 16 % 8
    · rw [hj', Function.update_self]
      show data.length + 3 ≠ 0
      omega
    · rw [Function.update_of_ne hj'] at ht ⊢
      exact h.time j ht
  · rcases List.mem_append.mp hx with hx | hx
    · exact h.types x hx
    · rw [List.mem_singleton.mp hx]
      exact Nat.succ_ne_zero i

/-- A frame that waits in the window while a new one is taken is not the oldest one. -/
theorem Requeued.takeData (hq : Requeued s) (hseq : s.seq = s.taken.length % 16)
    (hstep : s.retrans = [] ∨ s.retranstep ≠ 0) {i : Nat} {data : List UInt8}
    (hfree : (s.window ((s.seq + 1) % 8)).length = 0) :
    QueueOk (Steg.takeData { s with retranstep := 0 } i data) := by
  rcases hq with hq | ⟨q, k, hq, hne, hn, hc, hwin⟩
  · exact Or.inl hq
  · rcases hstep with hnil | hstep
    · exact Or.inl hnil
    · rcases hwin with hwin | hwin
      · exact absurd hwin hstep
      · refine Or.inr ⟨rfl, q, k, hq, hne, ?_, hc.mono (List.prefix_append _ _)⟩
        have hk : k % 8 ≠ (s.seq + 1) % 8 := fun hk => hwin (by rw [hk]; exact hfree)
        have hlen : (Steg.takeData { s with retranstep := 0 } i data).taken.length =
          s.taken.length + 1 := by simp [Steg.takeData]
        rw [hlen]
        omega

theorem Requeued.queueOk (hq : Requeued s) : QueueOk { s with retranstep := 0 } := by
  rcases hq with hq | ⟨q, k, hq, hne, hn, hc, -⟩
  · exact Or.inl hq
  · exact Or.inr ⟨rfl, q, k, hq, hne, hn, hc⟩

theorem source_spec {i : Nat} (h : source s = some i) : i < 2 ∧ (s.sd i).length ≠ 0 := by
  unfold source at h
  split at h
  · cases h
    exact ⟨by omega, by assumption⟩
  · split at h
    · cases h
      exact ⟨by omega, by assumption⟩
    · cases h

theorem Codec.saedu_range (codec : Codec) : 0 < codec.saedu ∧ codec.saedu < 1024 := by
  cases codec <;> decide

/-- The part of `Embedding` that does not send a frame again. -/
theorem Sender.embedNew (codec : Codec) (h : Sender s a) (hq : Requeued s)
    (hstep : s.retrans = [] ∨ s.retranstep ≠ 0) :
    ∃ num, Embedded s (embedNew codec.saedu s).1 (embedNew codec.saedu s).2 a num := by
  have h0 : Sender { s with retranstep := 0 } a :=
    ⟨h.seq, h.rann, h.acked, h.room, h.held, h.slot, h.time, h.types⟩
  have hempty : Embedded s { s with retranstep := 0 } (emptyFrame { s with retranstep := 0 }) a 0 :=
    ⟨h0, hq.queueOk, List.prefix_rfl, dataOk_emptyFrame { s with retranstep := 0 } _,
      getAnn_emptyFrame _, ⟨rfl, rfl, rfl, rfl, rfl⟩⟩
  unfold Steg.embedNew
  dsimp only
  by_cases hfull : (s.window ((s.seq + 1) % 8)).length ≠ 0
  · rw [if_pos hfull]
    exact ⟨0, hempty⟩
  · rw [if_neg hfull]
    have hfree : (s.window ((s.seq + 1) % 8)).length = 0 := not_not.mp hfull
    cases hsrc : source { s with retranstep := 0 } with
    | none => exact ⟨0, hempty⟩
    | some i =>
        rcases source_spec hsrc with ⟨hi, hne⟩
        have hcap := codec.saedu_range
        have hd : ((s.sd i).take codec.saedu).length ≠ 0 := by
          rw [List.length_take]
          have hne : (s.sd i).length ≠ 0 := hne
          omega
        have hl : ((s.sd i).take codec.saedu).length < 1024 := by
          rw [List.length_take]
          omega
        have hnew := carries_newFrame (s := { s with retranstep := 0 }) h.seq hi hd hl
        refine ⟨s.taken.length + 1, h0.takeData hi hd hl hfree,
          hq.takeData h.seq hstep hfree, List.prefix_append _ _, fun ack => ⟨le_rfl, Or.inr ?_⟩,
          getAnn_setLen (Nat.mod_lt _ (by omega)), ⟨rfl, rfl, rfl, rfl, rfl⟩⟩
        have hlen : (Steg.takeData { s with retranstep := 0 } i
          ((s.sd i).take codec.saedu)).taken.length = s.taken.length + 1 := by simp [Steg.takeData]
        dsimp only
        rw [hlen]
        exact ⟨by omega, le_rfl, hnew⟩

/-- **`Embedding` at the sender.** -/
theorem Sender.embedding (codec : Codec) (h : Sender s a) (hq : QueueOk s) :
    ∃ num, Embedded s (embedding codec.saedu s).1 (embedding codec.saedu s).2 a num := by
  rcases h.retransmission hq with ⟨hs, hreq⟩
  -- `Retransmission` leaves the counters and the receiver as they are.
  have hsame : ∀ {s' f num}, Embedded (Steg.retransmission s) s' f a num → Embedded s s' f a num := by
    intro s' f num he
    have hr : SameReceiver s (Steg.retransmission s) ∧ (Steg.retransmission s).taken = s.taken := by
      unfold Steg.retransmission Steg.requeue
      dsimp only
      split <;> exact ⟨⟨rfl, rfl, rfl, rfl, rfl⟩, rfl⟩
    exact ⟨he.sender, he.queue, by rw [← hr.2]; exact he.grows, he.data,
      by rw [he.ann, hr.1.lastRSEQ],
      ⟨by rw [he.same.lastRSEQ, hr.1.lastRSEQ], by rw [he.same.cache, hr.1.cache],
       by rw [he.same.committed, hr.1.committed], by rw [he.same.rc, hr.1.rc],
       by rw [he.same.overflow, hr.1.overflow]⟩⟩
  unfold Steg.embedding
  dsimp only
  cases hret : (Steg.retransmission s).retrans with
  | nil =>
      rcases hs.embedNew codec hreq (Or.inl hret) with ⟨num, he⟩
      exact ⟨num, hsame he⟩
  | cons q l =>
      dsimp only
      by_cases hstep : (Steg.retransmission s).retranstep = 0
      · rw [if_pos hstep]
        rcases hreq with hnil | ⟨q', k, hq', hne, hn, hc, -⟩
        · rw [hret] at hnil
          cases hnil
        · rw [hret] at hq'
          cases hq'
          rw [if_pos hne]
          refine ⟨k, hsame ⟨⟨hs.seq, hs.rann, hs.acked, hs.room, hs.held, hs.slot, hs.time,
            hs.types⟩, Or.inl rfl, List.prefix_rfl, fun ack => ⟨le_rfl, Or.inr ?_⟩,
            getAnn_resendFrame _ _, ⟨rfl, rfl, rfl, rfl, rfl⟩⟩⟩
          have hle := hc.le_length
          exact ⟨by dsimp only; omega, hle, hc.resend _⟩
      · rw [if_neg hstep]
        rcases hs.embedNew codec hreq (Or.inr hstep) with ⟨num, he⟩
        exact ⟨num, hsame he⟩

end Steg
