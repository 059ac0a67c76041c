import PjProject.Library.Run
import PjProject.Steg.Link

set_option autoImplicit false

/-! # Delivery

What `Retriving` does to the two roles of a side: as a receiver it caches and commits frames
(`Receiver.retriving`), as a sender it only learns an acknowledgement (`Link.heard`). The
lemmas about `Link` at the end say what each event does to one direction of a call.
-/

namespace Steg

variable {s s' r r' : Suit} {a top : Nat} {taken : List (Nat × List UInt8)}

/-! ## The receiver -/

/-- Nothing that belongs to the sending role has changed, except for the acknowledgement. -/
structure SameSender (s s' : Suit) : Prop where
  seq : s'.seq = s.seq
  window : s'.window = s.window
  retrans : s'.retrans = s.retrans
  retranstep : s'.retranstep = s.retranstep
  taken : s'.taken = s.taken

theorem SameSender.trans {s'' : Suit} (h1 : SameSender s s') (h2 : SameSender s' s'') :
    SameSender s s'' :=
  ⟨h2.seq.trans h1.seq, h2.window.trans h1.window, h2.retrans.trans h1.retrans,
   h2.retranstep.trans h1.retranstep, h2.taken.trans h1.taken⟩

/-- As long as no receive buffer has overflowed, each holds the payloads of its type that have
been committed. -/
def Stored (r : Suit) : Prop :=
  r.overflow = false →
    ∀ t, r.rc t = (r.committed.filter fun x => x.1 == t + 1).flatMap fun x => x.2

/-- Appending a payload to a buffer that has room for it. -/
theorem Stored.commit {saedu type : Nat} {data : List UInt8} (h : Stored r) (ht : type ≠ 0) :
    Stored (commit saedu r type data) := by
  intro hov t
  simp only [Steg.commit, Bool.or_eq_false_iff, decide_eq_false_iff_not] at hov
  have hold := h hov.1
  simp only [Steg.commit, if_neg hov.2, List.filter_append, List.flatMap_append]
  by_cases hty : t = type - 1
  · have heq : (type == t + 1) = true := by simp; omega
    rw [hty, Function.update_self, hold]
    rw [← hty]
    simp [heq]
  · have hne : (type == t + 1) = false := by simp; omega
    rw [Function.update_of_ne hty, hold]
    simp [hne]

/-- What the receiver keeps while it handles a packet. -/
structure Handled (r r' : Suit) (taken : List (Nat × List UInt8)) (top : Nat) : Prop where
  receiver : Receiver r' taken top
  same : SameSender r r'
  grows : r.committed <+: r'.committed
  stored : Stored r → Stored r'

theorem Handled.refl (h : Receiver r taken top) : Handled r r taken top :=
  ⟨h, ⟨rfl, rfl, rfl, rfl, rfl⟩, List.prefix_rfl, id⟩

theorem Handled.trans {r'' : Suit} {top' : Nat} (h1 : Handled r r' taken top')
    (h2 : Handled r' r'' taken top) : Handled r r'' taken top :=
  ⟨h2.receiver, h1.same.trans h2.same, h1.grows.trans h2.grows, fun h => h2.stored (h1.stored h)⟩

theorem Receiver.mono (h : Receiver r taken top) {top' : Nat} (ht : top ≤ top') :
    Receiver r taken top' :=
  ⟨h.rseq, h.committed, h.top_le.trans ht, fun i hi hne => by
    rcases h.cache i hi hne with ⟨k, hk, h1, h2, h3, hc⟩
    exact ⟨k, hk, h1, h2, h3.trans ht, hc⟩⟩

/-- The next frame is appended to what has been committed. -/
theorem prefix_snoc {l : List (Nat × List UInt8)} {x : Nat × List UInt8} (h : l <+: taken)
    (hx : taken[l.length]? = some x) : l ++ [x] <+: taken := by
  rcases h with ⟨t, rfl⟩
  cases t with
  | nil => simp at hx
  | cons y t =>
      simp only [List.getElem?_append_right le_rfl, Nat.sub_self, List.getElem?_cons_zero,
        Option.some.injEq] at hx
      exact ⟨t, by simp [hx]⟩

/-- One round of the commit loop: the frame in the next slot is the next frame. -/
theorem Receiver.commit_next (saedu : Nat) (h : Receiver r taken top)
    (htypes : ∀ x ∈ taken, x.1 ≠ 0) (hne : (r.cache ((r.lastRSEQ + 1) % 8)).length ≠ 0) :
    let f := (r.cache ((r.lastRSEQ + 1) % 8)).frame
    let r' := { r with
      cache := Function.update r.cache ((r.lastRSEQ + 1) % 8)
        { r.cache ((r.lastRSEQ + 1) % 8) with length := 0 }
      lastRSEQ := getSeqFromCursor f }
    getLenFromCursor f ≠ 0 ∧
      Handled r (commit saedu r' (getTypeFromCursor f) (f.data.take (getLenFromCursor f))) taken top := by
  intro f r'
  rcases h.cache _ (Nat.mod_lt _ (by omega)) hne with ⟨k, hk, h1, h2, h3, hc⟩
  have hrseq := h.rseq
  have hk1 : k = r.committed.length + 1 := by omega
  subst hk1
  have hdata : f.data.take (getLenFromCursor f) = f.data := by
    rw [← hc.len]
    exact List.take_length
  have hnext : taken[r.committed.length]? = some (getTypeFromCursor f, f.data) := hc.taken
  refine ⟨hc.nonempty, ⟨⟨?_, ?_, ?_, fun i hi hocc => ?_⟩, ⟨rfl, rfl, rfl, rfl, rfl⟩,
    List.prefix_append _ _, fun hst => ?_⟩⟩
  · show getSeqFromCursor f = (r.committed ++ [_]).length % 16
    rw [hc.seq]
    simp
  · rw [hdata]
    exact prefix_snoc h.committed hnext
  · show (r.committed ++ [_]).length ≤ top
    simpa using h3
  · have hlen : (commit saedu r' (getTypeFromCursor f)
        (f.data.take (getLenFromCursor f))).committed.length = r.committed.length + 1 := by
      simp [Steg.commit, r']
    have hcache : (commit saedu r' (getTypeFromCursor f)
        (f.data.take (getLenFromCursor f))).cache = Function.update r.cache ((r.lastRSEQ + 1) % 8)
          { r.cache ((r.lastRSEQ + 1) % 8) with length := 0 } := rfl
    rw [hcache] at hocc ⊢
    rw [hlen]
    by_cases hi' : i = (r.lastRSEQ + 1) % 8
    · rw [hi', Function.update_self] at hocc
      exact absurd rfl hocc
    · rw [Function.update_of_ne hi'] at hocc ⊢
      rcases h.cache i hi hocc with ⟨k', hk', h1', h2', h3', hc'⟩
      -- Another slot holds another number, which is after the next one.
      exact ⟨k', hk', by omega, by omega, h3', hc'⟩
  · have hty : getTypeFromCursor f ≠ 0 := htypes _ (List.mem_of_getElem? hnext)
    exact Stored.commit (show Stored r' from hst) hty

theorem Receiver.commitLoop (saedu : Nat) (htypes : ∀ x ∈ taken, x.1 ≠ 0) (fuel : Nat) :
    ∀ r, Receiver r taken top → Handled r (commitLoop saedu fuel r) taken top := by
  induction fuel with
  | zero => exact fun r h => .refl h
  | succ fuel ih =>
      intro r h
      unfold Steg.commitLoop
      dsimp only
      by_cases hne : (r.cache ((r.lastRSEQ + 1) % 8)).length ≠ 0
      · rcases h.commit_next saedu htypes hne with ⟨hlen, hh⟩
        rw [if_pos hne, if_pos hlen]
        exact hh.trans (ih _ hh.receiver)
      · rw [if_neg hne]
        exact .refl h

/-- The acknowledgement is only changed by `STMR`'s first half. -/
theorem commitLoop_lastRANN (saedu fuel : Nat) :
    ∀ r, (commitLoop saedu fuel r).lastRANN = r.lastRANN := by
  induction fuel with
  | zero => exact fun r => rfl
  | succ fuel ih =>
      intro r
      unfold Steg.commitLoop
      dsimp only
      split
      · rw [ih]
        split <;> rfl
      · rfl

/-- `Between` takes a packet for a new one if its frame has not been committed. -/
theorem Receiver.between_iff (h : Receiver r taken top) {p : Packet} (htop : top ≤ p.2.sent)
    (hn : p.2.sent < p.2.num + 8) (hle : p.2.num ≤ p.2.sent) (hc : Carries p.1 taken p.2.num)
    (hahead : p.2.sent ≤ r.committed.length + 8) :
    between (getSeqFromCursor p.1) r.lastRSEQ = true ↔ r.committed.length < p.2.num := by
  have htl := h.top_le
  rw [hc.seq, h.rseq]
  exact Steg.between_iff (by omega) (by omega)

/-- The first half of `STMR` on a packet whose frame is at most eight numbers ahead. -/
theorem Receiver.accept (h : Receiver r taken top) {p : Packet} (hp : DataOk taken p)
    (htop : top ≤ p.2.sent) (hahead : p.2.sent ≤ r.committed.length + 8) :
    ∃ r', accept r p.1 = some r' ∧ Handled r r' taken p.2.sent ∧
      (r'.lastRANN = r.lastRANN ∨ r'.lastRANN = getAnnFromCursor p.1) := by
  have hr := h.mono htop
  unfold Steg.accept
  rcases hp.data with ⟨hsyn, hlen⟩ | ⟨hn, hle, hc⟩
  · rw [if_neg (not_not.mpr hsyn), if_pos hlen]
    exact ⟨_, rfl, ⟨⟨hr.rseq, hr.committed, hr.top_le, hr.cache⟩, ⟨rfl, rfl, rfl, rfl, rfl⟩,
      List.prefix_rfl, id⟩, Or.inr rfl⟩
  · have hpar : parity (p.1.data.take (getLenFromCursor p.1)) = p.1.b1.toNat / 128 := by
      rw [← hc.len, List.take_length]
      exact hc.parity
    have hiff := h.between_iff htop hn hle hc hahead
    rw [if_neg (not_not.mpr hc.syn), if_neg hc.nonempty, if_neg (not_not.mpr hpar)]
    by_cases hbet : between (getSeqFromCursor p.1) r.lastRSEQ = true
    · rw [if_pos hbet]
      have hnum := hiff.mp hbet
      have hslot : getSeqFromCursor p.1 % 8 = p.2.num % 8 := by
        rw [hc.seq]
        omega
      refine ⟨_, rfl, ⟨⟨hr.rseq, hr.committed, hr.top_le, fun i hi hne => ?_⟩,
        ⟨rfl, rfl, rfl, rfl, rfl⟩, List.prefix_rfl, id⟩, Or.inr rfl⟩
      dsimp only at hne ⊢
      by_cases hi' : i = getSeqFromCursor p.1 % 8
      · rw [hi', Function.update_self]
        exact ⟨p.2.num, hslot.symm, hnum, by omega, hle, hc⟩
      · rw [Function.update_of_ne hi'] at hne ⊢
        exact hr.cache i hi hne
    · rw [if_neg hbet]
      exact ⟨r, rfl, .refl hr, Or.inl rfl⟩

/-- **`Retriving` at the receiver.** -/
theorem Receiver.retriving (saedu : Nat) (htypes : ∀ x ∈ taken, x.1 ≠ 0) (h : Receiver r taken top)
    {p : Packet} (hp : DataOk taken p) (htop : top ≤ p.2.sent)
    (hahead : p.2.sent ≤ r.committed.length + 8) :
    Handled r (retriving saedu r p.1) taken p.2.sent ∧
      ((retriving saedu r p.1).lastRANN = r.lastRANN ∨
        (retriving saedu r p.1).lastRANN = getAnnFromCursor p.1) := by
  unfold Steg.retriving
  split
  · exact ⟨.refl (h.mono htop), Or.inl rfl⟩
  · rcases h.accept hp htop hahead with ⟨r', hr', hh, hann⟩
    unfold stmr
    rw [hr']
    dsimp only
    rw [commitLoop_lastRANN]
    exact ⟨hh.trans (Receiver.commitLoop saedu htypes 8 r' hh.receiver), hann⟩

/-! ## One direction of a call -/

variable {out back : List Packet} {p : Packet}

theorem Sender.of_same (h : Sender s a) (hs : SameSender s s') {a' : Nat}
    (hann : s'.lastRANN = (a' + 1) % 16) (hle : a ≤ a') (hn : a' ≤ s.taken.length) :
    Sender s' a' := by
  have hroom := h.room
  refine ⟨by rw [hs.seq, hs.taken]; exact h.seq, hann, by rw [hs.taken]; exact hn,
    by rw [hs.taken]; omega, ?_, ?_, ?_, by rw [hs.taken]; exact h.types⟩
  · rw [hs.window, hs.taken]
    exact fun k h1 h2 => h.held k (by omega) h2
  · rw [hs.window, hs.taken]
    exact h.slot
  · rw [hs.window]
    exact h.time

theorem QueueOk.of_same (h : QueueOk s) (hs : SameSender s s') : QueueOk s' := by
  unfold QueueOk at h ⊢
  rw [hs.retrans, hs.retranstep, hs.taken]
  exact h

theorem Receiver.of_same (h : Receiver r taken top) (hr : SameReceiver r r') :
    Receiver r' taken top := by
  refine ⟨by rw [hr.lastRSEQ, hr.committed]; exact h.rseq, by rw [hr.committed]; exact h.committed,
    by rw [hr.committed]; exact h.top_le, ?_⟩
  rw [hr.cache, hr.committed]
  exact h.cache

theorem DataOk.mono {taken' : List (Nat × List UInt8)} (h : DataOk taken p)
    (ht : taken <+: taken') : DataOk taken' p := by
  refine ⟨h.sent_le.trans ht.length_le, ?_⟩
  rcases h.data with hempty | ⟨h1, h2, hc⟩
  · exact Or.inl hempty
  · exact Or.inr ⟨h1, h2, hc.mono ht⟩

theorem Link.committed_le (h : Link s r out back a top) : r.committed.length ≤ s.taken.length :=
  h.receiver.committed.length_le

/-- The sender embeds a frame. -/
theorem Link.embedding (h : Link s r out back a top) {f : Frame} {num ack : Nat}
    (he : Embedded s s' f a num) :
    Link s' r (out ++ [(f, ⟨num, s'.taken.length, ack⟩)]) back a top := by
  have hlen := he.grows.length_le
  have htop := h.top_le
  refine ⟨he.sender, he.queue, ⟨h.receiver.rseq, h.receiver.committed.trans he.grows,
    h.receiver.top_le, fun i hi hne => ?_⟩, ⟨fun q hq => ?_, fun q hq => ?_, ?_⟩, h.backward,
    h.acked, by omega⟩
  · rcases h.receiver.cache i hi hne with ⟨k, hk, h1, h2, h3, hc⟩
    exact ⟨k, hk, h1, h2, h3, hc.mono he.grows⟩
  · rcases List.mem_append.mp hq with hq | hq
    · exact (h.forward.data q hq).mono he.grows
    · rw [List.mem_singleton.mp hq]
      exact he.data ack
  · rcases List.mem_append.mp hq with hq | hq
    · exact h.forward.top q hq
    · rw [List.mem_singleton.mp hq]
      dsimp only
      omega
  · refine List.pairwise_append.mpr ⟨h.forward.order, List.pairwise_singleton _ _, ?_⟩
    intro q hq q' hq'
    rw [List.mem_singleton.mp hq']
    exact (h.forward.data q hq).sent_le.trans hlen

/-- The receiver embeds a frame, with the acknowledgement of what it has committed. -/
theorem Link.answered (h : Link s r out back a top) {f : Frame} {tag : Tag}
    (hr : SameReceiver r r') (hann : getAnnFromCursor f = (r.lastRSEQ + 1) % 16)
    (htag : tag.ack = r.committed.length) : Link s r' out (back ++ [(f, tag)]) a top := by
  have hrseq := h.receiver.rseq
  refine ⟨h.sender, h.queue, h.receiver.of_same hr, h.forward, ?_, by rw [hr.committed]; exact h.acked,
    h.top_le⟩
  rw [hr.committed]
  refine ⟨fun q hq => ?_, fun q hq => ?_, ?_⟩
  · rcases List.mem_append.mp hq with hq | hq
    · exact h.backward.ann q hq
    · rw [List.mem_singleton.mp hq]
      dsimp only
      rw [hann, htag]
      omega
  · rcases List.mem_append.mp hq with hq | hq
    · exact h.backward.range q hq
    · rw [List.mem_singleton.mp hq]
      dsimp only
      rw [htag]
      exact ⟨h.acked, le_rfl⟩
  · refine List.pairwise_append.mpr ⟨h.backward.order, List.pairwise_singleton _ _, ?_⟩
    intro q hq q' hq'
    rw [List.mem_singleton.mp hq']
    dsimp only
    rw [htag]
    exact (h.backward.range q hq).2

/-- The receiver is at most eight frames behind what a packet to it has seen. -/
theorem Link.sent_le (h : Link s r (p :: out) back a top) : p.2.sent ≤ r.committed.length + 8 := by
  have hroom := h.sender.room
  have hacked := h.acked
  have hsent := (h.forward.data p List.mem_cons_self).sent_le
  omega

/-- The packet that has been on its way longest carries a frame that the receiver can place. -/
theorem Link.handled (h : Link s r (p :: out) back a top) (saedu : Nat) :
    Handled r (Steg.retriving saedu r p.1) s.taken p.2.sent ∧
      ((Steg.retriving saedu r p.1).lastRANN = r.lastRANN ∨
        (Steg.retriving saedu r p.1).lastRANN = getAnnFromCursor p.1) :=
  h.receiver.retriving saedu h.sender.types (h.forward.data p List.mem_cons_self)
    (h.forward.top p List.mem_cons_self) h.sent_le

/-- The receiver handles this packet. -/
theorem Link.received (h : Link s r (p :: out) back a top) (hh : Handled r r' s.taken p.2.sent) :
    Link s r' out back a p.2.sent := by
  have hord := List.pairwise_cons.mp h.forward.order
  have hgrow := hh.grows.length_le
  have hacked := h.acked
  refine ⟨h.sender, h.queue, hh.receiver,
    ⟨fun q hq => h.forward.data q (List.mem_cons_of_mem p hq), hord.1, hord.2⟩,
    ⟨h.backward.ann, fun q hq => ?_, h.backward.order⟩, by omega,
    (h.forward.data p List.mem_cons_self).sent_le⟩
  have hrange := h.backward.range q hq
  exact ⟨hrange.1, hrange.2.trans hgrow⟩

/-- The sender handles a packet of the receiver and may learn its acknowledgement. -/
theorem Link.heard (h : Link s r out (p :: back) a top) (hs : SameSender s s')
    (hann : s'.lastRANN = s.lastRANN ∨ s'.lastRANN = getAnnFromCursor p.1) :
    ∃ a', Link s' r out back a' top := by
  have hord := List.pairwise_cons.mp h.backward.order
  have hrange := h.backward.range p List.mem_cons_self
  have hcn := h.committed_le
  rcases hann with hann | hann
  · have hs' : Sender s' a :=
      h.sender.of_same hs (by rw [hann]; exact h.sender.rann) le_rfl h.sender.acked
    exact ⟨a, hs', h.queue.of_same hs, by rw [hs.taken]; exact h.receiver,
      by rw [hs.taken]; exact h.forward,
      ⟨fun q hq => h.backward.ann q (List.mem_cons_of_mem p hq),
       fun q hq => h.backward.range q (List.mem_cons_of_mem p hq), hord.2⟩, h.acked,
      by rw [hs.taken]; exact h.top_le⟩
  · have hs' : Sender s' p.2.ack := by
      refine h.sender.of_same hs ?_ hrange.1 (hrange.2.trans hcn)
      rw [hann]
      exact h.backward.ann p List.mem_cons_self
    exact ⟨p.2.ack, hs', h.queue.of_same hs, by rw [hs.taken]; exact h.receiver,
      by rw [hs.taken]; exact h.forward,
      ⟨fun q hq => h.backward.ann q (List.mem_cons_of_mem p hq),
       fun q hq => ⟨hord.1 q hq, (h.backward.range q (List.mem_cons_of_mem p hq)).2⟩, hord.2⟩,
      hrange.2, by rw [hs.taken]; exact h.top_le⟩

/-- Packets to the receiver are lost. -/
theorem Link.lose_out {out' : List Packet} (h : Link s r out back a top)
    (hsub : out'.Sublist out) : Link s r out' back a top :=
  ⟨h.sender, h.queue, h.receiver,
    ⟨fun q hq => h.forward.data q (hsub.subset hq), fun q hq => h.forward.top q (hsub.subset hq),
     h.forward.order.sublist hsub⟩, h.backward, h.acked, h.top_le⟩

/-- Packets to the sender are lost. -/
theorem Link.lose_back {back' : List Packet} (h : Link s r out back a top)
    (hsub : back'.Sublist back) : Link s r out back' a top :=
  ⟨h.sender, h.queue, h.receiver, h.forward,
    ⟨fun q hq => h.backward.ann q (hsub.subset hq), fun q hq => h.backward.range q (hsub.subset hq),
     h.backward.order.sublist hsub⟩, h.acked, h.top_le⟩

end Steg

/-! ## Runs of a call

Two sides send, embed, retrieve and lose packets in any order. What a side commits is a prefix of
what the other side has taken from its buffers, in both directions (`Linked`).

`call_run_no_hole`: every frame that has been taken and not been committed can still be sent again,
provided that `Configure` is only called while no frame is outstanding. `configure_hole` is a run in
which it is called at another moment.
-/

namespace Steg

open Machine

/-! ## The invariant of a call -/

/-- Both directions of a call are in order. -/
def Linked (c : Call) : Prop :=
  ∃ (out back : List Packet) (a top a' top' : Nat), out.map (·.1) = c.out ∧ back.map (·.1) = c.back ∧
    Link c.suit c.peer out back a top ∧ Link c.peer c.suit back out a' top'

theorem Linked.swap {c : Call} (h : Linked c) : Linked c.swap := by
  rcases h with ⟨out, back, a, top, a', top', ho, hb, h1, h2⟩
  exact ⟨back, out, a', top', a, top, hb, ho, h2, h1⟩

/-- No frame of the side is outstanding: whatever is in its window has been acknowledged. -/
def quiet (s : Suit) : Bool :=
  (List.range 8).all fun i =>
    (s.window i).length == 0 || inside (getSeqFromCursor (s.window i).frame) s.lastRANN

/-- `Configure` is only called at a side without an outstanding frame. -/
def quietConfigure (c : Call) (a : Bool × Action) : Bool :=
  a.2 != .configure || quiet (if a.1 then c.suit else c.peer)

theorem link_create : Link create create [] [] 0 0 := by
  refine ⟨⟨rfl, rfl, le_rfl, by decide, fun k h1 h2 => ?_, fun i _ h => absurd rfl h,
    fun i h => absurd rfl h, nofun⟩, Or.inl rfl, ⟨rfl, List.prefix_rfl, le_rfl,
    fun i _ h => absurd rfl h⟩, ⟨nofun, nofun, .nil⟩, ⟨nofun, nofun, .nil⟩, le_rfl, le_rfl⟩
  have h2 : k ≤ 0 := h2
  omega

theorem linked_begin : Linked Call.begin :=
  ⟨[], [], 0, 0, 0, 0, rfl, rfl, link_create, link_create⟩

variable {s r : Suit} {out back : List Packet} {a top : Nat}

/-- A side without an outstanding frame has all its frames acknowledged. -/
theorem Sender.taken_le_of_quiet (h : Sender s a) (hq : quiet s = true) : s.taken.length ≤ a := by
  by_contra hlt
  have hlt8 : s.taken.length % 8 < 8 := Nat.mod_lt _ (by omega)
  have hne := h.held s.taken.length (by omega) le_rfl
  rcases h.slot _ hlt8 hne with ⟨k, hk, hn, hc⟩
  have hle := hc.le_length
  have hin := List.all_eq_true.mp hq _ (List.mem_range.mpr hlt8)
  have h0 : ((s.window (s.taken.length % 8)).length == 0) = false := by simpa using hne
  rw [h0, Bool.false_or, h.inside_iff hn hc] at hin
  omega

/-- `Configure` at a sender without an outstanding frame. -/
theorem Link.configure_sender (h : Link s r out back a top) (hq : quiet s = true) :
    Link (configure s) r out back a top := by
  have hle := h.sender.taken_le_of_quiet hq
  refine ⟨⟨h.sender.seq, h.sender.rann, h.sender.acked, h.sender.room, fun k h1 h2 => ?_,
    fun i _ hne => absurd rfl hne, fun i ht => absurd rfl ht, h.sender.types⟩, h.queue, h.receiver,
    h.forward, h.backward, h.acked, h.top_le⟩
  have h2 : k ≤ s.taken.length := h2
  omega

/-- `Configure` at the receiver empties its cache; the sender still has these frames. -/
theorem Link.configure_receiver (h : Link s r out back a top) : Link s (configure r) out back a top :=
  ⟨h.sender, h.queue, ⟨h.receiver.rseq, h.receiver.committed, h.receiver.top_le,
    fun _ _ hne => absurd rfl hne⟩, h.forward, h.backward, h.acked, h.top_le⟩

/-- `Send` only touches the send buffers. -/
theorem send_same (saedu : Nat) (s : Suit) (src : List UInt8) (type : Nat) :
    SameSender s (send saedu s src type) ∧ SameReceiver s (send saedu s src type) ∧
      (send saedu s src type).lastRANN = s.lastRANN := by
  unfold send
  split <;> exact ⟨⟨rfl, rfl, rfl, rfl, rfl⟩, ⟨rfl, rfl, rfl, rfl, rfl⟩, rfl⟩

/-- A change of the sender that does not concern the link. -/
theorem Link.of_same_sender {s' : Suit} (h : Link s r out back a top) (hs : SameSender s s')
    (hann : s'.lastRANN = s.lastRANN) : Link s' r out back a top :=
  ⟨h.sender.of_same hs (by rw [hann]; exact h.sender.rann) le_rfl h.sender.acked,
    h.queue.of_same hs, by rw [hs.taken]; exact h.receiver, by rw [hs.taken]; exact h.forward,
    h.backward, h.acked, by rw [hs.taken]; exact h.top_le⟩

/-- A change of the receiver that does not concern the link. -/
theorem Link.of_same_receiver {r' : Suit} (h : Link s r out back a top) (hr : SameReceiver r r') :
    Link s r' out back a top :=
  ⟨h.sender, h.queue, h.receiver.of_same hr, h.forward, by rw [hr.committed]; exact h.backward,
    by rw [hr.committed]; exact h.acked, h.top_le⟩

/-- What the first side does keeps both directions. -/
theorem Linked.act {c : Call} (h : Linked c) (codec : Codec) (x : Action)
    (hx : x = .configure → quiet c.suit = true) : Linked (act codec c x) := by
  rcases h with ⟨out, back, a, top, a', top', ho, hb, h1, h2⟩
  cases x with
  | send src type =>
      rcases send_same codec.saedu c.suit src type with ⟨hs, hr, hann⟩
      exact ⟨out, back, a, top, a', top', ho, hb, h1.of_same_sender hs hann, h2.of_same_receiver hr⟩
  | embedding =>
      rcases h1.sender.embedding codec h1.queue with ⟨num, he⟩
      let r := Steg.embedding codec.saedu c.suit
      have hl : Link r.1 c.peer (out ++ [(r.2, ⟨num, r.1.taken.length, c.suit.committed.length⟩)])
        back a top := h1.embedding he
      refine ⟨_, back, a, top, a', top', ?_, hb, hl, h2.answered he.same he.ann rfl⟩
      rw [List.map_append, ho]
      rfl
  | retriving =>
      cases back with
      | nil =>
          have hnil : c.back = [] := hb.symm
          simp only [Steg.act, hnil]
          exact ⟨out, [], a, top, a', top', ho, hnil.symm, h1, h2⟩
      | cons p back =>
          have hcons : c.back = p.1 :: back.map (·.1) := hb.symm
          simp only [Steg.act, hcons]
          rcases h2.handled codec.saedu with ⟨hh, hann⟩
          rcases h1.heard hh.same hann with ⟨a1, h1'⟩
          exact ⟨out, back, a1, top, a', p.2.sent, ho, rfl, h1', h2.received hh⟩
  | lose i =>
      refine ⟨out.eraseIdx i, back, a, top, a', top', ?_, hb,
        h1.lose_out (List.eraseIdx_sublist _ _), h2.lose_back (List.eraseIdx_sublist _ _)⟩
      show _ = c.out.eraseIdx i
      rw [← ho, List.eraseIdx_map]
  | configure =>
      exact ⟨out, back, a, top, a', top', ho, hb, h1.configure_sender (hx rfl),
        h2.configure_receiver⟩

/-- **The step lemma.** -/
theorem Linked.step {c : Call} (h : Linked c) (codec : Codec) (x : Bool × Action)
    (hx : quietConfigure c x = true) : ∃ c', step codec c x = .ok c' ∧ Linked c' := by
  refine ⟨_, rfl, ?_⟩
  rcases x with ⟨side, x⟩
  have hq : x = .configure → quiet (if side then c.suit else c.peer) = true := by
    rintro rfl
    simpa [quietConfigure] using hx
  cases side with
  | true => exact h.act codec x hq
  | false => exact (h.swap.act codec x hq).swap

/-- The run lemma. -/
theorem call_run_linked (codec : Codec) (l : List (Bool × Action))
    (hl : Meets (step codec) (fun c x => quietConfigure c x = true) Call.begin l) :
    ∃ c, run (step codec) Call.begin l = .ok c ∧ Linked c :=
  run_invariant (fun _ x hc hx => hc.step codec x hx) l Call.begin linked_begin hl

/-! ## No hole -/

/-- The frame with the sequence number `q` is in the sender's window or in the receiver's cache. -/
def Held (s r : Suit) (q : Nat) : Prop :=
  (∃ i < 8, (s.window i).length ≠ 0 ∧ getSeqFromCursor (s.window i).frame = q) ∨
    ∃ i < 8, (r.cache i).length ≠ 0 ∧ getSeqFromCursor (r.cache i).frame = q

instance (s r : Suit) (q : Nat) : Decidable (Held s r q) :=
  inferInstanceAs (Decidable (_ ∨ _))

/-- Every frame number after the receiver's last one up to the sender's is held. -/
def NoHole (s r : Suit) : Prop :=
  ∀ j ≤ (s.seq + 16 - r.lastRSEQ) % 16, 1 ≤ j → Held s r ((r.lastRSEQ + j) % 16)

instance (s r : Suit) : Decidable (NoHole s r) :=
  inferInstanceAs (Decidable (∀ j ≤ (s.seq + 16 - r.lastRSEQ) % 16, 1 ≤ j →
    Held s r ((r.lastRSEQ + j) % 16)))

theorem Link.noHole (h : Link s r out back a top) : NoHole s r := by
  intro j hj h1
  have hseq := h.sender.seq
  have hrseq := h.receiver.rseq
  have hroom := h.sender.room
  have hacked := h.acked
  have hcn := h.committed_le
  -- The difference of the two residues is that of the counters.
  have hj' : r.committed.length + j ≤ s.taken.length := by omega
  have hne := h.sender.held (r.committed.length + j) (by omega) hj'
  rcases h.sender.slot _ (Nat.mod_lt _ (by omega)) hne with ⟨k, hk, hn, hc⟩
  have hle := hc.le_length
  refine Or.inl ⟨_, Nat.mod_lt _ (by omega), hne, ?_⟩
  rw [hc.seq]
  omega

/-- **No sequence hole.** In every run in which `Configure` is only called at a side all of whose
frames are acknowledged, every frame number after the receiver's `m_LastRSEQ` up to the sender's
`m_SEQ` is held in the sender's window or in the receiver's cache, in both directions. -/
theorem call_run_no_hole (codec : Codec) (l : List (Bool × Action))
    (hl : Meets (step codec) (fun c x => quietConfigure c x = true) Call.begin l) :
    ∃ c, run (step codec) Call.begin l = .ok c ∧ NoHole c.suit c.peer ∧ NoHole c.peer c.suit := by
  rcases call_run_linked codec l hl with ⟨c, hc, out, back, a, top, a', top', -, -, h1, h2⟩
  exact ⟨c, hc, h1.noHole, h2.noHole⟩

/-- A message is sent and received, the next one is embedded and lost, and the first one's
acknowledgement comes back before the first side is configured. -/
def quietRun : List (Bool × Action) :=
  [(true, .send [72, 105] 1), (true, .embedding), (false, .retriving), (false, .embedding),
   (true, .retriving), (true, .configure), (true, .send [33] 2), (true, .embedding), (true, .lose 0),
   (false, .configure)]

theorem call_run_no_hole_quiet :
    ∃ c, run (step .g711) Call.begin quietRun = .ok c ∧ c.suit.seq = 2 ∧ c.peer.lastRSEQ = 1 ∧
      NoHole c.suit c.peer ∧ NoHole c.peer c.suit := by
  have h : checkRun (step .g711) quietConfigure
      (fun c => c.suit.seq == 2 && c.peer.lastRSEQ == 1) Call.begin quietRun = true := by
    decide
  rcases checkRun_sound _ _ _ _ _ h with ⟨hm, c, hc, hp⟩
  rcases call_run_no_hole .g711 quietRun hm with ⟨c', hc', h1, h2⟩
  rw [hc] at hc'
  cases hc'
  simp only [Bool.and_eq_true, beq_iff_eq] at hp
  exact ⟨c, hc, hp.1, hp.2, h1, h2⟩

/-- A side that is configured while its first frame is lost has nothing left to send again. -/
theorem configure_hole :
    ∃ c, run (step .g711) Call.begin
        [(true, .send [72, 105] 1), (true, .embedding), (true, .lose 0), (true, .configure)] = .ok c ∧
      ¬ NoHole c.suit c.peer := by
  have h : checkRun (step .g711) (fun _ _ => true)
      (fun c => !decide (NoHole c.suit c.peer)) Call.begin
      [(true, .send [72, 105] 1), (true, .embedding), (true, .lose 0), (true, .configure)] = true := by
    decide
  rcases checkRun_sound _ _ _ _ _ h with ⟨-, c, hc, hp⟩
  exact ⟨c, hc, by simpa using hp⟩

/-! ## The receive buffers -/

theorem Stored.of_same {r' : Suit} (h : Stored r) (hr : SameReceiver r r') : Stored r' := by
  unfold Stored
  rw [hr.overflow, hr.rc, hr.committed]
  exact h

/-- What the first side does, other than `Configure`, keeps the buffers of both sides. -/
theorem stored_act {c : Call} (h : Linked c) (codec : Codec) {x : Action} (hx : x ≠ .configure)
    (hs : Stored c.suit ∧ Stored c.peer) :
    Stored (act codec c x).suit ∧ Stored (act codec c x).peer := by
  rcases h with ⟨out, back, a, top, a', top', -, hb, h1, h2⟩
  cases x with
  | send src type => exact ⟨hs.1.of_same (send_same codec.saedu c.suit src type).2.1, hs.2⟩
  | embedding =>
      rcases h1.sender.embedding codec h1.queue with ⟨num, he⟩
      exact ⟨hs.1.of_same he.same, hs.2⟩
  | retriving =>
      cases back with
      | nil =>
          have hnil : c.back = [] := hb.symm
          simp only [act, hnil]
          exact hs
      | cons p back =>
          have hcons : c.back = p.1 :: back.map (·.1) := hb.symm
          simp only [act, hcons]
          rcases h2.handled codec.saedu with ⟨hh, -⟩
          exact ⟨hh.stored hs.1, hs.2⟩
  | lose i => exact hs
  | configure => exact absurd rfl hx

end Steg
