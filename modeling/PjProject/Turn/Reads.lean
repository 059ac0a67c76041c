import PjProject.Turn.Chunks

set_option autoImplicit false

/-! # Framing over all reads

`framed_iff`: which reads give the messages of a TCP connection to the session, each once and from
its first byte. The invariant (`Good`) splits the messages into those that have been handed over and
those that begin behind; the buffer begins with the first of these, or what has been received ends
in the padding of the last of those. Once a buffer that does not begin with a message has been
handed over, or the first byte of a message is lost, it stays so (`Broken`).
-/

namespace Turn

open Wire Stun

variable {env : MsgEnv} {msgs done todo : List TurnMsg} {r r' : ReadOp}
  {unread bytes : List UInt8} {b c : Nat}

/-! ## One read -/

/-- The buffer before the loop. -/
def ReadOp.recv (r : ReadOp) (bytes : List UInt8) : ReadOp :=
  { r with pkt := r.pkt ++ bytes, stale := r.stale.drop bytes.length }

/-- The buffer after the loop. -/
def ReadOp.keep (r : ReadOp) (remainder : Nat) : ReadOp :=
  { r with
    pkt := r.pkt.take remainder
    stale := r.pkt.drop remainder ++ r.stale
    pos := r.pos + (r.pkt.length - remainder) }

theorem onDataRead_eq (env : MsgEnv) (r : ReadOp) (bytes : List UInt8) :
    onDataRead env .tcp r bytes =
      (onDataReadLoop env .tcp ((r.recv bytes).pkt.length + 1) 0 (r.recv bytes)).1.keep
        (onDataReadLoop env .tcp ((r.recv bytes).pkt.length + 1) 0 (r.recv bytes)).2 := rfl

theorem received_recv (r : ReadOp) (bytes : List UInt8) :
    (r.recv bytes).received = r.received + bytes.length := by
  show r.pos + (r.pkt ++ bytes).length = r.pos + r.pkt.length + bytes.length
  rw [List.length_append, Nat.add_assoc]

theorem received_read (env : MsgEnv) (r : ReadOp) (bytes : List UInt8) :
    (onDataRead env .tcp r bytes).received = r.received + bytes.length := by
  have hkeep : ∀ (l : ReadOp) (n : Nat), (l.keep n).received = l.received := by
    intro l n
    show l.pos + (l.pkt.length - n) + (l.pkt.take n).length = l.pos + l.pkt.length
    rw [List.length_take]
    omega
  rw [onDataRead_eq, hkeep, received_loop, received_recv]

theorem extends_read (env : MsgEnv) (r : ReadOp) (bytes : List UInt8) :
    Extends r (onDataRead env .tcp r bytes) := by
  have hrecv : Extends r (r.recv bytes) := extends_same rfl (Nat.le_refl _) fun hb => hb
  rw [onDataRead_eq]
  exact (hrecv.trans (extends_loop env _ _ _)).trans
    (extends_same rfl (Nat.le_add_right _ _) fun hb => hb)

/-- A read that completes no packet: nothing is kept. -/
theorem read_lost (env : MsgEnv) (hstop : hasPacket .tcp ((r.recv bytes).pkt ++ (r.recv bytes).stale)
      (r.recv bytes).pkt.length = 0) :
    (onDataRead env .tcp r bytes).pkt = [] ∧
      (onDataRead env .tcp r bytes).pos = r.received + bytes.length ∧
      (onDataRead env .tcp r bytes).handed = r.handed := by
  rw [onDataRead_eq, loop_stop hstop]
  refine ⟨rfl, ?_, rfl⟩
  show r.pos + ((r.pkt ++ bytes).length - 0) = r.pos + r.pkt.length + bytes.length
  rw [List.length_append]
  omega

/-! ## The invariant -/

/-- The buffer begins with the first message of `todo`, which is not complete. -/
structure AtMessage (done todo : List TurnMsg) (unread : List UInt8) (r : ReadOp) : Prop where
  pos : r.pos = (stream done).length
  buffer : r.pkt ++ unread = stream todo
  next : ∀ m, todo.head? = some m → r.pkt.length < m.dataLen

/-- The padding of the last message of `done` is being received. -/
structure InPadding (done todo : List TurnMsg) (unread : List UInt8) (r : ReadOp) : Prop where
  empty : r.pkt = []
  pos : r.pos < (stream done).length
  dataEnd : ∀ x ∈ marks 0 done, x.dataEnd ≤ r.pos
  padding : ∃ pad, pad.length = (stream done).length - r.pos ∧ pad.length < 4 ∧
    unread = pad ++ stream todo

/-- The messages `done` have been handed over, each once. -/
structure Good (done todo : List TurnMsg) (unread : List UInt8) (r : ReadOp) : Prop where
  handed : r.handed = starts done
  looked : r.pkt = [] → done ≠ [] → r.beyond = true
  place : AtMessage done todo unread r ∨ InPadding done todo unread r

/-- Something else than a message has been handed over, or the beginning of a message is lost. -/
def Broken (msgs : List TurnMsg) (r : ReadOp) : Prop :=
  (∃ x ∈ r.handed, x ∉ starts msgs) ∨ ∃ o ∈ starts msgs, o ∉ r.handed ∧ o < r.pos

theorem Broken.of_extends (h : Broken msgs r) (he : Extends r r') : Broken msgs r' := by
  rcases he.handed with ⟨more, hmore, hle⟩
  rcases h with ⟨x, hx, hne⟩ | ⟨o, ho, hne, hlt⟩
  · refine Or.inl ⟨x, ?_, hne⟩
    rw [hmore]
    exact List.mem_append_left _ hx
  · refine Or.inr ⟨o, ho, fun hmem => ?_, lt_of_lt_of_le hlt he.pos⟩
    rw [hmore] at hmem
    rcases List.mem_append.mp hmem with hmem | hmem
    · exact hne hmem
    · exact absurd (hle o hmem) (Nat.not_le.mpr hlt)

theorem Broken.not_framed (h : Broken msgs r) : r.handed ≠ starts msgs := by
  intro heq
  rcases h with ⟨x, hx, hne⟩ | ⟨o, ho, hne, _⟩
  · rw [heq] at hx
    exact hne hx
  · rw [heq] at hne
    exact hne ho

/-! ## A read keeps the invariant or breaks the framing -/

/-- A read that is right leaves such a buffer; one that is not breaks the framing. -/
def Decided (env : MsgEnv) (msgs : List TurnMsg) (r : ReadOp) (bytes : List UInt8) (P : ReadOp → Prop) :
    Prop :=
  ReadOk msgs r.received (r.received + bytes.length) ∧ P (onDataRead env .tcp r bytes) ∨
    ¬ ReadOk msgs r.received (r.received + bytes.length) ∧ Broken msgs (onDataRead env .tcp r bytes)

theorem mem_marks (done todo : List TurnMsg) (x : Mark) :
    x ∈ marks 0 (done ++ todo) ↔ x ∈ marks 0 done ∨ x ∈ marks (stream done).length todo := by
  rw [marks_append, Nat.zero_add, List.mem_append]

theorem starts_append (done todo : List TurnMsg) :
    starts (done ++ todo) = starts done ++ (marks (stream done).length todo).map Mark.start := by
  unfold starts
  rw [marks_append, Nat.zero_add, List.map_append]

/-- The last message ends with the stream, and the others end before it begins. -/
theorem marks_last : ∀ {msgs : List TurnMsg} (pos : Nat), (∀ m ∈ msgs, m.WellFormed) →
    msgs ≠ [] → ∃ y ∈ marks pos msgs, y.stop = pos + (stream msgs).length ∧
      ∀ x ∈ marks pos msgs, x = y ∨ x.stop ≤ y.start
  | [], _, _, hne => absurd rfl hne
  | [m], pos, _, _ => by
      refine ⟨⟨pos, pos + m.dataLen, pos + m.len⟩, List.mem_cons_self, ?_, fun x hx => ?_⟩
      · rw [length_stream_cons]
        rfl
      · exact Or.inl (List.mem_singleton.mp hx)
  | m :: m' :: msgs, pos, hwf, _ => by
      have hwf' : ∀ a ∈ m' :: msgs, a.WellFormed := fun a ha => hwf a (List.mem_cons_of_mem _ ha)
      rcases marks_last (pos + m.len) hwf' (List.cons_ne_nil _ _) with ⟨y, hy, hstop, hall⟩
      have hstart := (marks_bounds hwf' y hy).1
      refine ⟨y, List.mem_cons_of_mem _ hy, ?_, fun x hx => ?_⟩
      · rw [hstop, length_stream_cons m, Nat.add_assoc]
      · rcases List.mem_cons.mp hx with rfl | hx
        · exact Or.inr hstart
        · exact hall x hx

section Read

variable (hwf : ∀ m ∈ done ++ todo, m.WellFormed)

include hwf

theorem done_wf : ∀ m ∈ done, m.WellFormed := fun m hm => hwf m (List.mem_append_left _ hm)

theorem todo_wf : ∀ m ∈ todo, m.WellFormed := fun m hm => hwf m (List.mem_append_right _ hm)

/-- Behind the data of the messages `done`, nothing ends up to the end of the first one of `todo`. -/
theorem none_ends (hb : ∀ x ∈ marks 0 done, x.dataEnd ≤ b)
    (hc : ∀ m, todo.head? = some m → c < (stream done).length + m.dataLen) :
    ∀ x ∈ marks 0 (done ++ todo), ¬ (b < x.dataEnd ∧ x.dataEnd ≤ c) := by
  intro x hx ⟨hlt, hle⟩
  rcases (mem_marks done todo x).mp hx with hx | hx
  · exact absurd (hb x hx) (Nat.not_le.mpr hlt)
  · cases todo with
    | nil => exact absurd hx List.not_mem_nil
    | cons m todo =>
        have hfirst := first_dataEnd (todo_wf hwf) x hx
        have := hc m rfl
        omega

/-- No message has its padding open at the beginning of a message that has not all its data. -/
theorem none_open (hb : (stream done).length ≤ b)
    (hc : ∀ m, todo.head? = some m → b < (stream done).length + m.dataLen) :
    ∀ x ∈ marks 0 (done ++ todo), ¬ (x.dataEnd ≤ b ∧ b < x.stop) := by
  intro x hx ⟨hle, hlt⟩
  rcases (mem_marks done todo x).mp hx with hx | hx
  · have := (marks_bounds (done_wf hwf) x hx).2.2.2
    omega
  · cases todo with
    | nil => exact absurd hx List.not_mem_nil
    | cons m todo =>
        have hfirst := first_dataEnd (todo_wf hwf) x hx
        have := hc m rfl
        omega

/-- The first message of `todo` has not been handed over. -/
theorem start_not_handed : (stream done).length ∉ starts done := by
  intro hmem
  rcases List.mem_map.mp hmem with ⟨x, hx, hstart⟩
  have hb := marks_bounds (done_wf hwf) x hx
  omega

/-- A read from the beginning of a message, where no message is completed. -/
theorem read_none (env : MsgEnv) (hg : Good done todo (bytes ++ unread) r)
    (ha : AtMessage done todo (bytes ++ unread) r)
    (hnext : ∀ m, todo.head? = some m → (r.recv bytes).pkt.length < m.dataLen) :
    Decided env (done ++ todo) r bytes (Good done todo unread) := by
  have hdata : (r.recv bytes).pkt ++ unread = stream todo := by
    show r.pkt ++ bytes ++ unread = _
    rw [List.append_assoc]
    exact ha.buffer
  have hstop : hasPacket .tcp ((r.recv bytes).pkt ++ (r.recv bytes).stale)
      (r.recv bytes).pkt.length = 0 := by
    cases todo with
    | nil =>
        refine hasPacket_short _ ?_
        rw [(List.append_eq_nil_iff.mp hdata).1]
        decide
    | cons m todo =>
        have hm := todo_wf hwf m List.mem_cons_self
        rw [hasPacket_msg hm hdata, if_neg (Nat.not_le.mpr (hnext m rfl))]
  rcases read_lost env hstop with ⟨hpkt, hpos, hhanded⟩
  have hlen : (r.recv bytes).pkt.length = r.pkt.length + bytes.length := List.length_append
  have hrec : r.received = (stream done).length + r.pkt.length := by
    unfold ReadOp.received
    rw [ha.pos]
  have hends : ∀ x ∈ marks 0 done, x.dataEnd ≤ r.received := by
    intro x hx
    have := marks_bounds (done_wf hwf) x hx
    omega
  by_cases hnil : r.pkt.length + bytes.length = 0
  · -- Nothing is in the buffer: the read begins and ends between two messages.
    refine Or.inl ⟨⟨fun x hx hlt hgt => ?_, fun x hx hle hlt => ?_⟩, ?_, ?_, Or.inl ⟨?_, ?_, ?_⟩⟩
    · rcases (mem_marks done todo x).mp hx with hx | hx
      · have := hends x hx
        omega
      · have := marks_bounds (todo_wf hwf) x hx
        omega
    · omega
    · rw [hhanded]
      exact hg.handed
    · intro _ hne
      exact (extends_read env r bytes).beyond
        (hg.looked (List.eq_nil_of_length_eq_zero (by omega)) hne)
    · rw [hpos]
      omega
    · rw [hpkt, ← hdata, List.eq_nil_of_length_eq_zero (show (r.recv bytes).pkt.length = 0 by omega)]
    · intro m hm
      have := four_le_dataLen (todo_wf hwf m (List.mem_of_mem_head? hm))
      rw [hpkt]
      show 0 < m.dataLen
      omega
  · -- The beginning of a message is lost.
    cases todo with
    | nil =>
        have := congrArg List.length hdata
        rw [List.length_append] at this
        change _ = 0 at this
        omega
    | cons m todo =>
        have hin := hnext m rfl
        have hmem : (⟨(stream done).length, (stream done).length + m.dataLen,
            (stream done).length + m.len⟩ : Mark) ∈ marks 0 (done ++ m :: todo) :=
          (mem_marks _ _ _).mpr (Or.inr List.mem_cons_self)
        refine Or.inr ⟨fun hok => ?_, Or.inr ⟨(stream done).length, ?_, ?_, ?_⟩⟩
        · rcases hok.1 _ hmem (by show (stream done).length < _; omega)
            (by show _ < (stream done).length + m.dataLen; omega) with ⟨x, hx, hlt, hle⟩
          refine none_ends hwf hends (fun a ha => ?_) x hx ⟨hlt, hle⟩
          rw [← Option.some.inj ha]
          omega
        · exact List.mem_map.mpr ⟨_, hmem, rfl⟩
        · rw [hhanded, hg.handed]
          exact start_not_handed hwf
        · rw [hpos]
          omega

/-- A read from the beginning of a message that completes some messages. -/
theorem read_taken {taken left : List TurnMsg} (hg : Good done todo (bytes ++ unread) r)
    (ha : AtMessage done todo (bytes ++ unread) r) (hne : taken ≠ [])
    (ht : Taken todo taken left unread (r.recv bytes) (onDataRead env .tcp r bytes)) :
    ReadOk (done ++ todo) r.received (r.received + bytes.length) ∧
      Good (done ++ taken) left unread (onDataRead env .tcp r bytes) := by
  have hrec : r.received = (stream done).length + r.pkt.length := by
    unfold ReadOp.received
    rw [ha.pos]
  have hpos : (r.recv bytes).pos = (stream done).length := ha.pos
  have hall : (stream (done ++ taken)).length = (stream done).length + (stream taken).length := by
    rw [stream_append, List.length_append]
  have hends : ∀ x ∈ marks 0 (done ++ taken), x.dataEnd ≤ r.received + bytes.length := by
    intro x hx
    rcases (mem_marks done taken x).mp hx with hx | hx
    · have := marks_bounds (done_wf hwf) x hx
      omega
    · rw [← received_recv]
      refine ht.dataEnd x ?_
      rw [hpos]
      exact hx
  have hsplit := ht.split
  have hafter : (onDataRead env .tcp r bytes).pos + (onDataRead env .tcp r bytes).pkt.length =
      r.received + bytes.length := received_read env r bytes
  have htpos := ht.pos
  rw [hpos, received_recv] at htpos
  refine ⟨⟨fun _ _ _ _ => ?_, fun x hx hle hlt => ?_⟩, ?_, fun hempty _ => ht.looked hempty, ?_⟩
  · -- The first message that has been taken was not complete before.
    cases taken with
    | nil => exact absurd rfl hne
    | cons m taken =>
        have hmem : (⟨(stream done).length, (stream done).length + m.dataLen,
            (stream done).length + m.len⟩ : Mark) ∈ marks 0 (done ++ m :: taken) :=
          (mem_marks _ _ _).mpr (Or.inr List.mem_cons_self)
        have hm := ha.next m (by rw [hsplit]; rfl)
        refine ⟨_, ?_, ?_, hends _ hmem⟩
        · rw [hsplit, ← List.append_assoc]
          exact (mem_marks _ _ _).mpr (Or.inl hmem)
        · show r.received < (stream done).length + m.dataLen
          omega
  · refine absurd ⟨hle, hlt⟩ (none_open hwf (by omega) (fun m hm => ?_) x hx)
    have := ha.next m hm
    omega
  · rw [ht.handed, starts_append, hpos]
    show r.handed ++ _ = _
    rw [hg.handed]
  · by_cases hfull : (stream (done ++ taken)).length ≤ r.received + bytes.length
    · refine Or.inl ⟨by omega, ht.buffer (by rw [hpos, received_recv]; omega), fun m hm => ?_⟩
      have := ht.next m hm
      rw [hpos, received_recv] at this
      omega
    · refine Or.inr ⟨List.eq_nil_of_length_eq_zero ?_, by omega, fun x hx => ?_, ?_⟩
      · omega
      · have := hends x hx
        omega
      · rcases ht.padding (by rw [hpos, received_recv]; omega) with ⟨pad, hpad, hlt, hunread⟩
        refine ⟨pad, ?_, hlt, hunread⟩
        rw [hpad, hpos, received_recv]
        omega

/-- A read from the middle of the padding. -/
theorem read_padding (env : MsgEnv) (hg : Good done todo (bytes ++ unread) r)
    (hp : InPadding done todo (bytes ++ unread) r) :
    Decided env (done ++ todo) r bytes (Good done todo unread) := by
  rcases hp.padding with ⟨pad, hpad, hshort, hbytes⟩
  have hrec : r.received = r.pos := by
    unfold ReadOp.received
    rw [hp.empty]
    rfl
  have hne : done ≠ [] := by
    intro hnil
    have := hp.pos
    rw [hnil] at this
    exact absurd this (Nat.not_lt_zero _)
  have hposlt := hp.pos
  have hlen : (r.recv bytes).pkt.length = bytes.length := by
    show (r.pkt ++ bytes).length = _
    rw [hp.empty]
    rfl
  rcases marks_last 0 (done_wf hwf) hne with ⟨y, hy, hstop, hlast⟩
  have hyend := hp.dataEnd y hy
  rw [Nat.zero_add] at hstop
  by_cases hin : bytes.length ≤ pad.length
  · -- The bytes are padding, and are thrown away.
    have hnone : hasPacket .tcp ((r.recv bytes).pkt ++ (r.recv bytes).stale)
        (r.recv bytes).pkt.length = 0 := hasPacket_short _ (by omega)
    rcases read_lost env hnone with ⟨hpkt, hpos, hhanded⟩
    have hunread : unread = pad.drop bytes.length ++ stream todo := by
      have h := congrArg (List.drop bytes.length) hbytes
      rw [List.drop_left' rfl, List.drop_append_of_le_length hin] at h
      exact h
    refine Or.inl ⟨⟨fun x hx hlt hgt => ?_, fun x hx hle hlt => ?_⟩, ?_, ?_, ?_⟩
    · rcases (mem_marks done todo x).mp hx with hx | hx
      · have := hp.dataEnd x hx
        omega
      · have := marks_bounds (todo_wf hwf) x hx
        omega
    · rcases (mem_marks done todo x).mp hx with hx | hx
      · have hyb := marks_bounds (done_wf hwf) y hy
        rcases hlast x hx with rfl | hbefore
        · omega
        · omega
      · have := marks_bounds (todo_wf hwf) x hx
        omega
    · rw [hhanded]
      exact hg.handed
    · intro _ _
      exact (extends_read env r bytes).beyond (hg.looked hp.empty hne)
    · by_cases hfull : bytes.length = pad.length
      · refine Or.inl ⟨by rw [hpos]; omega, ?_, fun m hm => ?_⟩
        · rw [hpkt, hunread, hfull, List.drop_length]
          rfl
        · have := four_le_dataLen (todo_wf hwf m (List.mem_of_mem_head? hm))
          rw [hpkt]
          show 0 < m.dataLen
          omega
      · refine Or.inr ⟨hpkt, by rw [hpos]; omega, fun x hx => ?_, pad.drop bytes.length, ?_, ?_,
          hunread⟩
        · have := hp.dataEnd x hx
          rw [hpos]
          omega
        · rw [List.length_drop, hpos]
          omega
        · rw [List.length_drop]
          omega
  · -- What comes behind the padding is not where a message begins.
    refine Or.inr ⟨fun hok => ?_, ?_⟩
    · have := hok.2 y ((mem_marks _ _ _).mpr (Or.inl hy)) (by omega) (by omega)
      omega
    by_cases hnone : hasPacket .tcp ((r.recv bytes).pkt ++ (r.recv bytes).stale)
        (r.recv bytes).pkt.length = 0
    · rcases read_lost env hnone with ⟨_, hpos, hhanded⟩
      refine Or.inr ⟨(stream done).length, ?_, ?_, ?_⟩
      · cases todo with
        | nil =>
            have := congrArg List.length hbytes
            rw [List.length_append, List.length_append] at this
            change _ = pad.length + 0 at this
            omega
        | cons m todo =>
            rw [starts_append]
            exact List.mem_append_right _ List.mem_cons_self
      · rw [hhanded, hg.handed]
        exact start_not_handed hwf
      · rw [hpos]
        omega
    · refine Or.inl ⟨r.pos, ?_, fun hmem => ?_⟩
      · rw [onDataRead_eq]
        show (r.recv bytes).pos ∈ (onDataReadLoop env .tcp _ 0 (r.recv bytes)).1.handed
        exact mem_handed_loop env _ 0 hnone
      · rcases List.mem_map.mp hmem with ⟨x, hx, hstart⟩
        rcases (mem_marks done todo x).mp hx with hx | hx
        · have hb := marks_bounds (done_wf hwf) x hx
          have := hp.dataEnd x hx
          omega
        · have hb := marks_bounds (todo_wf hwf) x hx
          omega

/-- **One read.** -/
theorem read_step (env : MsgEnv) (hg : Good done todo (bytes ++ unread) r) :
    Decided env (done ++ todo) r bytes fun r' =>
      ∃ done' todo', done' ++ todo' = done ++ todo ∧ Good done' todo' unread r' := by
  rcases hg.place with ha | hp
  · have hdata : (r.recv bytes).pkt ++ unread = stream todo := by
      show r.pkt ++ bytes ++ unread = _
      rw [List.append_assoc]
      exact ha.buffer
    rcases loop_taken env todo ((r.recv bytes).pkt.length + 1) 0 (r.recv bytes)
      (todo_wf hwf) hdata (Nat.lt_succ_self _) with ⟨taken, left, ht, hrem⟩
    by_cases hnil : taken = []
    · -- No message is completed.
      have hnext : ∀ m, todo.head? = some m → (r.recv bytes).pkt.length < m.dataLen := by
        intro m hm
        have hsplit := ht.split
        rw [hnil] at hsplit
        have h := ht.next m (by rw [← show todo = left from hsplit]; exact hm)
        rw [hnil] at h
        unfold ReadOp.received at h
        change _ < (r.recv bytes).pos + 0 + m.dataLen at h
        omega
      rcases read_none hwf env hg ha hnext with ⟨hok, hgood⟩ | h
      · exact Or.inl ⟨hok, done, todo, rfl, hgood⟩
      · exact Or.inr h
    · rw [if_neg hnil] at hrem
      -- All that the loop has left is kept.
      have hkeep : ∀ l : ReadOp, l.keep l.pkt.length = l := by
        intro l
        show ReadOp.mk _ _ _ _ _ = _
        rw [List.take_length, List.drop_length, Nat.sub_self]
        rfl
      have hread := onDataRead_eq env r bytes
      rw [hrem, hkeep] at hread
      rw [← hread] at ht
      rcases read_taken hwf hg ha hnil ht with ⟨hok, hgood⟩
      refine Or.inl ⟨hok, done ++ taken, left, ?_, hgood⟩
      rw [List.append_assoc, ← ht.split]
  · rcases read_padding hwf env hg hp with ⟨hok, hgood⟩ | h
    · exact Or.inl ⟨hok, done, todo, rfl, hgood⟩
    · exact Or.inr h

end Read

/-! ## All reads -/

theorem Broken.of_reads (env : MsgEnv) (reads : List (List UInt8)) {r : ReadOp} (h : Broken msgs r) :
    Broken msgs (readAll env .tcp r reads) := by
  induction reads generalizing r with
  | nil => exact h
  | cons bytes reads ih => exact ih (h.of_extends (extends_read env r bytes))

/-- At the end of the stream every message has been handed over. -/
theorem Good.all (hwf : ∀ m ∈ done ++ todo, m.WellFormed) (hg : Good done todo [] r) :
    r.handed = starts (done ++ todo) ∧ (done ++ todo ≠ [] → r.beyond = true) := by
  rcases hg.place with ha | hp
  · have hbuf := ha.buffer
    rw [List.append_nil] at hbuf
    cases todo with
    | nil =>
        rw [List.append_nil]
        exact ⟨hg.handed, hg.looked hbuf⟩
    | cons m todo =>
        have hnext := ha.next m rfl
        have hle := dataLen_le_len m
        rw [hbuf, length_stream_cons] at hnext
        omega
  · rcases hp.padding with ⟨pad, hpad, _, hnil⟩
    have hpos := hp.pos
    rw [(List.append_eq_nil_iff.mp hnil.symm).1] at hpad
    change 0 = _ at hpad
    omega

theorem readAll_good (env : MsgEnv) : ∀ (reads : List (List UInt8)) (r : ReadOp) (done todo : List TurnMsg),
    (∀ m ∈ done ++ todo, m.WellFormed) → Good done todo reads.flatten r →
    ((readAll env .tcp r reads).handed = starts (done ++ todo) ↔
      ∀ p ∈ cuts r.received reads, ReadOk (done ++ todo) p.1 p.2) ∧
    ((readAll env .tcp r reads).handed = starts (done ++ todo) → done ++ todo ≠ [] →
      (readAll env .tcp r reads).beyond = true)
  | [], r, done, todo, hwf, hg => by
      rcases hg.all hwf with ⟨hhanded, hbeyond⟩
      exact ⟨⟨fun _ p hp => absurd hp List.not_mem_nil, fun _ => hhanded⟩, fun _ => hbeyond⟩
  | bytes :: reads, r, done, todo, hwf, hg => by
      have hrec := received_read env r bytes
      rcases read_step hwf env (show Good done todo (bytes ++ reads.flatten) r from hg) with
        ⟨hok, done', todo', hsame, hgood⟩ | ⟨hbad, hbroken⟩
      · have ih := readAll_good env reads (onDataRead env .tcp r bytes) done' todo'
          (by rw [hsame]; exact hwf) hgood
        rw [hsame, hrec] at ih
        refine ⟨ih.1.trans ⟨fun h p hp => ?_, fun h p hp => h p (List.mem_cons_of_mem _ hp)⟩, ih.2⟩
        rcases List.mem_cons.mp hp with rfl | hp
        · exact hok
        · exact h p hp
      · have hlost : (readAll env .tcp r (bytes :: reads)).handed ≠ starts (done ++ todo) :=
          (Broken.of_reads env reads hbroken).not_framed
        exact ⟨⟨fun h => absurd h hlost, fun h => absurd (h _ List.mem_cons_self) hbad⟩,
          fun h => absurd h hlost⟩

/-- Every message is handed over, once and from its first byte, in order. -/
def Framed (env : MsgEnv) (msgs : List TurnMsg) (buf : List UInt8) (reads : List (List UInt8)) :
    Prop :=
  (readAll env .tcp (ReadOp.start buf) reads).handed = starts msgs

/-- `has_packet` never looks beyond the size of the data. -/
def NeverBeyond (env : MsgEnv) (buf : List UInt8) (reads : List (List UInt8)) : Prop :=
  (readAll env .tcp (ReadOp.start buf) reads).beyond = false

/-- **Framing over a connection.** The messages are framed exactly when every read that ends inside
a message has the end of another one, and no read goes on from padding to a message; and where they
are, `has_packet` has looked at an empty buffer, unless there is no message at all. -/
theorem framed_iff (env : MsgEnv) (msgs : List TurnMsg) (hwf : ∀ m ∈ msgs, m.WellFormed)
    (buf : List UInt8) (reads : List (List UInt8)) (hreads : reads.flatten = stream msgs)
    (hne : ∀ bytes ∈ reads, bytes ≠ []) :
    (Framed env msgs buf reads ↔ ∀ p ∈ cuts 0 reads, ReadOk msgs p.1 p.2) ∧
      (Framed env msgs buf reads ∧ NeverBeyond env buf reads ↔ msgs = []) := by
  have hg : Good [] msgs reads.flatten (ReadOp.start buf) :=
    ⟨rfl, fun _ h => absurd rfl h, Or.inl ⟨rfl, hreads, fun m hm => by
      have := four_le_dataLen (hwf m (List.mem_of_mem_head? hm))
      show 0 < m.dataLen
      omega⟩⟩
  have h := readAll_good env reads (ReadOp.start buf) [] msgs hwf hg
  refine ⟨h.1, fun ⟨hframed, hnever⟩ => ?_, fun hnil => ?_⟩
  · by_contra hmsgs
    have hbeyond := h.2 hframed hmsgs
    unfold NeverBeyond at hnever
    rw [hbeyond] at hnever
    cases hnever
  · rw [hnil] at hreads
    cases reads with
    | nil =>
        rw [hnil]
        exact ⟨rfl, rfl⟩
    | cons bytes reads =>
        exact absurd (List.append_eq_nil_iff.mp hreads).1 (hne bytes List.mem_cons_self)

instance (env : MsgEnv) (msgs : List TurnMsg) (buf : List UInt8) (reads : List (List UInt8)) :
    Decidable (Framed env msgs buf reads) :=
  inferInstanceAs (Decidable ((readAll env .tcp (ReadOp.start buf) reads).handed = starts msgs))

instance (env : MsgEnv) (buf : List UInt8) (reads : List (List UInt8)) :
    Decidable (NeverBeyond env buf reads) :=
  inferInstanceAs (Decidable ((readAll env .tcp (ReadOp.start buf) reads).beyond = false))

/-- A Data indication without attributes. -/
def emptyIndication : TurnMsg :=
  .stun ([0, 0x17, 0, 0] ++ put32 stunMagic ++ List.replicate 12 7)

/-- Five bytes on a channel. -/
def fiveBytes : TurnMsg := .channelData 0x4001 [1, 2, 3, 4, 5] [0, 0, 0]

theorem emptyIndication_wellFormed : emptyIndication.WellFormed :=
  ⟨by decide, by decide, 0, by decide, by decide⟩

theorem fiveBytes_wellFormed : fiveBytes.WellFormed := by
  unfold fiveBytes TurnMsg.WellFormed
  decide

/-- Three messages in two reads, the first of which ends inside the second message. -/
def threeMsgs : List TurnMsg := [fiveBytes, emptyIndication, fiveBytes]

def twoReads : List (List UInt8) :=
  [fiveBytes.bytes ++ emptyIndication.bytes.take 10, emptyIndication.bytes.drop 10 ++ fiveBytes.bytes]

theorem framed_iff_split :
    Framed lengthSums threeMsgs [] twoReads ∧ ¬ NeverBeyond lengthSums [] twoReads := by
  have hwf : ∀ m ∈ threeMsgs, m.WellFormed := by
    intro m hm
    simp only [threeMsgs, List.mem_cons, List.not_mem_nil, or_false] at hm
    rcases hm with rfl | rfl | rfl
    · exact fiveBytes_wellFormed
    · exact emptyIndication_wellFormed
    · exact fiveBytes_wellFormed
  have h := framed_iff lengthSums threeMsgs hwf [] twoReads (by decide) (by decide)
  have hok : ∀ p ∈ cuts 0 twoReads, ReadOk threeMsgs p.1 p.2 := by
    unfold ReadOk
    decide
  have hframed := h.1.mpr hok
  exact ⟨hframed, fun hnever => absurd (h.2.mp ⟨hframed, hnever⟩) (List.cons_ne_nil _ _)⟩

/-- **What the framing loses.** A message that comes in two reads is lost, and where a read ends
between the data and the padding of a message the next one is looked for in the padding. Where the
buffer has been emptied, `has_packet` looks at it. -/
theorem framing_lost :
    emptyIndication.WellFormed ∧ fiveBytes.WellFormed ∧
    ([emptyIndication.bytes.take 10, emptyIndication.bytes.drop 10].flatten =
        stream [emptyIndication] ∧
      ¬ Framed lengthSums [emptyIndication] []
        [emptyIndication.bytes.take 10, emptyIndication.bytes.drop 10]) ∧
    ([fiveBytes.bytes.take 10, fiveBytes.bytes.drop 10 ++ emptyIndication.bytes].flatten =
        stream [fiveBytes, emptyIndication] ∧
      ¬ Framed lengthSums [fiveBytes, emptyIndication] []
        [fiveBytes.bytes.take 10, fiveBytes.bytes.drop 10 ++ emptyIndication.bytes]) ∧
    ¬ NeverBeyond lengthSums [] [emptyIndication.bytes] :=
  ⟨emptyIndication_wellFormed, fiveBytes_wellFormed, ⟨by decide, by decide⟩,
    ⟨by decide, by decide⟩, by decide⟩

end Turn
