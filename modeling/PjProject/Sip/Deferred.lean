import PjProject.Sip.Accepted

set_option autoImplicit false

/-! # No accepted message is lost

A transaction is watched together with the messages for which `pjsip_tsx_send_msg` has returned
success. The last of them has been given to a transport, or its server is being resolved, or it is the
response that waits for the transport in `last_tx` (`Kept.last`); every function of the transaction
keeps it so until the transaction is terminated.

Three kinds of steps are left out by `deferredOk`. `transport_callback` clears
`TSX_HAS_PENDING_TRANSPORT` and leaves a response that waits for it unsent. A request for which
`pjsip_endpt_send_request_stateless` fails at once leaves the flag behind. And a server transaction
that has not been given its request takes a response for it.
-/

namespace Sip

open Machine

/-! ## The messages that are accepted -/

/-- A transaction, and the messages that it has accepted of the transaction user, the last one first. -/
structure Watch where
  tsx : Tsx
  accepted : List Msg
  deriving DecidableEq

/-- A step of the transaction; `pjsip_tsx_send_msg` that returns success accepts its message. -/
def watchStep (env : Env) (w : Watch) (op : Op) : Except Fault Watch :=
  match step env w.tsx op with
  | .error e => .error e
  | .ok s => .ok ⟨s, (accepts env w.tsx op).toList ++ w.accepted⟩

/-- A transaction that has been created and has accepted nothing. -/
def Watch.start (s : Tsx) : Watch := ⟨s, []⟩

variable {s s' : Tsx} {w w' : Watch}

theorem watchStep_ok {env : Env} {op : Op} (h : step env w.tsx op = .ok s') :
    watchStep env w op = .ok ⟨s', (accepts env w.tsx op).toList ++ w.accepted⟩ := by
  unfold watchStep
  rw [h]

/-- **No accepted message is lost**: when no callback is awaited, each has been given to a transport,
or a later response has, or the transaction has been terminated; and the flag for a pending
transport stands for a callback. -/
structure NothingLost (w : Watch) : Prop where
  handed : w.tsx.pendingTx = none → w.tsx.tpSends = 0 → .terminated ∉ w.tsx.path →
    ∀ newer m older, w.accepted = newer ++ m :: older →
      m ∈ w.tsx.handed ∨ ∃ m' ∈ newer, m'.code.isSome = true ∧ m' ∈ w.tsx.handed
  pending : Flagged w.tsx

/-- No response that has been accepted last waits for the transport that reports. -/
def Watch.waiting (w : Watch) : Op → Bool
  | .transportCallback _ =>
      decide (0 < w.tsx.tpSends) && w.tsx.pendingSend && !w.tsx.path.contains .terminated &&
        w.accepted.head?.any fun m => !w.tsx.handed.contains m
  | _ => false

/-- The transaction user sends before the server transaction has been given its request. -/
def Tsx.unasked (s : Tsx) : Op → Bool
  | .send _ => decide (s.role = .uas) && decide (s.state = .null)
  | _ => false

/-- The steps in which no message is lost. -/
def deferredOk (env : Env) (w : Watch) (op : Op) : Bool :=
  requestOk env w.tsx op && !w.waiting op && !w.tsx.unasked op

/-! ## The invariant -/

/-- The message has been placed, or it is the response that waits for the transport. -/
def Held (s : Tsx) (m : Msg) : Prop :=
  Placed s m ∨
    s.role = .uas ∧ s.pendingSend = true ∧ s.pendingTransport = true ∧ s.lastTx = some m

/-- What holds of the messages that a transaction has accepted. -/
structure Kept (w : Watch) : Prop where
  fresh : w.tsx.role = .uac → w.tsx.state = .null →
    w.tsx.pendingTransport = false ∧ w.accepted = []
  single : w.tsx.role = .uac → w.accepted.length ≤ 1
  responses : w.tsx.role = .uas → ∀ m ∈ w.accepted, m.code.isSome = true
  answer : w.tsx.role = .uas → w.tsx.state = .proceeding ∨ w.tsx.state = .completed →
    w.tsx.lastTx.isSome = true ∧ w.accepted.head? = w.tsx.lastTx
  last : ∀ m, w.accepted.head? = some m → Held w.tsx m

theorem Kept.nothingLost (h : Kept w) (hf : Flagged w.tsx) : NothingLost w := by
  refine ⟨fun htx hn hterm newer m older heq => ?_, hf⟩
  -- Nothing waits when no callback is awaited.
  have hheld : ∀ a, Held w.tsx a → a ∈ w.tsx.handed := by
    intro a ha
    rcases ha with (hmem | hmem | htx') | ⟨_, _, hpt, _⟩
    · exact hmem
    · exact absurd hmem hterm
    · rw [htx] at htx'
      cases htx'
    · rcases hf hpt with hsome | hpos
      · rw [htx] at hsome
        cases hsome
      · omega
  cases newer with
  | nil =>
      refine Or.inl (hheld m (h.last m ?_))
      rw [heq]
      rfl
  | cons a newer =>
      have ha : a ∈ w.tsx.handed := by
        refine hheld a (h.last a ?_)
        rw [heq]
        rfl
      refine Or.inr ⟨a, List.mem_cons_self, ?_, ha⟩
      cases hr : w.tsx.role with
      | uas =>
          refine h.responses hr a ?_
          rw [heq]
          exact List.mem_cons_self
      | uac =>
          have hlen := h.single hr
          rw [heq] at hlen
          simp at hlen

/-! ## What a step keeps -/

theorem Flow.held {p : Prop} {m : Msg} (h : Flow p s s') (hs : Sound s) (hm : Held s m) :
    Held s' m := by
  rcases hm with (hmem | hmem | htx) | ⟨hr, hps, hpt, hl⟩
  · exact Or.inl (Or.inl (h.mem_handed hmem))
  · exact Or.inl (Or.inr (Or.inl (h.terminated hmem)))
  · have hpt : s.pendingTransport = true := (hs.pendingTx (by rw [htx]; rfl)).1
    rcases h.waits hpt with hw | hterm
    · exact Or.inl (Or.inr (Or.inr (hw.pendingTx.trans htx)))
    · exact Or.inl (Or.inr (Or.inl hterm))
  · rcases h.waits hpt with hw | hterm
    · exact Or.inr ⟨h.role.trans hr, hw.pendingSend hps, hw.pendingTransport.trans hpt,
        (hw.lastTx hr).trans hl⟩
    · exact Or.inl (Or.inr (Or.inl hterm))

theorem Called.held {m a : Msg} (h : Called s s' m) (hm : s.pendingTx = some m) (ha : Held s a) :
    Held s' a := by
  rcases ha with (hmem | hmem | htx) | ⟨hr, hps, hpt, hl⟩
  · exact Or.inl (Or.inl (h.grow.mem_handed hmem))
  · exact Or.inl (Or.inr (Or.inl (h.grow.terminated hmem)))
  · rw [hm] at htx
    cases htx
    exact Or.inl h.placed
  · rcases h.waiting hps hpt a hl with hp | ⟨_, hps', hpt'⟩
    · exact Or.inl hp
    · exact Or.inr ⟨h.grow.role.trans hr, hps', hpt', h.only.lastTx.trans hl⟩

/-- A client transaction that has not been given its request waits for no transport. -/
theorem fresh_step (env : Env) (h : Sound s) (ha : AddrOk s) (hr : s.role = .uac)
    (hst : s.state = .null) (hpt : s.pendingTransport = false) (op : Op)
    (hok : requestOk env s op = true) (hs : step env s op = .ok s') (hst' : s'.state = .null) :
    s'.pendingTransport = false := by
  -- Only a message to send lets a new client transaction defer anything.
  have hnull : ∀ s1 : Tsx, s1.role = .uac → s1.state = .null → s1.pendingTransport = false →
      ∀ event, (∀ m, event ≠ .tx m) → dispatch env s1 event = .ok s' →
        s'.pendingTransport = false := by
    intro s1 hr1 hst1 hpt1 event hev hd
    unfold dispatch at hd
    rw [hr1, hst1] at hd
    cases hd
    show (tsxOnStateNull env s1 event).1.pendingTransport = false
    unfold tsxOnStateNull
    split
    · rename_i hu
      rw [hr1] at hu
      cases hu
    · split
      · exact absurd rfl (hev _)
      · exact hpt1
  cases op with
  | send m0 =>
      unfold step at hs
      dsimp only at hs
      split at hs
      · cases hs
        exact hpt
      · rename_i m hm
        have hno : True → s.requestErrs env m = false := by
          intro _
          refine requestErrs_uac env hr hok ?_
          simp [requestOf, hst, hm]
        rcases flow_nullUac env h ha hr hst m hno with ⟨_, _, _, _, _, hgoes, _⟩
        unfold dispatch at hs
        rw [hr, hst] at hs
        cases hs
        exact absurd hst' (hgoes trivial)
  | recvRequest | recvResponse => exact hnull s hr hst hpt _ (fun _ he => by cases he) hs
  | retransmitTimer =>
      unfold step at hs
      dsimp only at hs
      split at hs
      · refine hnull _ ?_ ?_ ?_ _ ?_ hs
        · exact hr
        · exact hst
        · exact hpt
        · exact fun _ he => by cases he
      · cases hs
        exact hpt
  | timeoutTimer =>
      unfold step at hs
      dsimp only at hs
      split at hs
      · unfold onTimeoutTimer at hs
        dsimp only at hs
        split at hs
        · split at hs
          · cases hs
            rcases (setTo_setState env _ (by decide : State.terminated ≠ .destroyed) false).cases with
              ⟨_, _, _, hpt'⟩ | ⟨_, _, hpt'⟩
            · exact hpt'.trans hpt
            · exact hpt'
          · cases hs
            exact hpt
        · refine hnull _ ?_ ?_ ?_ _ ?_ hs
          · exact hr
          · exact hst
          · exact hpt
          · exact fun _ he => by cases he
      · cases hs
        exact hpt
  | transportCallback err =>
      unfold step at hs
      dsimp only at hs
      split at hs
      · cases hs
        exact hpt
      · cases err with
        | none =>
            cases hs
            rfl
        | some e =>
            cases hs
            rfl
  | disconnected | stopRetransmit =>
      unfold step at hs
      dsimp only at hs
      split at hs
      · cases hs
        exact hpt
      · cases hs
        exact hpt
  | sendCallback cb =>
      cases hs
      unfold sendMsgCallback
      split
      · exact hpt
      · rename_i hm
        have := (h.pendingTx (by rw [hm]; rfl)).1
        rw [hpt] at this
        cases this
  | terminate code =>
      cases hs
      rcases terminate_cases s code with heq | ⟨hend, _⟩
      · rw [heq]
        exact hpt
      · exact hend.pendingTransport
  | setTimeout =>
      unfold step at hs
      dsimp only at hs
      split at hs
      · split at hs
        · cases hs
          exact hpt
        · cases hs
          exact hpt
      · cases hs
        exact hpt
  | setHandle200resp handle =>
      cases hs
      exact hpt

/-- A step that leaves the last message and does not enter a state that answers with it. -/
theorem Kept.quiet (h : Kept w) (hr : s'.role = w.tsx.role) (hq : Quiet w.tsx s')
    (hheld : ∀ m, w.accepted.head? = some m → Held w.tsx m → Held s' m)
    (hfresh : w.tsx.role = .uac → w.tsx.state = .null → s'.state = .null →
      s'.pendingTransport = false) : Kept ⟨s', w.accepted⟩ := by
  have hst : ∀ st : State, st.idle = false → s'.state = st → w.tsx.state = st := by
    intro st hst heq
    rcases hq.state with h1 | h1
    · exact h1.symm.trans heq
    · rw [heq, hst] at h1
      cases h1
  refine ⟨fun hu hn => ?_, fun hu => h.single (hr.symm.trans hu),
    fun hu => h.responses (hr.symm.trans hu), fun hu hn => ?_,
    fun m hm => hheld m hm (h.last m hm)⟩
  · have hu : w.tsx.role = .uac := hr.symm.trans hu
    have hnull := hst .null rfl hn
    exact ⟨hfresh hu hnull hn, (h.fresh hu hnull).2⟩
  · have hu : w.tsx.role = .uas := hr.symm.trans hu
    have hl : s'.lastTx = w.tsx.lastTx := by
      refine hq.lastTx fun hd => ?_
      have hn : s'.state = .proceeding ∨ s'.state = .completed := hn
      rw [hd] at hn
      exact hn.elim nofun nofun
    show s'.lastTx.isSome = true ∧ w.accepted.head? = s'.lastTx
    rw [hl]
    exact h.answer hu (hn.imp (hst _ rfl) (hst _ rfl))

/-- A response of the transaction user. -/
theorem Kept.taken {env : Env} {op : Op} (h : Kept w) (hs' : Sound s') {m : Msg}
    {r : Tsx × Nat} (hr : w.tsx.role = .uas) (ht : Taken w.tsx m r) (heq : r.1 = s')
    (hacc : accepts env w.tsx op = if r.2 = 0 then some m else none) :
    Kept ⟨s', (accepts env w.tsx op).toList ++ w.accepted⟩ := by
  subst heq
  have hr' : r.1.role = .uas := ht.grow.role.trans hr
  have hterm : r.1.state = .terminated → .terminated ∈ r.1.path := by
    intro hst
    rcases hs'.path with ⟨l, hl⟩
    rw [hl, hst]
    exact List.mem_cons_self
  by_cases hok : r.2 = 0
  · rw [hacc, if_pos hok]
    have hcode : r.1.state = .proceeding ∨ r.1.state = .completed → r.1.lastTx = some m := by
      intro hst
      rcases ht.state hok with h1 | h1
      · rw [h1] at hst
        exact hst.elim nofun nofun
      · exact h1.2
    refine ⟨fun hu => ?_, fun hu => ?_, fun _ a ha => ?_, fun _ hst => ?_, fun a ha => ?_⟩
    · have hu : r.1.role = .uac := hu
      rw [hr'] at hu
      cases hu
    · have hu : r.1.role = .uac := hu
      rw [hr'] at hu
      cases hu
    · rcases List.mem_cons.mp ha with ha | ha
      · rw [ha]
        exact ht.response hok
      · exact h.responses hr a ha
    · have hl := hcode hst
      show r.1.lastTx.isSome = true ∧ some m = r.1.lastTx
      rw [hl]
      exact ⟨rfl, rfl⟩
    · cases ha
      rcases ht.placed hok with hp | ⟨hps, hpt, hl⟩
      · exact Or.inl hp
      · exact Or.inr ⟨hr', hps, hpt, hl⟩
  · rw [hacc, if_neg hok]
    rcases ht.refused hok with heq | hst
    · rw [heq]
      exact h
    · refine ⟨fun hu => ?_, fun hu => ?_, fun _ => h.responses hr, fun _ hst' => ?_, fun a _ => ?_⟩
      · have hu : r.1.role = .uac := hu
        rw [hr'] at hu
        cases hu
      · have hu : r.1.role = .uac := hu
        rw [hr'] at hu
        cases hu
      · have hst' : r.1.state = .proceeding ∨ r.1.state = .completed := hst'
        rw [hst] at hst'
        exact hst'.elim nofun nofun
      · exact Or.inl (Or.inr (Or.inl (hterm hst)))

/-- The request of a client transaction. -/
theorem Kept.request {env : Env} {op : Op} (h : Kept w) (hr : w.tsx.role = .uac)
    (hst : w.tsx.state = .null) {m : Msg} (hr' : s'.role = w.tsx.role) (hgoes : s'.state ≠ .null)
    (hacc : accepts env w.tsx op = none ∨ accepts env w.tsx op = some m ∧
      (w.tsx.pendingTransport = false → Placed s' m)) :
    Kept ⟨s', (accepts env w.tsx op).toList ++ w.accepted⟩ := by
  have hnew := h.fresh hr hst
  have huas : s'.role ≠ .uas := by
    rw [hr', hr]
    nofun
  rw [hnew.2, List.append_nil]
  refine ⟨fun _ hn => absurd hn hgoes, fun _ => ?_, fun hu => absurd hu huas,
    fun hu => absurd hu huas, fun a ha => ?_⟩
  · rcases hacc with h1 | ⟨h1, _⟩
    · rw [h1]
      exact Nat.zero_le 1
    · rw [h1]
      exact Nat.le_refl 1
  · rcases hacc with h1 | ⟨h1, hp⟩
    · rw [h1] at ha
      cases ha
    · rw [h1] at ha
      cases ha
      exact Or.inl (hp hnew.1)

/-- A response has been received by a client transaction. -/
theorem Kept.response (h : Kept w) (hs : Sound w.tsx) (hr : w.tsx.role = .uac)
    {p : Prop} (hresp : Response p w.tsx s') (hst : w.tsx.state = .calling ∨ w.tsx.state = .proceeding) :
    Kept ⟨s', w.accepted⟩ := by
  have hr' : s'.role = .uac := hresp.flow.role.trans hr
  have huas : s'.role ≠ .uas := by
    rw [hr']
    nofun
  have hnull : s'.state ≠ .null := by
    intro hn
    rcases hresp.cases with hq | hp | ⟨code, ack, _, hi⟩
    · rcases hq.state with h1 | h1
      · rw [← h1, hn] at hst
        exact hst.elim nofun nofun
      · rw [hn] at h1
        cases h1
    · rcases hp.2.2 with h1 | h1
      · rw [hn] at h1
        cases h1
      · rw [hn] at h1
        cases h1
    · rcases hi with h1 | ⟨h1, _⟩
      · rw [hn] at h1
        cases h1
      · rw [hn] at h1
        cases h1
  exact ⟨fun _ hn => absurd hn hnull, fun _ => h.single hr, fun hu => absurd hu huas,
    fun hu => absurd hu huas, fun m hm => hresp.flow.held hs (h.last m hm)⟩

/-- `transport_callback` leaves the last message as it is. -/
theorem held_transport {m : Msg} (hm : w.accepted.head? = some m) (hn : w.tsx.tpSends ≠ 0)
    {err : Option Nat} (hw : w.waiting (.transportCallback err) = false)
    (htx : w.tsx.pendingTx = none)
    (hsame : Same { w.tsx with pendingTransport := false, tpSends := w.tsx.tpSends - 1 } s')
    (h : Held w.tsx m) : Held s' m := by
  have hhanded : s'.handed = w.tsx.handed := hsame.untouched.handed
  have hpath : s'.path = w.tsx.path := hsame.path
  refine Or.inl ?_
  unfold Placed
  rw [hhanded, hpath]
  rcases h with (hmem | hmem | htx') | ⟨_, hps, _, _⟩
  · exact Or.inl hmem
  · exact Or.inr (Or.inl hmem)
  · rw [htx] at htx'
    cases htx'
  · -- A response that waits for the transport is with another one, or the transaction is over.
    have hpos : 0 < w.tsx.tpSends := Nat.pos_of_ne_zero hn
    unfold Watch.waiting at hw
    rw [hps, hm, decide_eq_true hpos] at hw
    simp only [Bool.true_and, Option.any_some, Bool.and_eq_false_iff, Bool.not_eq_false',
      List.contains_iff_mem] at hw
    rcases hw with hterm | hmem
    · exact Or.inr (Or.inl hterm)
    · exact Or.inl hmem

/-- **A step** that `deferredOk` allows keeps the accepted messages. -/
theorem Kept.step {env : Env} {op : Op} (h : Kept w) (hs : Sound w.tsx) (hs' : Sound s')
    (ha : AddrOk w.tsx) (hok : deferredOk env w op = true) (hstep : step env w.tsx op = .ok s')
    (hmoves : Moves env True w.tsx op s') :
    Kept ⟨s', (accepts env w.tsx op).toList ++ w.accepted⟩ := by
  unfold deferredOk at hok
  simp only [Bool.and_eq_true, Bool.not_eq_true'] at hok
  rcases hok with ⟨⟨hreq, hwait⟩, hasked⟩
  have hfresh : w.tsx.role = .uac → w.tsx.state = .null → s'.state = .null →
      s'.pendingTransport = false := fun hr hst hst' =>
    fresh_step env hs ha hr hst (h.fresh hr hst).1 op hreq hstep hst'
  cases hmoves with
  | keeps hk hacc =>
      have hquiet : Kept ⟨s', w.accepted⟩ :=
        h.quiet hk.1.role hk.2 (fun m _ hm => hk.1.held hs hm) hfresh
      rcases hacc with hacc | ⟨hr, hst | ⟨hst, heq, hacc⟩⟩
      · rw [hacc]
        exact hquiet
      · -- A server transaction in NULL is sent nothing.
        have hnone : accepts env w.tsx op = none := by
          cases op with
          | send m =>
              unfold Tsx.unasked at hasked
              rw [hr, hst] at hasked
              cases hasked
          | _ => rfl
        rw [hnone]
        exact hquiet
      · -- In COMPLETED only the last response is accepted again.
        have hans := h.answer hr (Or.inr hst)
        rw [heq, hacc]
        cases hl : w.tsx.lastTx with
        | none =>
            rw [hl] at hans
            cases hans.1
        | some m =>
            rw [hl] at hans
            refine ⟨fun hu => ?_, fun hu => ?_, fun hu a hmem => ?_, fun _ _ => ?_, fun a hhead => ?_⟩
            · have hu : w.tsx.role = .uac := hu
              rw [hr] at hu
              cases hu
            · have hu : w.tsx.role = .uac := hu
              rw [hr] at hu
              cases hu
            · rcases List.mem_cons.mp hmem with hmem | hmem
              · rw [hmem]
                exact h.responses hr m (List.mem_of_mem_head? hans.2)
              · exact h.responses hr a hmem
            · show w.tsx.lastTx.isSome = true ∧ some m = w.tsx.lastTx
              rw [hl]
              exact ⟨rfl, rfl⟩
            · exact h.last a (hans.2.trans hhead)
  | taken m r hr ht heq hacc => exact h.taken hs' hr ht heq hacc
  | request m hr hst hflow _ _ _ _ hgoes hacc =>
      exact h.request hr hst hflow.role (hgoes trivial) hacc
  | response hr hst hresp hacc =>
      rw [hacc]
      exact h.response hs hr hresp hst
  | called m hm hc hq hacc =>
      rw [hacc]
      exact h.quiet hc.grow.role hq (fun a _ hheld => hc.held hm hheld) hfresh
  | transport hn htx err hop hsame hacc =>
      subst hop
      have hq : Quiet w.tsx s' :=
        ⟨hsame.untouched.invite, Or.inl hsame.untouched.lastTx, hsame.untouched.finals,
          Or.inl hsame.state⟩
      exact h.quiet hsame.untouched.role hq
        (fun m hm hheld => held_transport hm hn hwait htx hsame hheld) hfresh

/-! ## Runs -/

/-- The invariant of a run. -/
structure Watched (w : Watch) : Prop where
  sound : Sound w.tsx
  addr : AddrOk w.tsx
  responses : LastResponse w.tsx
  flagged : Flagged w.tsx
  kept : Kept w

theorem Created.watched (h : Created s) : Watched (.start s) := by
  have hflag : s.pendingTransport = false ∧ s.state = .null := by
    cases h with
    | uac => exact ⟨rfl, rfl⟩
    | uas => exact ⟨rfl, rfl⟩
  refine ⟨h.sound, h.addrOk, h.lastResponse, h.flagged, fun _ _ => ⟨hflag.1, rfl⟩,
    fun _ => Nat.zero_le 1, fun _ _ => nofun, fun _ hst => ?_, fun _ => nofun⟩
  have hst : s.state = .proceeding ∨ s.state = .completed := hst
  rw [hflag.2] at hst
  exact hst.elim nofun nofun

theorem Watched.step {env : Env} {op : Op} (h : Watched w) (hok : deferredOk env w op = true) :
    ∃ w', watchStep env w op = .ok w' ∧ Watched w' := by
  rcases after_step env h.sound op with ⟨s', hs', ha⟩
  have hreq : requestOk env w.tsx op = true := by
    unfold deferredOk at hok
    simp only [Bool.and_eq_true] at hok
    exact hok.1.1
  have hmoves := moves_step (p := True) env h.sound h.addr h.responses op (fun _ => hreq) hs'
  exact ⟨_, watchStep_ok hs', ha.sound, hmoves.grow.addr h.addr, hmoves.lastResponse h.responses,
    hmoves.flagged trivial h.flagged, h.kept.step h.sound ha.sound h.addr hok hs' hmoves⟩

/-- **No accepted message is lost.** In every run in which no request fails at once, no transport
reports while an accepted response waits for it, and a server transaction is first given its
request, each message that `pjsip_tsx_send_msg` has accepted, or a response after it, is with a
transport when no callback is awaited, unless the transaction has been terminated; and the flag for
a pending transport always stands for a callback. -/
theorem tsx_sends (env : Env) {s0 : Tsx} (h0 : Created s0) (ops : List Op)
    (hm : Meets (watchStep env) (fun w op => deferredOk env w op = true) (.start s0) ops) :
    ∃ w, run (watchStep env) (.start s0) ops = .ok w ∧ NothingLost w := by
  have hstep : ∀ w op, Watched w → deferredOk env w op = true →
      ∃ w', watchStep env w op = .ok w' ∧ Watched w' := fun w op hw hok => hw.step hok
  rcases run_invariant hstep ops (Watch.start s0) h0.watched hm with ⟨w, hw, h⟩
  exact ⟨w, hw, h.kept.nothingLost h.flagged⟩

/-- The server of a message is resolved later, and then the transport takes it at once. -/
def resolvingEnv : Env where
  attempt _ := ⟨false, .ok, .calls []⟩
  terminates _ := none
  t1 := 500
  t2 := 4000

/-- While the server of the 180 is being resolved the transaction user sends a 486. -/
def deferredRun : List Op :=
  [.recvRequest false, .send (some (inviteResponse 0 ringing)),
   .send (some (inviteResponse 1 busyHere)), .sendCallback (.sent ⟨0, false, false⟩)]

theorem tsx_sends_deferred :
    ∃ w, run (watchStep resolvingEnv) (.start (createUas true false none)) deferredRun = .ok w ∧
      w.tsx.handed = [inviteResponse 1 ⟨486, by decide⟩, inviteResponse 0 ⟨180, by decide⟩] ∧
      NothingLost w := by
  have h : checkRun (watchStep resolvingEnv) (deferredOk resolvingEnv) (fun w => decide
      (w.tsx.handed = [inviteResponse 1 ⟨486, by decide⟩, inviteResponse 0 ⟨180, by decide⟩]))
      (.start (createUas true false none)) deferredRun = true := by
    decide
  rcases checkRun_sound _ _ _ _ _ h with ⟨hm, w, hw, hp⟩
  rcases tsx_sends resolvingEnv (Created.uas true false none) deferredRun hm with ⟨w', hw', hl⟩
  rw [hw] at hw'
  cases hw'
  exact ⟨w, hw, decide_eq_true_iff.mp hp, hl⟩

/-- While the 180 is being sent the transaction user sends a 486, and terminates the transaction
before the transport reports. -/
def abandonedRun : List Op :=
  [.recvRequest false, .send (some (inviteResponse 0 ringing)),
   .send (some (inviteResponse 1 busyHere)), .terminate 487, .transportCallback none]

/-- The 486 is accepted and never sent, without any transport error. -/
theorem abandoned_lost :
    ∃ w, run (watchStep failingEnv) (.start (createUas true false (some 0))) abandonedRun = .ok w ∧
      w.tsx.pendingTx = none ∧ w.tsx.tpSends = 0 ∧ w.tsx.transportErr = 0 ∧
      w.accepted.head? = some (inviteResponse 1 ⟨486, by decide⟩) ∧
      w.tsx.handed = [inviteResponse 0 ⟨180, by decide⟩] := by
  have h : checkRun (watchStep failingEnv) (fun _ _ => true) (fun w => decide
      (w.tsx.pendingTx = none ∧ w.tsx.tpSends = 0 ∧ w.tsx.transportErr = 0 ∧
      w.accepted.head? = some (inviteResponse 1 ⟨486, by decide⟩) ∧
      w.tsx.handed = [inviteResponse 0 ⟨180, by decide⟩]))
      (.start (createUas true false (some 0))) abandonedRun = true := by
    decide
  rcases checkRun_sound _ _ _ _ _ h with ⟨-, w, hw, hp⟩
  exact ⟨w, hw, decide_eq_true_iff.mp hp⟩

end Sip
