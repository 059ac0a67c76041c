import PjProject.Library.MachineInt
import PjProject.Library.Run
import PjProject.Timer.Calls

set_option autoImplicit false

/-! # The STUN client transaction

`pjnath/src/pjnath/stun_transaction.c`: a request is sent, sent again whenever its timer fires, and
completed by a response, by a failure or after the last waiting time. One timer entry serves for
all waiting times. `pj_stun_client_tsx_schedule_destroy` and `pj_stun_client_tsx_stop` end the life
of a transaction; a run here is what happens before.

What the callback `on_send_msg` returns is an argument of the operations. `transmissions`,
`started` and `completions` are records for the proofs: how many transmissions were counted,
whether a call of `pj_stun_client_tsx_send_msg` has succeeded, and the calls of `on_complete`.

* `tsx_run_completes_once`: in every run `on_complete` is called at most once.
* `tsx_run_live`: in every run of careful steps, in addition, at most
  `PJ_STUN_MAX_TRANSMIT_COUNT` transmissions are counted, and as long as a started transaction has
  not completed its timer is scheduled. `provisional_response` is a run with a step that is not
  careful.
-/

namespace Stun

open MachineInt Machine Timer

/-- `PJ_STUN_MAX_TRANSMIT_COUNT`. -/
def maxTransmitCount : Nat := 7

/-- `PJ_STUN_TIMEOUT_VALUE`, in milliseconds. -/
def timeoutValue : Nat := 1600

def timerInactive : Int := 0

def timerActive : Int := 1

/-- What a function of the transaction or the callback `on_send_msg` returns. `failed` stands for
every status without a meaning of its own here. -/
inductive TsxStatus where
  | success
  | ebusy
  | einstunmsgtype
  | estundestroyed
  | failed
  deriving DecidableEq

/-- With what `on_complete` is called. -/
inductive Completion where
  | timedOut
  | notSent (status : TsxStatus)
  | response (errCode : Option Nat)
  deriving DecidableEq

/-- `pj_stun_client_tsx`. Times are in milliseconds. -/
structure ClientTsx where
  complete : Bool
  requireRetransmit : Bool
  rtoMsec : Nat
  retransmitTimer : Entry
  transmitCount : Nat
  retransmitTime : Nat
  destroyTimer : Entry
  transmissions : Nat
  started : Bool
  completions : List Completion
  deriving DecidableEq

/-- `pj_stun_client_tsx_create`. -/
def clientTsxCreate (rtoMsec : Nat) : ClientTsx where
  complete := false
  requireRetransmit := false
  rtoMsec := rtoMsec
  retransmitTimer := .idle timerInactive
  transmitCount := 0
  retransmitTime := 0
  destroyTimer := .idle timerInactive
  transmissions := 0
  started := false
  completions := []

/-- `pj_timer_heap_cancel_if_active` of the retransmission timer. -/
def ClientTsx.cancelTimer (t : ClientTsx) : ClientTsx :=
  { t with retransmitTimer := t.retransmitTimer.cancelIfActive timerInactive }

/-- `tsx->retransmit_timer.id = TIMER_INACTIVE`. -/
def ClientTsx.clearId (t : ClientTsx) : ClientTsx :=
  { t with retransmitTimer := { t.retransmitTimer with id := timerInactive } }

/-- `tsx->complete` is set and `on_complete` called, unless it has been already. -/
def ClientTsx.onComplete (t : ClientTsx) (c : Completion) : ClientTsx :=
  if t.complete then t else { t with complete := true, completions := t.completions ++ [c] }

/-- The waiting time after the next transmission. -/
def nextRetransmitTime (t : ClientTsx) : Nat :=
  if t.transmitCount = 0 then t.rtoMsec
  else if t.transmitCount < maxTransmitCount - 1 then uint32 (t.retransmitTime * 2)
  else timeoutValue

/-- The part of `tsx_transmit_msg` behind the timer: `on_send_msg` returns `sent`. -/
def sendLastPkt (t : ClientTsx) (modCount : Bool) (sent : TsxStatus) : ClientTsx × TsxStatus :=
  let t := if modCount then
    { t with transmitCount := t.transmitCount + 1, transmissions := t.transmissions + 1 } else t
  -- After PJNATH_ESTUNDESTROYED the object is not touched.
  if sent ≠ .success ∧ sent ≠ .estundestroyed ∧ modCount = true then (t.cancelTimer, sent)
  else (t, sent)

/-- `tsx_transmit_msg`. -/
def tsxTransmitMsg (t : ClientTsx) (modCount : Bool) (sent : TsxStatus) : ClientTsx × TsxStatus :=
  if t.retransmitTimer.id ≠ timerInactive ∧ t.requireRetransmit = true ∧ modCount = true then
    (t, .ebusy)
  else if t.requireRetransmit = true ∧ modCount = true then
    let t := { t with retransmitTime := nextRetransmitTime t }
    let r := t.retransmitTimer.schedule timerActive
    if r.2 then sendLastPkt { t with retransmitTimer := r.1 } modCount sent
    else (t.clearId, .failed)
  else sendLastPkt t modCount sent

/-- The end of `pj_stun_client_tsx_send_msg`, behind the timeout of a transaction that is not
retransmitted. -/
def sendMsgNow (t : ClientTsx) (sent : TsxStatus) : ClientTsx × TsxStatus :=
  let r := tsxTransmitMsg t true sent
  if r.2 ≠ .success then (r.1.cancelTimer, r.2) else ({ r.1 with started := true }, r.2)

/-- `pj_stun_client_tsx_send_msg`. -/
def clientTsxSendMsg (t : ClientTsx) (retransmit : Bool) (sent : TsxStatus) :
    ClientTsx × TsxStatus :=
  if t.retransmitTimer.id ≠ timerInactive then (t, .ebusy)
  else
    let t := { t with requireRetransmit := retransmit }
    if retransmit then sendMsgNow t sent
    else
      let t := { t with transmitCount := maxTransmitCount, retransmitTime := uint32 (t.rtoMsec * 16) }
      let r := t.retransmitTimer.schedule timerActive
      if r.2 then sendMsgNow { t with retransmitTimer := r.1 } sent
      else (t.clearId, .failed)

/-- `retransmit_timer_callback`. -/
def retransmitTimerCallback (t : ClientTsx) (sent : TsxStatus) : ClientTsx :=
  let t := t.clearId
  if maxTransmitCount ≤ t.transmitCount then t.onComplete .timedOut
  else
    let r := tsxTransmitMsg t true sent
    if r.2 ≠ .success then r.1.clearId.onComplete (.notSent r.2) else r.1

/-- `pj_stun_client_tsx_retransmit`. -/
def clientTsxRetransmit (t : ClientTsx) (modCount : Bool) (sent : TsxStatus) :
    ClientTsx × TsxStatus :=
  if t.destroyTimer.id ≠ timerInactive then (t, .success)
  else tsxTransmitMsg (if modCount then t.cancelTimer else t) modCount sent

/-- `pj_stun_client_tsx_on_rx_msg`, for a message that is a response or not and its `ERROR-CODE`
if it has one. -/
def clientTsxOnRxMsg (t : ClientTsx) (isResponse : Bool) (errCode : Option Nat) :
    ClientTsx × TsxStatus :=
  if isResponse = false then (t, .einstunmsgtype)
  else
    let t := t.cancelTimer
    if (errCode.any fun c => c ≤ 200) then (t, .success)
    else (t.onComplete (.response errCode), .success)

/-! ## Runs -/

/-- What can happen to a transaction. -/
inductive TsxOp where
  | sendMsg (retransmit : Bool) (sent : TsxStatus)
  | timerExpired (sent : TsxStatus)
  | retransmit (modCount : Bool) (sent : TsxStatus)
  | rxMsg (isResponse : Bool) (errCode : Option Nat)
  deriving DecidableEq

/-- The timer is taken out of the heap. -/
def ClientTsx.fired (t : ClientTsx) : ClientTsx :=
  { t with retransmitTimer := t.retransmitTimer.fired }

/-- One step. A timer that is not scheduled does not fire. -/
def tsxStep (t : ClientTsx) : TsxOp → Except Empty ClientTsx
  | .sendMsg retransmit sent => .ok (clientTsxSendMsg t retransmit sent).1
  | .timerExpired sent =>
      if t.retransmitTimer.running then .ok (retransmitTimerCallback t.fired sent)
      else .ok t
  | .retransmit modCount sent => .ok (clientTsxRetransmit t modCount sent).1
  | .rxMsg isResponse errCode => .ok (clientTsxOnRxMsg t isResponse errCode).1

/-- A started transaction that has not completed. -/
def ClientTsx.pending (t : ClientTsx) : Bool := t.started && !t.complete

/-- The steps after which a pending transaction can still time out: a counted transmission is only
asked for while there are less than `PJ_STUN_MAX_TRANSMIT_COUNT`; while the transaction is pending
a counted retransmission is only asked for if the transaction is one that retransmits, it does not
fail, and no response with an `ERROR-CODE` up to 200 is received. -/
def careful (t : ClientTsx) : TsxOp → Bool
  | .sendMsg _ _ => t.retransmitTimer.id != timerInactive || t.transmissions < maxTransmitCount
  | .timerExpired _ => true
  | .retransmit modCount sent =>
      !modCount || t.destroyTimer.id != timerInactive || (t.transmissions < maxTransmitCount &&
        (!t.pending || (t.requireRetransmit && (sent == .success || sent == .estundestroyed))))
  | .rxMsg isResponse errCode => !t.pending || !isResponse || !(errCode.any fun c => c ≤ 200)

/-! ## What a transmission changes -/

variable {t t' : ClientTsx}

/-- The transaction is the same but for its timer, and perhaps one more transmission counted. -/
structure Transmitted (t t' : ClientTsx) : Prop where
  complete : t'.complete = t.complete
  completions : t'.completions = t.completions
  started : t'.started = t.started
  requireRetransmit : t'.requireRetransmit = t.requireRetransmit
  counted : (t'.transmitCount = t.transmitCount ∧ t'.transmissions = t.transmissions) ∨
    (t'.transmitCount = t.transmitCount + 1 ∧ t'.transmissions = t.transmissions + 1)

theorem Transmitted.refl (t : ClientTsx) : Transmitted t t := ⟨rfl, rfl, rfl, rfl, Or.inl ⟨rfl, rfl⟩⟩

theorem Transmitted.cancelTimer (h : Transmitted t t') : Transmitted t t'.cancelTimer :=
  ⟨h.complete, h.completions, h.started, h.requireRetransmit, h.counted⟩

theorem transmitted_sendLastPkt (t : ClientTsx) (modCount : Bool) (sent : TsxStatus) :
    Transmitted t (sendLastPkt t modCount sent).1 := by
  have hcount : Transmitted t (if modCount = true then
      { t with transmitCount := t.transmitCount + 1, transmissions := t.transmissions + 1 }
      else t) := by
    split
    · exact ⟨rfl, rfl, rfl, rfl, Or.inr ⟨rfl, rfl⟩⟩
    · exact Transmitted.refl t
  unfold sendLastPkt
  dsimp only
  split
  · exact hcount.cancelTimer
  · exact hcount

theorem transmitted_tsxTransmitMsg (t : ClientTsx) (modCount : Bool) (sent : TsxStatus) :
    Transmitted t (tsxTransmitMsg t modCount sent).1 := by
  unfold tsxTransmitMsg
  dsimp only
  split
  · exact Transmitted.refl t
  · split
    · split
      · -- The timer is set before the message is sent.
        have h := transmitted_sendLastPkt
          { t with retransmitTime := nextRetransmitTime t,
                   retransmitTimer := (t.retransmitTimer.schedule timerActive).1 } modCount sent
        exact ⟨h.complete, h.completions, h.started, h.requireRetransmit, h.counted⟩
      · exact ⟨rfl, rfl, rfl, rfl, Or.inl ⟨rfl, rfl⟩⟩
    · exact transmitted_sendLastPkt t modCount sent

/-- The timer is set, and when it fires the transaction goes on: it sends again or gives up. -/
structure Armed (t : ClientTsx) : Prop where
  timer : t.retransmitTimer = ⟨timerActive, true⟩
  goesOn : t.requireRetransmit = true ∨ maxTransmitCount ≤ t.transmitCount

/-- A message that is sent leaves the timer as it is. -/
theorem timer_sendLastPkt {modCount : Bool} {sent : TsxStatus}
    (h : sent = .success ∨ sent = .estundestroyed ∨ modCount = false) :
    (sendLastPkt t modCount sent).1.retransmitTimer = t.retransmitTimer := by
  unfold sendLastPkt
  dsimp only
  rw [if_neg (by rcases h with rfl | rfl | rfl <;> simp)]
  cases modCount <;> rfl

/-- A transmission of a transaction that retransmits, with its timer idle, sets the timer. -/
theorem armed_tsxTransmitMsg {sent : TsxStatus} (hreq : t.requireRetransmit = true)
    (hidle : t.retransmitTimer = ⟨timerInactive, false⟩)
    (hsent : sent = .success ∨ sent = .estundestroyed) : Armed (tsxTransmitMsg t true sent).1 := by
  have htr := transmitted_tsxTransmitMsg t true sent
  refine ⟨?_, Or.inl (by rw [htr.requireRetransmit]; exact hreq)⟩
  unfold tsxTransmitMsg
  rw [if_neg (by simp [hidle]), if_pos ⟨hreq, rfl⟩]
  dsimp only
  rw [hidle, Entry.schedule_idle _ _ rfl, if_pos rfl,
    timer_sendLastPkt (hsent.imp_right Or.inl)]

/-- Such a transmission returns what `on_send_msg` returns. -/
theorem status_tsxTransmitMsg {sent : TsxStatus} (hreq : t.requireRetransmit = true)
    (hidle : t.retransmitTimer = ⟨timerInactive, false⟩) : (tsxTransmitMsg t true sent).2 = sent := by
  unfold tsxTransmitMsg
  rw [if_neg (by simp [hidle]), if_pos ⟨hreq, rfl⟩]
  dsimp only
  rw [hidle, Entry.schedule_idle _ _ rfl, if_pos rfl]
  unfold sendLastPkt
  dsimp only
  split <;> rfl

/-! ## `on_complete` is called at most once -/

/-- The record of the calls of `on_complete` agrees with the flag. -/
def CompletesOnce (t : ClientTsx) : Prop := t.completions.length = if t.complete then 1 else 0

theorem CompletesOnce.onComplete (h : CompletesOnce t) (c : Completion) :
    CompletesOnce (t.onComplete c) := by
  unfold ClientTsx.onComplete
  cases hc : t.complete with
  | true =>
      rw [if_pos rfl]
      exact h
  | false =>
      unfold CompletesOnce at h
      rw [hc] at h
      rw [if_neg (by simp)]
      unfold CompletesOnce
      simp only [List.length_append, h, List.length_singleton, if_true]
      rfl

theorem CompletesOnce.of_transmitted (h : CompletesOnce t) (ht : Transmitted t t') :
    CompletesOnce t' := by
  unfold CompletesOnce
  rw [ht.completions, ht.complete]
  exact h

theorem CompletesOnce.sendMsgNow (h : CompletesOnce t) (sent : TsxStatus) :
    CompletesOnce (sendMsgNow t sent).1 := by
  have htr := h.of_transmitted (transmitted_tsxTransmitMsg t true sent)
  unfold Stun.sendMsgNow
  dsimp only
  split
  · exact htr
  · exact htr

/-- The step lemma of the completion. -/
theorem CompletesOnce.step (h : CompletesOnce t) (op : TsxOp) (hs : tsxStep t op = .ok t') :
    CompletesOnce t' := by
  cases op with
  | sendMsg retransmit sent =>
      cases hs
      unfold clientTsxSendMsg
      dsimp only
      split
      · exact h
      · split
        · apply CompletesOnce.sendMsgNow
          exact h
        · split
          · apply CompletesOnce.sendMsgNow
            exact h
          · exact h
  | timerExpired sent =>
      rw [tsxStep] at hs
      split at hs
      · cases hs
        unfold retransmitTimerCallback
        dsimp only
        split
        · apply CompletesOnce.onComplete
          exact h
        · have hfired : CompletesOnce t.fired.clearId := h
          have htr := hfired.of_transmitted (transmitted_tsxTransmitMsg _ true sent)
          split
          · apply CompletesOnce.onComplete
            exact htr
          · exact htr
      · cases hs
        exact h
  | retransmit modCount sent =>
      cases hs
      unfold clientTsxRetransmit
      split
      · exact h
      · refine CompletesOnce.of_transmitted ?_ (transmitted_tsxTransmitMsg _ modCount sent)
        cases modCount <;> exact h
  | rxMsg isResponse errCode =>
      cases hs
      unfold clientTsxOnRxMsg
      dsimp only
      split
      · exact h
      · split
        · exact h
        · apply CompletesOnce.onComplete
          exact h

theorem tsxStep_ok (t : ClientTsx) (op : TsxOp) : ∃ t', tsxStep t op = .ok t' := by
  cases op with
  | timerExpired sent =>
      rw [tsxStep]
      split <;> exact ⟨_, rfl⟩
  | _ => exact ⟨_, rfl⟩

/-- **`on_complete` is called at most once**, in every run. -/
theorem tsx_run_completes_once (rtoMsec : Nat) (l : List TsxOp) :
    ∃ t, run tsxStep (clientTsxCreate rtoMsec) l = .ok t ∧ t.completions.length ≤ 1 := by
  have hrun : ∃ t, run tsxStep (clientTsxCreate rtoMsec) l = .ok t ∧ CompletesOnce t := by
    refine run_invariant_all (fun t op h => ?_) l _ rfl
    rcases tsxStep_ok t op with ⟨t', ht'⟩
    exact ⟨t', ht', h.step op ht'⟩
  rcases hrun with ⟨t, ht, h⟩
  refine ⟨t, ht, ?_⟩
  rw [h]
  split <;> omega

/-! ## A pending transaction can time out -/

/-- What holds of the records: the transmissions are counted by `transmit_count`, but for those
that it starts from. -/
structure TsxCount (t : ClientTsx) : Prop where
  once : CompletesOnce t
  le_max : t.transmissions ≤ maxTransmitCount
  le_count : t.transmissions ≤ t.transmitCount

/-- The invariant of the runs whose steps are all careful. -/
structure TsxInv (t : ClientTsx) : Prop extends TsxCount t where
  armed : t.pending = true → Armed t

theorem TsxCount.of_transmitted (h : TsxCount t) (hlt : t.transmissions < maxTransmitCount)
    (ht : Transmitted t t') : TsxCount t' := by
  have hle := h.le_count
  refine ⟨h.once.of_transmitted ht, ?_, ?_⟩
  · rcases ht.counted with ⟨-, h2⟩ | ⟨-, h2⟩ <;> omega
  · rcases ht.counted with ⟨h1, h2⟩ | ⟨h1, h2⟩ <;> omega

theorem pending_of_transmitted (ht : Transmitted t t') : t'.pending = t.pending := by
  unfold ClientTsx.pending
  rw [ht.started, ht.complete]

/-- A transaction that has completed is not pending. -/
theorem TsxCount.onComplete (h : TsxCount t) (c : Completion) : TsxInv (t.onComplete c) := by
  have hm := h.le_max
  have hc := h.le_count
  have hsame : (t.onComplete c).transmissions = t.transmissions ∧
      (t.onComplete c).transmitCount = t.transmitCount ∧ (t.onComplete c).complete = true := by
    unfold ClientTsx.onComplete
    split
    · exact ⟨rfl, rfl, by assumption⟩
    · exact ⟨rfl, rfl, rfl⟩
  refine ⟨⟨h.once.onComplete c, by omega, by omega⟩, fun hp => ?_⟩
  simp [ClientTsx.pending, hsame.2.2] at hp

/-- The first transmission of a transaction with an idle timer, or with the timeout set. -/
theorem TsxCount.sendMsgNow {sent : TsxStatus} (h : TsxCount t)
    (hlt : t.transmissions < maxTransmitCount) (hnot : t.pending = false)
    (ht : (t.requireRetransmit = true ∧ t.retransmitTimer.id = timerInactive) ∨
      (t.requireRetransmit = false ∧ Armed t)) : TsxInv (sendMsgNow t sent).1 := by
  have htr := transmitted_tsxTransmitMsg t true sent
  unfold Stun.sendMsgNow
  dsimp only
  split
  · refine ⟨h.of_transmitted hlt htr.cancelTimer, fun hp => ?_⟩
    rw [pending_of_transmitted htr.cancelTimer, hnot] at hp
    cases hp
  · rename_i hok
    have hok := not_not.mp hok
    have harmed : Armed (tsxTransmitMsg t true sent).1 := by
      rcases ht with ⟨hreq, hid⟩ | ⟨hreq, ha⟩
      · -- The call succeeds, so the timer was idle.
        have hidle : t.retransmitTimer = ⟨timerInactive, false⟩ := by
          cases hr : t.retransmitTimer.running with
          | false => exact Entry.ext hid hr
          | true =>
              unfold tsxTransmitMsg at hok
              rw [if_neg (by simp [hid]), if_pos ⟨hreq, rfl⟩] at hok
              simp [Entry.schedule, hr] at hok
        rw [status_tsxTransmitMsg hreq hidle] at hok
        exact armed_tsxTransmitMsg hreq hidle (Or.inl hok)
      · have hsend : tsxTransmitMsg t true sent = sendLastPkt t true sent := by
          unfold tsxTransmitMsg
          rw [if_neg (by simp [hreq]), if_neg (by simp [hreq])]
        have hsent : sent = .success := by
          rw [hsend] at hok
          unfold sendLastPkt at hok
          dsimp only at hok
          split at hok <;> exact hok
        rw [hsend]
        refine ⟨by rw [timer_sendLastPkt (Or.inl hsent)]; exact ha.timer, Or.inr ?_⟩
        have hcount := (transmitted_sendLastPkt t true sent).counted
        have hmax : maxTransmitCount ≤ t.transmitCount :=
          ha.goesOn.resolve_left (by simp [hreq])
        rcases hcount with ⟨h1, -⟩ | ⟨h1, -⟩ <;> omega
    have hcount := h.of_transmitted hlt htr
    exact ⟨⟨hcount.once, hcount.le_max, hcount.le_count⟩, fun _ => ⟨harmed.timer, harmed.goesOn⟩⟩

/-- A call of `pj_stun_client_tsx_send_msg`. -/
theorem TsxInv.sendMsg (h : TsxInv t) (retransmit : Bool) (sent : TsxStatus)
    (hok : careful t (.sendMsg retransmit sent) = true) :
    TsxInv (clientTsxSendMsg t retransmit sent).1 := by
  unfold clientTsxSendMsg
  dsimp only
  by_cases hid : t.retransmitTimer.id = timerInactive
  · rw [if_neg (not_not.mpr hid)]
    have hlt : t.transmissions < maxTransmitCount := by simpa [careful, hid] using hok
    -- The timer of a pending transaction is set.
    have hnot : t.pending = false := by
      rw [Bool.eq_false_iff]
      intro hp
      have htimer := (h.armed hp).timer
      rw [htimer] at hid
      exact absurd hid (by decide)
    cases retransmit with
    | true =>
        rw [if_pos rfl]
        have hcount : TsxCount { t with requireRetransmit := true } :=
          ⟨h.once, h.le_max, h.le_count⟩
        exact hcount.sendMsgNow hlt hnot (Or.inl ⟨rfl, hid⟩)
    | false =>
        rw [if_neg (by simp)]
        split
        · rename_i hsched
          have hidle : t.retransmitTimer.running = false := by
            cases hr : t.retransmitTimer.running with
            | false => rfl
            | true => simp [Entry.schedule, hr] at hsched
          refine TsxCount.sendMsgNow ⟨h.once, h.le_max, h.le_max⟩ hlt hnot
            (Or.inr ⟨rfl, ?_, Or.inr le_rfl⟩)
          show (t.retransmitTimer.schedule timerActive).1 = _
          rw [Entry.schedule_idle _ _ hidle]
        · refine ⟨⟨h.once, h.le_max, h.le_max⟩, fun hp => ?_⟩
          have hp : t.pending = true := hp
          rw [hnot] at hp
          cases hp
  · rw [if_pos hid]
    exact h

/-- The timer fires. -/
theorem TsxInv.timerExpired (h : TsxInv t) (sent : TsxStatus) :
    TsxInv (retransmitTimerCallback t.fired sent) := by
  have hcount : TsxCount t.fired.clearId := ⟨h.once, h.le_max, h.le_count⟩
  unfold retransmitTimerCallback
  dsimp only
  split
  · exact hcount.onComplete _
  · rename_i hlt
    have hlt : t.transmitCount < maxTransmitCount := not_le.mp hlt
    have hle := h.le_count
    have hroom : t.fired.clearId.transmissions < maxTransmitCount := lt_of_le_of_lt hle hlt
    have htr := transmitted_tsxTransmitMsg t.fired.clearId true sent
    have hcount' := hcount.of_transmitted hroom htr
    split
    · apply TsxCount.onComplete
      exact ⟨hcount'.once, hcount'.le_max, hcount'.le_count⟩
    · rename_i hok
      have hok := not_not.mp hok
      refine ⟨hcount', fun hp => ?_⟩
      rw [pending_of_transmitted htr] at hp
      have ha := h.armed hp
      have hreq : t.fired.clearId.requireRetransmit = true := ha.goesOn.resolve_right (by omega)
      have hidle : t.fired.clearId.retransmitTimer = ⟨timerInactive, false⟩ := rfl
      rw [status_tsxTransmitMsg hreq hidle] at hok
      exact armed_tsxTransmitMsg hreq hidle (Or.inl hok)

/-- A request to retransmit. -/
theorem TsxInv.retransmit (h : TsxInv t) (modCount : Bool) (sent : TsxStatus)
    (hok : careful t (.retransmit modCount sent) = true) :
    TsxInv (clientTsxRetransmit t modCount sent).1 := by
  unfold clientTsxRetransmit
  by_cases hdestroy : t.destroyTimer.id = timerInactive
  · rw [if_neg (not_not.mpr hdestroy)]
    cases modCount with
    | false =>
        -- The message is sent and nothing is counted.
        have hsend : (tsxTransmitMsg t false sent).1 = t := by
          unfold tsxTransmitMsg sendLastPkt
          simp
        rw [if_neg (by simp), hsend]
        exact h
    | true =>
        have hcount : TsxCount t.cancelTimer := ⟨h.once, h.le_max, h.le_count⟩
        have htr := transmitted_tsxTransmitMsg t.cancelTimer true sent
        simp only [careful, hdestroy, Bool.not_true, Bool.false_or, bne_self_eq_false,
          Bool.and_eq_true, Bool.or_eq_true, decide_eq_true_eq, Bool.not_eq_true', beq_iff_eq] at hok
        rw [if_pos rfl]
        refine ⟨hcount.of_transmitted hok.1 htr, fun hp => ?_⟩
        rw [pending_of_transmitted htr] at hp
        have hp : t.pending = true := hp
        rcases hok.2 with hnot | ⟨hreq, hsent⟩
        · rw [hnot] at hp
          cases hp
        · exact armed_tsxTransmitMsg hreq rfl hsent
  · rw [if_pos hdestroy]
    exact h

/-- A message is received. -/
theorem TsxInv.rxMsg (h : TsxInv t) (isResponse : Bool) (errCode : Option Nat)
    (hok : careful t (.rxMsg isResponse errCode) = true) :
    TsxInv (clientTsxOnRxMsg t isResponse errCode).1 := by
  have hcount : TsxCount t.cancelTimer := ⟨h.once, h.le_max, h.le_count⟩
  unfold clientTsxOnRxMsg
  dsimp only
  split
  · exact h
  · rename_i hresp
    split
    · rename_i hprov
      refine ⟨hcount, fun hp => ?_⟩
      have hp : t.pending = true := hp
      simp [careful, hp, hprov, hresp] at hok
    · exact hcount.onComplete _

/-- The step lemma. -/
theorem TsxInv.step (h : TsxInv t) (op : TsxOp) (hok : careful t op = true) :
    ∃ t', tsxStep t op = .ok t' ∧ TsxInv t' := by
  cases op with
  | sendMsg retransmit sent => exact ⟨_, rfl, h.sendMsg retransmit sent hok⟩
  | timerExpired sent =>
      rw [tsxStep]
      split
      · exact ⟨_, rfl, h.timerExpired sent⟩
      · exact ⟨t, rfl, h⟩
  | retransmit modCount sent => exact ⟨_, rfl, h.retransmit modCount sent hok⟩
  | rxMsg isResponse errCode => exact ⟨_, rfl, h.rxMsg isResponse errCode hok⟩

theorem complete_onComplete (t : ClientTsx) (c : Completion) : (t.onComplete c).complete = true := by
  unfold ClientTsx.onComplete
  split
  · assumption
  · rfl

/-- A transaction with its timer set completes when the timer fires often enough. -/
theorem Armed.timesOut (k : Nat) :
    ∀ t : ClientTsx, Armed t → maxTransmitCount ≤ t.transmitCount + k →
      ∃ n t', run tsxStep t (List.replicate n (.timerExpired .success)) = .ok t' ∧
        t'.complete = true := by
  -- By induction on the number of transmissions that are left.
  have hstep : ∀ t : ClientTsx, Armed t →
      tsxStep t (.timerExpired .success) = .ok (retransmitTimerCallback t.fired .success) := by
    intro t ha
    rw [tsxStep, if_pos (by rw [ha.timer])]
  have hlast : ∀ t : ClientTsx, maxTransmitCount ≤ t.transmitCount →
      (retransmitTimerCallback t.fired .success).complete = true := by
    intro t hmax
    have hmax : maxTransmitCount ≤ t.fired.clearId.transmitCount := hmax
    unfold retransmitTimerCallback
    dsimp only
    rw [if_pos hmax]
    exact complete_onComplete _ _
  induction k with
  | zero =>
      intro t ha hk
      exact ⟨1, _, by rw [List.replicate_one, run_cons_ok (hstep t ha)]; rfl, hlast t hk⟩
  | succ k ih =>
      intro t ha hk
      by_cases hmax : maxTransmitCount ≤ t.transmitCount
      · exact ⟨1, _, by rw [List.replicate_one, run_cons_ok (hstep t ha)]; rfl, hlast t hmax⟩
      · have hreq : t.fired.clearId.requireRetransmit = true := ha.goesOn.resolve_right hmax
        have hidle : t.fired.clearId.retransmitTimer = ⟨timerInactive, false⟩ := rfl
        have hcb : retransmitTimerCallback t.fired .success =
            (tsxTransmitMsg t.fired.clearId true .success).1 := by
          have hmax' : ¬ maxTransmitCount ≤ t.fired.clearId.transmitCount := hmax
          unfold retransmitTimerCallback
          dsimp only
          rw [if_neg hmax', status_tsxTransmitMsg hreq hidle, if_neg (by simp)]
        have ha' : Armed (retransmitTimerCallback t.fired .success) := by
          rw [hcb]
          exact armed_tsxTransmitMsg hreq hidle (Or.inl rfl)
        have hcount : (retransmitTimerCallback t.fired .success).transmitCount =
            t.transmitCount + 1 := by
          rw [hcb]
          unfold tsxTransmitMsg
          rw [if_neg (by simp [hidle]), if_pos ⟨hreq, rfl⟩]
          dsimp only
          rw [hidle, Entry.schedule_idle _ _ rfl, if_pos rfl]
          rfl
        rcases ih _ ha' (by rw [hcount]; omega) with ⟨n, t', hrun, hc⟩
        refine ⟨n + 1, t', ?_, hc⟩
        rw [List.replicate_succ, run_cons_ok (hstep t ha)]
        exact hrun

/-- What is wanted of a transaction: it calls `on_complete` at most once, transmits no more than
`PJ_STUN_MAX_TRANSMIT_COUNT` times, and its timer is scheduled while it is pending, so that it
times out if nothing else happens. -/
structure Live (t : ClientTsx) : Prop where
  once : t.completions.length ≤ 1
  counted : t.transmissions ≤ maxTransmitCount
  scheduled : t.pending = true → t.retransmitTimer.running = true
  timesOut : t.pending = true → ∃ n t', run tsxStep t
    (List.replicate n (.timerExpired .success)) = .ok t' ∧ t'.complete = true

theorem TsxInv.live (h : TsxInv t) : Live t := by
  refine ⟨?_, h.le_max, fun hp => ?_, fun hp => ?_⟩
  · rw [h.once]
    split <;> omega
  · rw [(h.armed hp).timer]
  · exact (h.armed hp).timesOut maxTransmitCount t (Nat.le_add_left _ _)

/-- **A pending transaction can always time out**, in every run whose steps are all careful. -/
theorem tsx_run_live (rtoMsec : Nat) (l : List TsxOp)
    (hl : Meets tsxStep (fun t op => careful t op = true) (clientTsxCreate rtoMsec) l) :
    ∃ t, run tsxStep (clientTsxCreate rtoMsec) l = .ok t ∧ Live t := by
  have hcreate : TsxInv (clientTsxCreate rtoMsec) := ⟨⟨rfl, Nat.zero_le _, Nat.zero_le _⟩, nofun⟩
  rcases run_invariant (fun t op h hok => TsxInv.step h op hok) l _ hcreate hl with ⟨t, ht, h⟩
  exact ⟨t, ht, h.live⟩

/-- A request is sent, sent again by the timer and on demand, and answered. -/
def answeredRun : List TsxOp :=
  [.sendMsg true .success, .timerExpired .success, .retransmit true .success,
   .retransmit false .failed, .rxMsg true (some 401)]

theorem tsx_run_live_answered :
    ∃ t, run tsxStep (clientTsxCreate 100) answeredRun = .ok t ∧ t.transmissions = 3 ∧ Live t := by
  have h : checkRun tsxStep careful (fun t => t.transmissions == 3) (clientTsxCreate 100)
      answeredRun = true := by
    decide
  rcases checkRun_sound _ _ _ _ _ h with ⟨hm, t, ht, hp⟩
  rcases tsx_run_live 100 answeredRun hm with ⟨t', ht', hlive⟩
  rw [ht] at ht'
  cases ht'
  exact ⟨t, ht, by simpa using hp, hlive⟩

/-- After a response with the `ERROR-CODE` 100 the transaction waits for ever. -/
theorem provisional_response :
    ∃ t, run tsxStep (clientTsxCreate 100) [.sendMsg true .success, .rxMsg true (some 100)] = .ok t ∧
      t.pending = true ∧ ¬ Live t := by
  refine ⟨_, rfl, rfl, fun h => ?_⟩
  exact absurd (h.scheduled rfl) (by decide)

end Stun
