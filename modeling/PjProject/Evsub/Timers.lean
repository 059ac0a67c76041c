import PjProject.Evsub.LifeCycle

set_option autoImplicit false

/-! # The timers of a subscription

`timers_run`: in a run whose steps are all `Timely`, `set_timer` is asked for positive delays only, at
most one timer is pending and the id names it, and a server subscription that has been accepted and
has not terminated is timed out when it expires. `Timely` asks for an expiration that is positive
where the code takes one from the peer for a timer, for one that does not change while it is granted,
and for no return from the termination behind which the timer is stopped.
-/

namespace Evsub

open MachineInt
open Reentry (Frame Conf)

/-! ## The invariant -/

/-- A piece of code that sets a timer or a state of a client. -/
def Frame.client : Frame Task → Bool
  | .code (.uacNotifyCode _ _) => true
  | .code .uacNotifyRefused => true
  | .code (.uacNotifyAnswered _) => true
  | _ => false

/-- What holds of the timer all along. -/
structure TimerInv (w : World) (stack : List (Frame Task)) : Prop where
  entry : TimerOk w
  asked : ∀ a ∈ w.asked, 0 < a.2
  clients : w.sub.role = .uas → ∀ f ∈ stack, Frame.client f = false
  server : w.sub.role = .uas → w.sub.timerId = .none ∨ w.sub.timerId = .uasTimeout
  /-- The timer of a server fires when the subscription expires. -/
  due : w.sub.role = .uas → w.sub.timerId = .uasTimeout → ∃ g, w.granted = some g ∧ w.heap = [g]
  pending : w.sub.role = .uas → w.sub.state ≠ .terminated → ∀ g, w.granted = some g → w.now < g →
    w.sub.timerId = .uasTimeout
  cleaning : w.sub.role = .uas → 0 < cleanings stack → w.sub.state = .terminated

/-- Two worlds that do not differ in what this invariant speaks of, the state apart. -/
structure SameTimer (w w' : World) : Prop where
  role : w'.sub.role = w.sub.role
  timer : w'.sub.timerId = w.sub.timerId
  heap : w'.heap = w.heap
  asked : w'.asked = w.asked
  granted : w'.granted = w.granted
  now : w'.now = w.now

variable {w w' : World} {stack rest : List (Frame Task)}

/-- The state can change as long as a server does not come back without its timer. -/
theorem TimerInv.same (h : TimerInv w stack) (hs : SameTimer w w')
    (hback : w.sub.role = .uas → w.sub.state = .terminated → w'.sub.state = .terminated ∨
      w.sub.timerId = .uasTimeout)
    (hclean : w.sub.role = .uas → 0 < cleanings stack → w'.sub.state = .terminated) :
    TimerInv w' stack := by
  rcases hs with ⟨hr, ht, hh, ha, hg, hn⟩
  constructor
  · constructor
    · rw [hh]
      exact h.entry.once
    · rw [hh, ht]
      exact h.entry.pending
  · rw [ha]
    exact h.asked
  · rw [hr]
    exact h.clients
  · rw [hr, ht]
    exact h.server
  · rw [hr, ht, hg, hh]
    exact h.due
  · rw [hr, ht, hg, hn]
    intro hrole hne g hgranted hnow
    by_cases hterm : w.sub.state = .terminated
    · exact (hback hrole hterm).resolve_left hne
    · exact h.pending hrole hterm g hgranted hnow
  · rw [hr]
    exact hclean

/-- Nothing but what this invariant does not speak of has changed. -/
theorem TimerInv.alike (h : TimerInv w stack) (hs : SameTimer w w')
    (hstate : w'.sub.state = w.sub.state) : TimerInv w' stack :=
  h.same hs (fun _ ht => Or.inl (hstate.trans ht)) fun hr hc => hstate.trans (h.cleaning hr hc)

theorem timerInv_cons {f : Frame Task} (h : TimerInv w stack)
    (hclient : w.sub.role = .uas → Frame.client f = false)
    (hclean : w.sub.role = .uas → Frame.cleans f = true → w.sub.state = .terminated) :
    TimerInv w (f :: stack) := by
  refine ⟨h.entry, h.asked, ?_, h.server, h.due, h.pending, ?_⟩
  · intro hr g hg
    rcases List.mem_cons.mp hg with rfl | hg
    · exact hclient hr
    · exact h.clients hr g hg
  · intro hr hpos
    rw [cleanings_cons] at hpos
    by_cases hf : Frame.cleans f = true
    · exact hclean hr hf
    · rw [if_neg hf] at hpos
      exact h.cleaning hr hpos

theorem TimerInv.tail {f : Frame Task} (h : TimerInv w (f :: stack)) : TimerInv w stack := by
  refine ⟨h.entry, h.asked, fun hr g hg => h.clients hr g (List.mem_cons_of_mem f hg), h.server, h.due,
    h.pending, fun hr hpos => h.cleaning hr ?_⟩
  rw [cleanings_cons]
  omega

/-- A frame of neither kind. -/
theorem TimerInv.cons {t : Task} (h : TimerInv w stack) (hclient : Frame.client (.code t) = false)
    (hclean : Frame.cleans (.code t) = false) : TimerInv w (.code t :: stack) :=
  timerInv_cons h (fun _ => hclient) fun _ hc => absurd (hclean.symm.trans hc) (by decide)

/-- What a piece of code leaves over `rest`. -/
def Timed (rest : List (Frame Task)) (o : Out) : Prop := TimerInv o.1 (o.2 ++ rest)

theorem TimerInv.timed_done (h : TimerInv w rest) : Timed rest (done w) := h

theorem Timed.andThen {t : Task} {o : Out} (h : Timed (.code t :: rest) o) :
    Timed rest (o.andThen t) := by
  unfold Timed at h ⊢
  rw [List.append_cons] at h
  exact h

theorem TimerInv.timed_callOut {t : Task} (h : TimerInv w (.code t :: rest)) :
    Timed rest (callOut t w) :=
  timerInv_cons h (fun _ => rfl) fun _ hc => absurd hc (by decide)

theorem TimerInv.timed_callIf {t : Task} (c : Bool) (h : TimerInv w (.code t :: rest)) :
    Timed rest (callIf c t w) := by
  cases c with
  | true => exact h.timed_callOut
  | false => exact h

/-! ## Timer and state -/

/-- The timer of a client is set to a positive delay, and that of a server that has terminated is
stopped. -/
theorem TimerInv.keep_setTimer (h : TimerInv w stack) {id : TimerId} {seconds : Int}
    (hpos : id ≠ .none → 0 < seconds)
    (hrole : w.sub.role = .uas → id = .none ∧ w.sub.state = .terminated) :
    TimerInv (setTimer id seconds w) stack := by
  have hentry := h.entry.setTimer id seconds
  have htimer := (setTimer_heap h.entry id seconds).2
  have hasked : ∀ a ∈ (setTimer id seconds w).asked, 0 < a.2 := by
    have hcancel : (cancelTimer w).asked = w.asked := by
      unfold cancelTimer
      split <;> rfl
    unfold setTimer
    dsimp only
    rw [hcancel]
    split
    · rename_i hid
      have happend : ∀ a ∈ w.asked ++ [(id, seconds)], 0 < a.2 := by
        intro a ha
        rcases List.mem_append.mp ha with ha | ha
        · exact h.asked a ha
        · rw [List.mem_singleton.mp ha]
          exact hpos hid
      split
      · exact happend
      · exact happend
    · rw [hcancel]
      exact h.asked
  rcases setTimer_frame id seconds w with ⟨heap, id', asked, heq⟩
  rw [heq] at hentry htimer hasked ⊢
  have hnone : w.sub.role = .uas → id' = .none := by
    intro hr
    dsimp only at htimer
    rw [htimer, if_neg fun hc => hc.1 (hrole hr).1]
  refine ⟨hentry, hasked, h.clients, fun hr => Or.inl (hnone hr), ?_, ?_, h.cleaning⟩
  · intro hr hc
    rw [show id' = .uasTimeout from hc] at hnone
    cases hnone hr
  · intro hr hne
    exact absurd (hrole hr).2 hne

/-- **The timer of a server** is set to the expiration that is granted. -/
theorem TimerInv.arm (h : TimerInv w stack) {expires : Int} (hpos : 0 < w.sub.expires)
    (hexpires : w.sub.expires = expires) :
    TimerInv (setTimer .uasTimeout w.sub.expires (grant expires w)) stack := by
  have hgrant : TimerOk (grant expires w) := ⟨h.entry.once, h.entry.pending⟩
  have hentry := hgrant.setTimer .uasTimeout w.sub.expires
  have hset := setTimer_heap hgrant .uasTimeout w.sub.expires
  have hasked : (setTimer .uasTimeout w.sub.expires (grant expires w)).asked =
      w.asked ++ [(.uasTimeout, w.sub.expires)] := by
    have hcancel : (cancelTimer (grant expires w)).asked = w.asked := by
      unfold cancelTimer
      split <;> rfl
    unfold setTimer
    dsimp only
    rw [if_pos (by decide), if_pos hpos, hcancel]
  rw [if_pos ⟨by decide, hpos⟩, if_pos ⟨by decide, hpos⟩] at hset
  rcases setTimer_frame .uasTimeout w.sub.expires (grant expires w) with ⟨heap, id, asked, heq⟩
  rw [heq] at hentry hset hasked ⊢
  refine ⟨hentry, ?_, h.clients, fun _ => Or.inr hset.2, ?_, fun _ _ _ _ _ => hset.2, h.cleaning⟩
  · dsimp only at hasked ⊢
    rw [hasked]
    intro a ha
    rcases List.mem_append.mp ha with ha | ha
    · exact h.asked a ha
    · rw [List.mem_singleton.mp ha]
      exact hpos
  · intro _ _
    refine ⟨w.now + expires, rfl, ?_⟩
    rw [← hexpires]
    exact hset.1

/-- The code comes back from the termination with the timer of a server still pending. -/
def KeepsTimer (state : State) (w : World) (rest : List (Frame Task)) : Prop :=
  w.sub.role = .uas → w.sub.state = .terminated →
    state = .terminated ∨ w.sub.timerId = .uasTimeout ∧ cleanings rest = 0

/-- Setting the state keeps the invariant, unless it brings a server back without its timer. -/
theorem TimerInv.timed_setState (h : TimerInv w rest) {state : State}
    (hstate : KeepsTimer state w rest) : Timed rest (setState state w) := by
  have hinv : TimerInv (w.setSub fun s => { s with state := state }) rest := by
    refine h.same ⟨rfl, rfl, rfl, rfl, rfl, rfl⟩ ?_ ?_
    · intro hr ht
      rcases hstate hr ht with hc | hc
      · exact Or.inl hc
      · exact Or.inr hc.1
    · intro hr hpos
      rcases hstate hr (h.cleaning hr hpos) with hc | hc
      · exact hc
      · omega
  refine TimerInv.timed_callIf _ (timerInv_cons hinv (fun _ => rfl) fun _ hc => ?_)
  simp only [Frame.cleans, Bool.and_eq_true, decide_eq_true_eq] at hc
  exact hc.1

theorem keepsTimer_terminated (w : World) (rest : List (Frame Task)) :
    KeepsTimer .terminated w rest := fun _ _ => Or.inl rfl

theorem TimerInv.timed_terminate (h : TimerInv w rest) : Timed rest (setState .terminated w) :=
  h.timed_setState (keepsTimer_terminated w rest)

/-- The timer is stopped. -/
theorem TimerInv.keep_stop (h : TimerInv w stack)
    (hs : w.sub.role = .uas → w.sub.state = .terminated) : TimerInv (setTimer .none 0 w) stack :=
  h.keep_setTimer (fun hc => absurd rfl hc) fun hr => ⟨rfl, hs hr⟩

theorem TimerInv.timed_destroy (h : TimerInv w rest) (hs : w.sub.state = .terminated) :
    Timed rest (done (evsubDestroy w)) :=
  (h.keep_stop fun _ => hs).alike ⟨rfl, rfl, rfl, rfl, rfl, rfl⟩ rfl

theorem TimerInv.timed_stateDone {prev state : State}
    (h : TimerInv w (.code (.stateDone prev state) :: rest)) : Timed rest (stateDone prev state w) := by
  unfold stateDone
  split
  · rename_i hc
    have hs : w.sub.role = .uas → w.sub.state = .terminated := by
      intro hr
      refine h.cleaning hr ?_
      have hcleans : Frame.cleans (.code (.stateDone prev state)) = true := by
        simp [Frame.cleans, hc.1, hc.2]
      rw [cleanings_cons, if_pos hcleans]
      omega
    have hstop := h.tail.keep_stop hs
    dsimp only
    split
    · have hagain : TimerInv (setTimer .none 0 (setTimer .none 0 w)) rest := by
        refine hstop.keep_stop fun hr => ?_
        rw [setTimer_state]
        refine hs ?_
        rcases setTimer_frame .none 0 w with ⟨heap, id, asked, heq⟩
        rw [heq] at hr
        exact hr
      exact hagain.alike ⟨rfl, rfl, rfl, rfl, rfl, rfl⟩ rfl
    · exact hstop
  · exact h.tail

/-! ## The delays of a client -/

/-- The expiration that a 2xx response leaves. -/
def accepted (r : Report) (w : World) : Int :=
  if w.sub.expires ≠ 0 then r.expires.getD w.sub.expires else w.sub.expires

/-- An expiration, a 32-bit number, from which a positive delay is computed: a positive one, or one
so small that the randomised delay wraps around. -/
def Refreshable (expires : Int) (rand : Fin 10) : Prop :=
  -2147483648 ≤ expires ∧ expires ≤ 2147483647 ∧ (0 < expires ∨ expires + rand.val < -2147483638)

instance (e : Int) (rand : Fin 10) : Decidable (Refreshable e rand) := by
  unfold Refreshable
  infer_instance

/-- The delay is positive for these expirations, and for no other one but 0. -/
theorem refreshDelay_pos_iff {expires : Int} {rand : Fin 10} (hlow : -2147483648 ≤ expires)
    (hhigh : expires ≤ 2147483647) : 0 < refreshDelay expires rand ↔ Refreshable expires rand := by
  have hrand := rand.isLt
  unfold refreshDelay Refreshable timeUacRefresh int32 uint32
  dsimp only
  constructor
  · intro h
    refine ⟨hlow, hhigh, ?_⟩
    by_contra hc
    rw [not_or, not_lt, not_lt] at hc
    split_ifs at h <;> omega
  · rintro ⟨-, -, hpos | hwrap⟩
    · split_ifs <;> omega
    · split_ifs <;> omega

theorem timer_alike_accepted (r : Report) (w : World) :
    SameTimer w (updateExpires (accepted r w) (if w.sub.expires ≠ 0 then
      w.setSub fun s => { s with expires := r.expires.getD s.expires } else w)) := by
  unfold updateExpires
  split <;> exact ⟨rfl, rfl, rfl, rfl, rfl, rfl⟩

/-- A 2xx response sets the timer to a positive delay, if the expiration allows that. -/
theorem TimerInv.timed_uacAccepted {r : Report} (h : TimerInv w rest) (hrole : w.sub.role = .uac)
    (hok : accepted r w ≠ 0 → Refreshable (accepted r w) r.rand) : Timed rest (uacAccepted r w) := by
  have hexpires : (if w.sub.expires ≠ 0 then
      w.setSub fun s => { s with expires := r.expires.getD s.expires } else w).sub.expires =
      accepted r w := by
    unfold accepted
    split <;> rfl
  have hstate : (updateExpires (accepted r w) (if w.sub.expires ≠ 0 then
      w.setSub fun s => { s with expires := r.expires.getD s.expires } else w)).sub.state =
      w.sub.state := by
    split <;> rfl
  have hsame := timer_alike_accepted r w
  have hinv := h.alike hsame hstate
  have hupdated : (updateExpires (accepted r w) (if w.sub.expires ≠ 0 then
      w.setSub fun s => { s with expires := r.expires.getD s.expires } else w)).sub.expires =
      accepted r w := hexpires
  unfold uacAccepted
  dsimp only
  rw [hexpires]
  generalize updateExpires (accepted r w) _ = w' at hsame hinv hupdated ⊢
  have hrole' : w'.sub.role = .uac := hsame.role.trans hrole
  have hclient : ∀ {P : Prop}, w'.sub.role = .uas → P := by
    intro P hr
    rw [hrole'] at hr
    cases hr
  have htimed : ∀ id seconds, 0 < seconds → Timed rest
      (if (setTimer id seconds w').sub.state = .sent then setState .accepted (setTimer id seconds w')
        else done (setTimer id seconds w')) := by
    intro id seconds hpos
    have hset : TimerInv (setTimer id seconds w') rest :=
      hinv.keep_setTimer (fun _ => hpos) hclient
    have hback : KeepsTimer .accepted (setTimer id seconds w') rest := by
      intro hr
      rcases setTimer_frame id seconds w' with ⟨heap, id', asked, heq⟩
      rw [heq] at hr
      exact hclient hr
    split
    · exact hset.timed_setState hback
    · exact hset
  rw [hupdated]
  split
  · rename_i hne
    have hdelay := hok hne
    exact htimed _ _ ((refreshDelay_pos_iff hdelay.1 hdelay.2.1).mpr hdelay)
  · exact htimed _ _ (by decide)

theorem TimerInv.timed_uacSubscribeDone {r : Report} (h : TimerInv w rest) (hrole : w.sub.role = .uac)
    (hok : (w.tsx r.tsx).state ≠ .terminated → (w.tsx r.tsx).statusCode / 100 = 2 →
      accepted r w ≠ 0 → Refreshable (accepted r w) r.rand) (ret : Ret) :
    Timed rest (uacSubscribeDone r ret w) := by
  unfold uacSubscribeDone
  dsimp only
  split
  · split
    · exact h.timed_done
    · split
      · exact (h.cons rfl rfl).timed_callOut
      · exact h.timed_terminate
  · split
    · rename_i hcode
      split
      · exact h.timed_done
      · rename_i ht
        exact h.timed_uacAccepted hrole (hok ht hcode)
    · unfold uacFailed
      split_ifs
      · exact h.timed_done
      · exact h.timed_done
      · exact h.timed_terminate

theorem TimerInv.timed_uacSubscribe {r : Report} (h : TimerInv w rest) (hrole : w.sub.role = .uac)
    (hsub : isSubscribe w r.tsx = true)
    (hok : Accepts r w → accepted r w ≠ 0 → Refreshable (accepted r w) r.rand) (ret : Ret) :
    Timed rest (uacSubscribe r ret w) := by
  unfold uacSubscribe
  dsimp only
  split
  · refine h.timed_setState fun hr => ?_
    rw [hrole] at hr
    cases hr
  · split
    · exact h.timed_done
    · rename_i hfinal
      have hcompleted : (w.tsx r.tsx).state ≠ .terminated → (w.tsx r.tsx).state = .completed := by
        intro ht
        by_contra hc
        exact hfinal ⟨hc, ht⟩
      split
      · rename_i hpending
        have hclear : TimerInv (w.setSub fun s => { s with pendingSub := none }) rest :=
          h.alike ⟨rfl, rfl, rfl, rfl, rfl, rfl⟩ rfl
        refine hclear.timed_uacSubscribeDone hrole ?_ ret
        intro ht hcode
        exact hok ⟨hrole, hsub, hcompleted ht, hcode, Or.inr hpending⟩
      · split
        · exact h.timed_done
        · rename_i hnone
          refine h.timed_uacSubscribeDone hrole ?_ ret
          intro ht hcode
          exact hok ⟨hrole, hsub, hcompleted ht, hcode, Or.inl (not_not.mp hnone)⟩

/-- An incoming NOTIFY sets the timer to a positive delay, unless it expires at once. -/
theorem TimerInv.keep_notifyTimer {subState : State × Int} (h : TimerInv w stack)
    (hrole : w.sub.role = .uac) (hok : SetsTimer subState w → subState.2 ≠ 0) :
    TimerInv (notifyTimer subState w) stack ∧ (notifyTimer subState w).sub.role = .uac := by
  unfold notifyTimer
  split
  · rename_i hsets
    have hne := hok hsets
    have hle := hsets.2.1
    have hinv : TimerInv (updateExpires subState.2 w) stack :=
      h.alike ⟨rfl, rfl, rfl, rfl, rfl, rfl⟩ rfl
    dsimp only
    constructor
    · refine hinv.keep_setTimer (fun _ => ?_) fun hr => ?_
      · unfold timeUacRefresh
        split <;> omega
      · rw [show (updateExpires subState.2 w).sub.role = .uac from hrole] at hr
        cases hr
    · rcases setTimer_frame .uacRefresh
        (if timeUacRefresh < subState.2 then subState.2 - timeUacRefresh else subState.2)
        (updateExpires subState.2 w) with ⟨heap, id, asked, heq⟩
      rw [heq]
      exact hrole
  · exact ⟨h, hrole⟩

theorem TimerInv.timed_uacNotifyRespond {subState : State × Int} {stCode : Int} (h : TimerInv w rest)
    (hrole : w.sub.role = .uac) (hok : stCode < 300 → SetsTimer subState w → subState.2 ≠ 0) (ret : Ret) :
    Timed rest (uacNotifyRespond subState stCode ret w) := by
  have hanswer : ∀ {w' : World} (t : Task), TimerInv w' rest → w'.sub.role = .uac →
      Frame.cleans (.code t) = false → Timed rest (callOut t w') := by
    intro w' t hinv hr hclean
    refine TimerInv.timed_callOut (timerInv_cons hinv (fun hc => ?_) fun _ hc => ?_)
    · rw [hr] at hc
      cases hc
    · rw [hclean] at hc
      cases hc
  unfold uacNotifyRespond
  split
  · split
    · exact hanswer _ h hrole rfl
    · exact h.timed_terminate
  · rename_i hcode
    rcases h.keep_notifyTimer hrole (hok (by omega)) with ⟨hinv, hrole'⟩
    dsimp only
    split
    · exact hanswer _ hinv hrole' rfl
    · exact hinv.timed_terminate

theorem TimerInv.timed_uacNotify (h : TimerInv w rest) (hrole : w.sub.role = .uac) (r : Report)
    (ret : Ret) : Timed rest (uacNotify r ret w) := by
  unfold uacNotify
  split
  · exact h.timed_done
  · split
    · exact h.timed_uacNotifyRespond hrole (fun hcode => absurd hcode (by decide)) ret
    · refine TimerInv.timed_callIf _ (timerInv_cons h (fun hr => ?_) fun _ hc => ?_)
      · rw [hrole] at hr
        cases hr
      · exact absurd (show false = true from hc) (by decide)

/-! ## A server -/

theorem TimerInv.timed_uasRefresh (h : TimerInv w rest) (r : Report) : Timed rest (uasRefresh r w) := by
  unfold uasRefresh
  split
  · exact h.timed_done
  · have hadopt : TimerInv (adoptExpires r w) rest := h.alike ⟨rfl, rfl, rfl, rfl, rfl, rfl⟩ rfl
    dsimp only
    generalize adoptExpires r w = w' at hadopt ⊢
    have hkeep : w'.sub.state = .terminated → refreshState w'.sub = .terminated := by
      intro hs
      unfold refreshState
      rw [hs]
      split <;> rfl
    have hset : TimerInv (w'.setSub fun s => { s with state := refreshState s }) rest :=
      hadopt.same ⟨rfl, rfl, rfl, rfl, rfl, rfl⟩ (fun _ hs => Or.inl (hkeep hs))
        fun hr hpos => hkeep (hadopt.cleaning hr hpos)
    exact (hset.cons rfl rfl).timed_callIf _

theorem TimerInv.timed_uasSetTimer {expires : Int} (h : TimerInv w rest)
    (hok : w.sub.state ≠ .terminated → 0 < w.sub.expires ∧ w.sub.expires = expires) :
    Timed rest (uasSetTimer expires w) := by
  unfold uasSetTimer
  split
  · rename_i hs
    exact h.arm (hok hs).1 (hok hs).2
  · exact h.timed_done

theorem keepsTimer_self (w : World) (rest : List (Frame Task)) : KeepsTimer w.sub.state w rest :=
  fun _ hs => Or.inl hs

theorem TimerInv.timed_uasRefreshAnswered {old : State} {stCode expires : Int} (h : TimerInv w rest)
    (hgrant : stCode / 100 = 2 → w.sub.expires ≠ 0 → w.sub.state ≠ .null → w.sub.state ≠ .terminated →
      0 < w.sub.expires ∧ w.sub.expires = expires)
    (hback : stCode / 100 ≠ 2 → KeepsTimer old w rest) :
    Timed rest (uasRefreshAnswered old stCode expires w) := by
  unfold uasRefreshAnswered
  split
  · rename_i hcode
    split
    · exact ((h.cons rfl rfl).timed_setState (keepsTimer_self w _)).andThen
    · rename_i hexpires
      split
      · exact ((h.cons rfl rfl).timed_setState (keepsTimer_self w _)).andThen
      · rename_i hnull
        exact h.timed_uasSetTimer (hgrant hcode hexpires hnull)
  · rename_i hcode
    refine h.same ⟨rfl, rfl, rfl, rfl, rfl, rfl⟩ ?_ ?_
    · intro hr hs
      rcases hback hcode hr hs with hc | hc
      · exact Or.inl hc
      · exact Or.inr hc.1
    · intro hr hpos
      rcases hback hcode hr (h.cleaning hr hpos) with hc | hc
      · exact hc
      · omega

theorem TimerInv.timed_uasNotifyFailed (h : TimerInv w rest) (t : Nat) :
    Timed rest (uasNotifyFailed t w) := by
  unfold uasNotifyFailed
  dsimp only
  split
  · exact h.timed_terminate
  · exact h.timed_done

/-! ## What the code takes for granted -/

/-- A piece of code that goes on sets a timer to a positive delay only, and that of a server to the
expiration that it grants; it does not bring a server back without its timer. -/
def TimelyTask : Task → Ret → World → List (Frame Task) → Prop
  | .handle r, _, w, _ => Accepts r w → accepted r w ≠ 0 → Refreshable (accepted r w) r.rand
  | .uacNotifyCode r asked, ret, w, _ =>
      (if asked then finalCode ret.stCode else 200) < 300 →
        SetsTimer (r.subState.getD (.unknown, 0)) w → (r.subState.getD (.unknown, 0)).2 ≠ 0
  | .uasRefreshAnswered old stCode expires, _, w, rest =>
      (stCode / 100 = 2 → w.sub.expires ≠ 0 → w.sub.state ≠ .null → w.sub.state ≠ .terminated →
        0 < w.sub.expires ∧ w.sub.expires = expires) ∧
      (stCode / 100 ≠ 2 → KeepsTimer old w rest)
  | .uasSetTimer expires, _, w, _ =>
      w.sub.state ≠ .terminated → 0 < w.sub.expires ∧ w.sub.expires = expires
  | .acceptSent expires, ret, w, _ =>
      ret.ok = true → w.sub.state ≠ .terminated → 0 < w.sub.expires ∧ w.sub.expires = expires
  | .requestSent isNotify, ret, w, rest =>
      ret.ok = true → isNotify = true → w.sub.dstState ≠ .null → KeepsTimer w.sub.dstState w rest
  | _, _, _, _ => True

/-- The condition on a step. -/
def Timely (c : Conf World Task) : Step → Prop
  | .resume ret =>
      match Reentry.next c.stack with
      | some (t, rest) => TimelyTask t ret c.state rest
      | none => True
  | _ => True

instance (state : State) (w : World) (rest : List (Frame Task)) : Decidable (KeepsTimer state w rest) := by
  unfold KeepsTimer
  infer_instance

instance (t : Task) (ret : Ret) (w : World) (rest : List (Frame Task)) :
    Decidable (TimelyTask t ret w rest) :=
  match t with
  | .handle _ | .uacNotifyCode _ _ | .uasRefreshAnswered _ _ _ | .uasSetTimer _ | .acceptSent _
  | .requestSent _ => by
      dsimp only [TimelyTask]
      infer_instance
  | .stateDone _ _ | .reportEnd _ | .uacAuthSent | .uacNotifyRefused | .uacNotifyAnswered _
  | .uasRefreshCode _ _ | .uasAuthSent _ | .clearDst | .nothing => isTrue trivial

instance (c : Conf World Task) (e : Step) : Decidable (Timely c e) :=
  match e with
  | .resume ret =>
      match h : Reentry.next c.stack with
      | some (t, rest) => decidable_of_iff (TimelyTask t ret c.state rest) (by simp [Timely, h])
      | none => isTrue (by simp [Timely, h])
  | .call _ | .event _ => isTrue trivial

theorem TimerInv.role_uac {t : Task} (h : TimerInv w (.code t :: rest))
    (hclient : Frame.client (.code t) = true) : w.sub.role = .uac := by
  cases hrole : w.sub.role with
  | uac => rfl
  | uas =>
      have hc := h.clients hrole _ List.mem_cons_self
      rw [hclient] at hc
      cases hc

theorem TimerInv.timed_uasAuthSent (h : TimerInv w rest) (t : Nat) (ret : Ret) :
    Timed rest (uasAuthSent t ret w) := by
  unfold uasAuthSent
  split
  · exact h.timed_terminate
  · exact h.timed_uasNotifyFailed t

/-- **A piece of code that goes on** keeps the invariant. -/
theorem TimerInv.timed_resume {t : Task} {ret : Ret} (h : TimerInv w (.code t :: rest))
    (hok : TimelyTask t ret w rest) : Timed rest (resume t ret w) := by
  have hrest := h.tail
  cases t with
  | stateDone prev state => exact h.timed_stateDone
  | handle r =>
      have hend : TimerInv w (.code (.reportEnd r.tsx) :: rest) := hrest.cons rfl rfl
      show Timed rest (handle r ret w)
      unfold handle
      refine Timed.andThen ?_
      cases hrole : w.sub.role with
      | uac =>
          show Timed _ (onTsxStateUac r ret w)
          unfold onTsxStateUac
          split
          · rename_i hsub
            exact hend.timed_uacSubscribe hrole hsub hok ret
          · split
            · exact hend.timed_uacNotify hrole r ret
            · exact hend.timed_done
      | uas =>
          show Timed _ (onTsxStateUas r ret w)
          unfold onTsxStateUas
          split
          · exact hend.timed_uasRefresh r
          · split
            · unfold uasNotify
              dsimp only
              split_ifs
              · exact (hend.cons rfl rfl).timed_callOut
              · exact hend.timed_terminate
              · exact hend.timed_uasNotifyFailed r.tsx
            · exact hend.timed_done
  | reportEnd tsx =>
      show Timed rest (reportEnd tsx w)
      have hcount : TimerInv (w.setSub fun s => { s with pendingTsx := s.pendingTsx - 1 }) rest :=
        hrest.alike ⟨rfl, rfl, rfl, rfl, rfl, rfl⟩ rfl
      unfold reportEnd
      split
      · dsimp only
        split
        · rename_i hc
          exact hcount.timed_destroy hc.1
        · exact hcount
      · exact hrest
  | uacAuthSent =>
      show Timed rest (uacAuthSent ret w)
      unfold uacAuthSent
      split
      · exact hrest.timed_terminate
      · exact hrest
  | uacNotifyCode r asked => exact hrest.timed_uacNotifyRespond (h.role_uac rfl) hok ret
  | uacNotifyRefused =>
      have hrole := h.role_uac rfl
      show Timed rest (uacNotifyRefused ret w)
      unfold uacNotifyRefused
      split
      · have hset : TimerInv (setTimer .uacWaitNotify timeUacWaitNotify w) rest := by
          refine hrest.keep_setTimer (fun _ => by decide) fun hr => ?_
          rw [hrole] at hr
          cases hr
        exact hset
      · exact hrest.timed_terminate
  | uacNotifyAnswered state =>
      have hrole := h.role_uac rfl
      show Timed rest (uacNotifyAnswered state ret w)
      unfold uacNotifyAnswered
      split
      · refine hrest.timed_setState fun hr => ?_
        rw [hrole] at hr
        cases hr
      · exact hrest.timed_terminate
  | uasRefreshCode old asked => exact (hrest.cons rfl rfl).timed_callIf _
  | uasRefreshAnswered old code expires => exact hrest.timed_uasRefreshAnswered hok.1 hok.2
  | uasSetTimer expires => exact hrest.timed_uasSetTimer hok
  | uasAuthSent tsx => exact hrest.timed_uasAuthSent tsx ret
  | requestSent n =>
      show Timed rest (requestSent n ret w)
      unfold requestSent
      split
      · exact hrest
      · rename_i hret
        split
        · rename_i hn
          split
          · exact hrest
          · rename_i hdst
            have hkeep := hok (Bool.not_eq_false _ ▸ hret) hn hdst
            exact ((hrest.cons rfl rfl).timed_setState hkeep).andThen
        · exact hrest
  | clearDst => exact hrest.alike ⟨rfl, rfl, rfl, rfl, rfl, rfl⟩ rfl
  | acceptSent expires =>
      show Timed rest (acceptSent expires ret w)
      unfold acceptSent
      split
      · exact hrest
      · rename_i hret
        exact hrest.timed_uasSetTimer (hok (Bool.not_eq_false _ ▸ hret))
  | nothing => exact hrest

/-! ## Calls, events and runs -/

theorem TimerInv.timed_reported (h : TimerInv w rest) (r : Report) : Timed rest (reported r w) :=
  (h.cons rfl rfl).timed_callIf _

theorem TimerInv.timed_rejectNotify (h : TimerInv w rest) (t : Nat) (created : Bool) :
    Timed rest (rejectNotify t created w) := by
  unfold rejectNotify
  split
  · exact (h.cons rfl rfl).timed_callOut
  · exact h.timed_done

theorem TimerInv.timed_tsxReport (h : TimerInv w rest) (r : Report) (created : Bool) :
    Timed rest (tsxReport r created w) := by
  have henter : TimerInv (enter r w) rest := h.alike ⟨rfl, rfl, rfl, rfl, rfl, rfl⟩ rfl
  unfold tsxReport
  dsimp only
  split
  · exact h.timed_done
  · change Timed rest (if r.tsx ∈ w.attached then reported r (enter r w)
      else onNewTransaction r created (enter r w))
    split
    · exact henter.timed_reported r
    · have hattach : TimerInv (attach r.tsx (enter r w)) rest := by
        rcases attach_eq r.tsx (enter r w) with ⟨pending, heq⟩
        rw [heq]
        exact henter.alike ⟨rfl, rfl, rfl, rfl, rfl, rfl⟩ rfl
      unfold onNewTransaction
      dsimp only
      split_ifs
      · exact henter.timed_rejectNotify r.tsx created
      · exact hattach.timed_reported r
      · exact henter.timed_done
      · exact henter.timed_rejectNotify r.tsx created

theorem sameTimer_initiate (m : Method) (e : Int) (created : Bool) (w : World) :
    SameTimer w (pjsipEvsubInitiate m e created w) := by
  unfold pjsipEvsubInitiate
  dsimp only
  split_ifs <;> exact ⟨rfl, rfl, rfl, rfl, rfl, rfl⟩

theorem sameTimer_notify (state : State) (created : Bool) (w : World) :
    SameTimer w (pjsipEvsubNotify state created w) := by
  unfold pjsipEvsubNotify
  split_ifs <;> exact ⟨rfl, rfl, rfl, rfl, rfl, rfl⟩

theorem TimerInv.timed_call (h : TimerInv w stack) (a : Call) : Timed stack (call a w) := by
  cases a with
  | terminate notify =>
      have hcb : TimerInv (w.setSub fun s => { s with callCb := notify }) stack :=
        h.alike ⟨rfl, rfl, rfl, rfl, rfl, rfl⟩ rfl
      exact hcb.timed_terminate
  | initiate m e created =>
      exact h.alike (sameTimer_initiate m e created w) (alike_initiate m e created w).state
  | notify state created =>
      exact h.alike (sameTimer_notify state created w) (alike_notify state created w).state
  | sendRequest n => exact (h.cons rfl rfl).timed_callOut
  | accept t code created =>
      have hcall : Timed stack (callOut (.acceptSent w.sub.expires) w) := (h.cons rfl rfl).timed_callOut
      show Timed stack (pjsipEvsubAccept t code created w)
      unfold pjsipEvsubAccept
      split_ifs <;> first | exact h.timed_done | exact hcall
  | report r created => exact h.timed_tsxReport r created

/-- When the timer of a server fires, the subscription has expired. -/
theorem TimerInv.timed_onTimer (h : TimerInv w []) (created : Bool)
    (hdue : w.heap.any (fun due => decide (due ≤ w.now)) = true) : Timed [] (onTimer created w) := by
  have herase := timerOk_fired h.entry hdue
  have hheap : w.heap ≠ [] := by
    intro hnil
    rw [hnil] at hdue
    cases hdue
  have hfired : ∀ id, TimerInv { w with
      heap := w.heap.eraseP fun due => decide (due ≤ w.now)
      sub := { w.sub with timerId := .none }
      fired := w.fired ++ [(id, w.sub.state)] } [] := by
    intro id
    refine ⟨?_, h.asked, h.clients, fun _ => Or.inl rfl, fun _ hc => (by cases hc), ?_, h.cleaning⟩
    · constructor
      · simp [herase]
      · simp [herase]
    · intro hr hs g hg hnow
      -- The timer was that of the server, and its time is over.
      rcases h.server hr with hnone | htimeout
      · exact absurd hnone (h.entry.pending.mpr hheap)
      · rcases h.due hr htimeout with ⟨g', hg', hone⟩
        rw [hone, List.any_cons, List.any_nil, Bool.or_false, decide_eq_true_eq] at hdue
        obtain rfl : g' = g := Option.some.inj (hg'.symm.trans hg)
        exact absurd hnow (not_lt.mpr hdue)
  have hsend : ∀ {w' : World} (n : Bool), TimerInv w' [] → ∀ c : Bool,
      Timed [] (if c then pjsipEvsubSendRequest n w' else done w') := by
    intro w' n hinv c
    cases c with
    | true => exact (hinv.cons rfl rfl).timed_callOut
    | false => exact hinv.timed_done
  unfold onTimer
  dsimp only
  cases w.sub.timerId with
  | none => exact hfired _
  | uacRefresh =>
      dsimp only
      split
      · exact ((hfired _).cons rfl rfl).timed_callOut
      · exact hsend false ((hfired _).alike (sameTimer_initiate _ _ _ _) (alike_initiate _ _ _ _).state) _
  | uasTimeout =>
      dsimp only
      split
      · exact ((hfired _).cons rfl rfl).timed_callOut
      · exact hsend true ((hfired _).alike (sameTimer_notify _ _ _) (alike_notify _ _ _).state) _
  | uacTerminate => exact (hfired _).timed_terminate
  | uacWaitNotify =>
      exact hsend false ((hfired _).alike (sameTimer_initiate _ _ _ _) (alike_initiate _ _ _ _).state) _

theorem TimerInv.timed_event (h : TimerInv w []) (b : Event) : Timed [] (event b w) := by
  cases b with
  | time n =>
      refine ⟨⟨h.entry.once, h.entry.pending⟩, h.asked, h.clients, h.server, h.due, ?_, h.cleaning⟩
      intro hr hs g hg hnow
      have hlater : w.now < g := by
        have : w.now + (n : Int) < g := hnow
        omega
      exact h.pending hr hs g hg hlater
  | timer created =>
      show Timed [] (if _ then _ else _)
      split
      · rename_i hdue
        exact h.timed_onTimer created hdue
      · exact h.timed_done

/-- **One step** keeps the invariant. -/
theorem timer_step {c : Conf World Task} {e : Step} (h : TimerInv c.state c.stack) (hok : Timely c e) :
    TimerInv (Reentry.step program c e).state (Reentry.step program c e).stack := by
  refine Reentry.step_cases (Q := fun c' => TimerInv c'.state c'.stack) h ?_ ?_ ?_
  · exact fun a _ _ => h.timed_call a
  · intro b _ hstack
    rw [hstack] at h
    exact h.timed_event b
  · intro ret t rest he hres
    have hinv : TimerInv c.state (.code t :: rest) := by
      rcases Reentry.next_cases hres with hstack | hstack
      · rw [hstack] at h
        exact h
      · rw [hstack] at h
        exact h.tail
    refine hinv.timed_resume ?_
    rw [he] at hok
    unfold Timely at hok
    rw [hres] at hok
    exact hok

theorem timerInv_start {w : World} (h : Created w) : TimerInv w [] := by
  have hcleanings : cleanings [] = 0 := rfl
  constructor
  · constructor
    · simp [h.timer.2]
    · simp [h.timer.1, h.timer.2]
  · simp [h.history.2.1]
  · simp
  · exact fun _ => Or.inl h.timer.1
  · simp [h.timer.1]
  · simp [h.history.2.2.2]
  · simp [hcleanings]

/-- What the timers of a subscription do: `set_timer` is asked for positive delays only, at most one
timer is pending and the id names it, and a server subscription that has been accepted and has not
terminated is timed out not later than it expires. -/
structure WellTimed (w : World) : Prop where
  asked : ∀ a ∈ w.asked, 0 < a.2
  one : w.heap.length ≤ 1
  id : w.sub.timerId ≠ .none ↔ w.heap ≠ []
  server : w.sub.role = .uas → w.sub.state ≠ .terminated → ∀ g, w.granted = some g → w.now < g →
    w.sub.timerId = .uasTimeout ∧ ∃ due ∈ w.heap, due ≤ g

/-- **The timers of a subscription.** In a run whose steps are all timely, everything is `WellTimed`
at its end, and so at each point. -/
theorem timers_run (w : World) (l : List Step) (hw : Created w)
    (hok : Reentry.Meets program Timely (start w) l) :
    WellTimed (Reentry.run program (start w) l).state := by
  have h : TimerInv (Reentry.run program (start w) l).state (Reentry.run program (start w) l).stack :=
    Reentry.run_invariant (I := fun c => TimerInv c.state c.stack) (fun c e => timer_step) l (start w)
      (timerInv_start hw) hok
  refine ⟨h.asked, h.entry.once, h.entry.pending, ?_⟩
  intro hr hs g hg hnow
  have hid := h.pending hr hs g hg hnow
  rcases h.due hr hid with ⟨g', hg', hheap⟩
  obtain rfl : g' = g := Option.some.inj (hg'.symm.trans hg)
  refine ⟨hid, g', ?_, le_refl g'⟩
  rw [hheap]
  exact List.mem_singleton_self g'

/-- The SUBSCRIBE is accepted for a minute, and half of it is over. -/
def acceptRun : List Step :=
  [.call (.accept 0 200 true), .call (.report (plainReport 0 .completed 200) true), succeeds, succeeds,
    succeeds, .call (.report (plainReport 0 .terminated 200) true), succeeds, succeeds,
    .event (.time 30)]

theorem timers_run_sample :
    (Reentry.run program (start sampleServer) acceptRun).state.heap = [60] ∧
      WellTimed (Reentry.run program (start sampleServer) acceptRun).state :=
  ⟨by decide, timers_run sampleServer acceptRun sampleServer_created (by decide)⟩

/-- A SUBSCRIBE with no expiration, to fetch the state once, is accepted. -/
theorem set_timer_zero : ¬ ∀ (w : World) (l : List Step), Created w →
    WellTimed (Reentry.run program (start w) l).state := by
  intro h
  have hfetch : Created (sampleServer.setSub fun s => { s with expires := 0 }) :=
    ⟨rfl, rfl, ⟨rfl, rfl⟩, rfl, ⟨0, rfl, rfl, by decide⟩, ⟨rfl, rfl, rfl, rfl⟩⟩
  have hasked := (h _ [.call (.accept 0 200 true), succeeds] hfetch).asked
  exact absurd (hasked (.uasTimeout, 0) (by decide)) (by decide)

end Evsub
