import PjProject.Turn.Session

set_option autoImplicit false

/-! # The life cycle of a TURN session

`turn_life_cycle`: in every run whose steps are `StepOk`, a session in `PJ_TURN_STATE_READY` has its
keep-alive timer or a Refresh request, a session in `PJ_TURN_STATE_DESTROYING` stays there and has
exactly one destroy timer event, and the server is one of the list (`Safe`). What is left out are
the steps that go wrong in the code (`life_cycle_broken`): a keep-alive Refresh that cannot be sent
or whose response is dropped, a session that is used or answered while it is being destroyed, and a
resolver that finds no address.

The invariant is one of two: a session that has not been shut down (`Live`), and one that has
(`Ending`).
-/

namespace Turn

open Wire Timer Machine
open Stun (SockAddr)

/-! ## The invariant -/

/-- A Refresh request is outstanding. -/
def Session.refreshing (s : Session) : Bool := s.pending.any Request.isRefresh

/-- The keep-alive timer is scheduled. -/
def Session.keepsAlive (s : Session) : Prop := s.timer = ⟨timerKeepAlive, true⟩

/-- The server is one of the list. -/
def Session.serverOk (s : Session) : Prop := ∀ i, s.srvAddr = some i → i < s.srvAddrList.length

/-- The fields of a session that has not been shut down. -/
structure LiveAt (state : TurnState) (isDestroying : Bool) (timer : Timer.Entry)
    (srvAddr : Option Nat) (srvAddrCnt : Nat) (visited : List TurnState) (destroyEvents : Nat)
    (assertFailed : Bool) : Prop where
  state : state ≠ .destroying
  alive : isDestroying = false
  timer : timer = ⟨timerNone, false⟩ ∨ timer = ⟨timerKeepAlive, true⟩
  server : ∀ i, srvAddr = some i → i < srvAddrCnt
  visited : .destroying ∉ visited
  events : destroyEvents = 0
  asserts : assertFailed = false

/-- The session has not been shut down. -/
def Live (s : Session) : Prop :=
  LiveAt s.state s.isDestroying s.timer s.srvAddr s.srvAddrList.length s.visited s.destroyEvents
    s.assertFailed

/-- The fields of a session that has been shut down: the destroy timer is scheduled or its event is
over. -/
structure EndingAt (state : TurnState) (isDestroying : Bool) (timer : Timer.Entry)
    (srvAddr : Option Nat) (srvAddrCnt : Nat) (visited : List TurnState) (destroyEvents : Nat)
    (assertFailed : Bool) (pending : List Request) : Prop where
  state : state = .destroying
  timer : isDestroying = false ∧ timer = ⟨timerDestroy, true⟩ ∧ destroyEvents = 0 ∨
    isDestroying = true ∧ timer = ⟨timerNone, false⟩ ∧ destroyEvents = 1 ∧ pending = []
  server : ∀ i, srvAddr = some i → i < srvAddrCnt
  visited : ∃ l, visited = l ++ [.destroying] ∧ .destroying ∉ l
  asserts : assertFailed = false

/-- The session has been shut down. -/
def Ending (s : Session) : Prop :=
  EndingAt s.state s.isDestroying s.timer s.srvAddr s.srvAddrList.length s.visited s.destroyEvents
    s.assertFailed s.pending

/-- A session that is ready has its keep-alive timer or a Refresh request. -/
def Kept (s : Session) : Prop := s.state = .ready → s.keepsAlive ∨ s.refreshing = true

/-- The invariant. -/
def Inv (s : Session) : Prop := Live s ∧ Kept s ∨ Ending s

/-- What the session promises. -/
structure Safe (s : Session) : Prop where
  kept : s.state = .ready → s.keepsAlive ∨ s.refreshing = true
  final : ∀ l l', s.visited = l ++ .destroying :: l' → l' = []
  once : s.state = .destroying →
    s.destroyEvents + (if s.timer = ⟨timerDestroy, true⟩ then 1 else 0) = 1
  asserts : s.assertFailed = false
  server : s.serverOk

theorem not_mem_split {l l' m : List TurnState} (h : m = l ++ .destroying :: l')
    (hm : .destroying ∉ m) : False := by
  rw [h] at hm
  exact hm (List.mem_append_right _ List.mem_cons_self)

theorem Inv.safe {s : Session} (h : Inv s) : Safe s := by
  rcases h with ⟨hl, hk⟩ | he
  · exact ⟨hk, fun l l' hv => (not_mem_split hv hl.visited).elim,
      fun hd => absurd hd hl.state, hl.asserts, hl.server⟩
  · refine ⟨fun hr => ?_, fun l l' hv => ?_, fun _ => ?_, he.asserts, he.server⟩
    · rw [he.state] at hr
      cases hr
    · rcases he.visited with ⟨m, hm, hnot⟩
      rw [hm] at hv
      -- The state that is found is the last one, as it is not in `m`.
      rcases List.eq_nil_or_concat l' with rfl | ⟨l'', x, rfl⟩
      · rfl
      · rw [List.concat_eq_append, ← List.cons_append, ← List.append_assoc] at hv
        have hinit := (List.append_inj' hv rfl).1
        exact (not_mem_split hinit hnot).elim
    · rcases he.timer with ⟨_, ht, hz⟩ | ⟨_, ht, hz, _⟩
      · rw [ht, hz, if_pos rfl]
      · rw [ht, hz, if_neg (by decide)]

/-! ## What changes nothing -/

/-- The life of the session is the same; requests may have been added, unless it is destroyed. -/
structure Untouched (s s' : Session) : Prop where
  state : s'.state = s.state
  alive : s'.isDestroying = s.isDestroying
  timer : s'.timer = s.timer
  server : s'.srvAddr = s.srvAddr
  list : s'.srvAddrList = s.srvAddrList
  visited : s'.visited = s.visited
  events : s'.destroyEvents = s.destroyEvents
  asserts : s'.assertFailed = s.assertFailed
  more : s.pending ⊆ s'.pending
  closed : s.isDestroying = true → s'.pending = s.pending

theorem Untouched.refl (s : Session) : Untouched s s :=
  ⟨rfl, rfl, rfl, rfl, rfl, rfl, rfl, rfl, List.Subset.refl _, fun _ => rfl⟩

theorem Untouched.trans {s₁ s₂ s₃ : Session} (h : Untouched s₁ s₂) (h' : Untouched s₂ s₃) :
    Untouched s₁ s₃ :=
  ⟨h'.state.trans h.state, h'.alive.trans h.alive, h'.timer.trans h.timer,
    h'.server.trans h.server, h'.list.trans h.list, h'.visited.trans h.visited,
    h'.events.trans h.events, h'.asserts.trans h.asserts, List.Subset.trans h.more h'.more,
    fun hd => (h'.closed (h.alive.trans hd)).trans (h.closed hd)⟩

variable {s s' : Session}

theorem Live.untouched (h : Live s) (hu : Untouched s s') : Live s' := by
  unfold Live
  rw [hu.state, hu.alive, hu.timer, hu.server, hu.list, hu.visited, hu.events, hu.asserts]
  exact h

theorem refreshing_mono (h : s.pending ⊆ s'.pending) (hr : s.refreshing = true) :
    s'.refreshing = true := by
  rcases List.any_eq_true.mp hr with ⟨r, hmem, hr⟩
  exact List.any_eq_true.mpr ⟨r, h hmem, hr⟩

theorem Kept.untouched (h : Kept s) (hu : Untouched s s') : Kept s' := by
  intro hr
  rw [hu.state] at hr
  rcases h hr with hk | hk
  · refine Or.inl ?_
    unfold Session.keepsAlive
    rw [hu.timer]
    exact hk
  · exact Or.inr (refreshing_mono hu.more hk)

theorem Ending.untouched (h : Ending s) (hu : Untouched s s') : Ending s' := by
  refine ⟨hu.state.trans h.state, ?_, ?_, ?_, hu.asserts.trans h.asserts⟩
  · rw [hu.alive, hu.timer, hu.events]
    rcases h.timer with ht | ⟨hd, ht, he, hp⟩
    · exact Or.inl ht
    · exact Or.inr ⟨hd, ht, he, (hu.closed hd).trans hp⟩
  · rw [hu.server, hu.list]
    exact h.server
  · rw [hu.visited]
    exact h.visited

theorem Inv.untouched (h : Inv s) (hu : Untouched s s') : Inv s' := by
  rcases h with ⟨hl, hk⟩ | he
  · exact Or.inl ⟨hl.untouched hu, hk.untouched hu⟩
  · exact Or.inr (he.untouched hu)

theorem sendMsg_untouched (s : Session) (req : Request) : Untouched s (s.sendMsg req).1 := by
  unfold Session.sendMsg
  dsimp only
  split
  · exact ⟨rfl, rfl, rfl, rfl, rfl, rfl, rfl, rfl, List.Subset.refl _, fun _ => rfl⟩
  · rename_i hd
    split
    · exact ⟨rfl, rfl, rfl, rfl, rfl, rfl, rfl, rfl, List.subset_append_left _ _,
        fun h => absurd h hd⟩
    · exact ⟨rfl, rfl, rfl, rfl, rfl, rfl, rfl, rfl, List.Subset.refl _, fun _ => rfl⟩

/-- A request that has been sent is outstanding. -/
theorem mem_sendMsg {req : Request} (hd : s.isDestroying = false)
    (h : s.sends.headD .sent = .sent ∨ s.sends.headD .sent = .epending) :
    req ∈ (s.sendMsg req).1.pending := by
  unfold Session.sendMsg
  dsimp only
  rw [if_neg (by rw [hd]; exact Bool.false_ne_true), if_pos h]
  exact List.mem_append_right _ List.mem_cons_self

theorem lookupChByAddr_untouched (s : Session) (addr : SockAddr) (now : PjTimeVal) :
    Untouched s (lookupChByAddr s addr now) :=
  ⟨rfl, rfl, rfl, rfl, rfl, rfl, rfl, rfl, List.Subset.refl _, fun _ => rfl⟩

theorem invalidatePerms_untouched (s : Session) (token : Nat) :
    Untouched s (s.invalidatePerms token) :=
  ⟨rfl, rfl, rfl, rfl, rfl, rfl, rfl, rfl, List.Subset.refl _, fun _ => rfl⟩

theorem setPermLoop_untouched {token : Nat} {renew : Bool} {now : PjTimeVal} :
    ∀ (addrs : List SockAddr) (n : Nat) (s : Session),
      Untouched s (setPermLoop token renew now addrs n s).1
  | [], _, s => Untouched.refl s
  | addr :: addrs, n, s => by
      have hone : Untouched s { s with
          permTable := (lookupPerm s addr now).map fun p =>
            if p.addr = noPort addr then { p with renew := renew, reqToken := some token }
            else p } :=
        ⟨rfl, rfl, rfl, rfl, rfl, rfl, rfl, rfl, List.Subset.refl _, fun _ => rfl⟩
      rw [setPermLoop]
      split
      · split
        · exact hone
        · exact hone.trans (setPermLoop_untouched addrs _ _)
      · exact hone.trans (setPermLoop_untouched addrs _ _)

/-- What sending comes to is not part of the life. -/
theorem sends_untouched (s : Session) (sends : List Sending) :
    Untouched s { s with sends := sends } :=
  ⟨rfl, rfl, rfl, rfl, rfl, rfl, rfl, rfl, List.Subset.refl _, fun _ => rfl⟩

theorem setPerm_untouched (s : Session) (addrs : List SockAddr) (renew : Bool) (token : Nat)
    (now : PjTimeVal) : Untouched s (turnSessionSetPerm s addrs renew token now) := by
  have hloop : Untouched s (setPermLoop token renew now addrs 0 s).1 :=
    setPermLoop_untouched addrs 0 s
  unfold turnSessionSetPerm
  split
  · exact sends_untouched s _
  · dsimp only
    split
    · have hsend := hloop.trans (sendMsg_untouched _ (.createPerm token))
      split
      · exact hsend
      · exact hsend.trans (invalidatePerms_untouched _ token)
    · exact (hloop.trans (sends_untouched _ _)).trans (invalidatePerms_untouched _ token)

theorem numberChannel_untouched (s : Session) (addr : SockAddr) :
    Untouched s (s.numberChannel addr).1 := by
  unfold Session.numberChannel
  split
  · exact Untouched.refl s
  · split
    · exact Untouched.refl s
    · exact ⟨rfl, rfl, rfl, rfl, rfl, rfl, rfl, rfl, List.Subset.refl _, fun _ => rfl⟩

theorem bindChannel_untouched (s : Session) (peer : SockAddr) (now : PjTimeVal) :
    Untouched s (turnSessionBindChannel s peer now) := by
  have hnum : Untouched s ((lookupChByAddr s peer now).numberChannel peer).1 :=
    (lookupChByAddr_untouched s peer now).trans (numberChannel_untouched _ peer)
  unfold turnSessionBindChannel
  split
  · exact Untouched.refl s
  · split
    · exact sends_untouched s _
    · dsimp only
      split
      · exact hnum.trans (sendMsg_untouched _ _)
      · exact hnum.trans (sends_untouched _ _)

theorem refreshChannels_untouched {now : PjTimeVal} : ∀ (channels : List Channel) (s : Session),
    Untouched s (refreshChannels now channels s)
  | [], s => Untouched.refl s
  | c :: channels, s => by
      rw [refreshChannels]
      split
      · exact (bindChannel_untouched s c.addr now).trans (refreshChannels_untouched channels _)
      · exact refreshChannels_untouched channels s

theorem refreshPermissions_untouched (s : Session) (token : Nat) (now : PjTimeVal) :
    Untouched s (refreshPermissions s token now).1 := by
  have hperm : ∀ perms, Untouched s { s with permTable := perms } := fun _ =>
    ⟨rfl, rfl, rfl, rfl, rfl, rfl, rfl, rfl, List.Subset.refl _, fun _ => rfl⟩
  unfold refreshPermissions
  dsimp only
  split
  · exact ⟨rfl, rfl, rfl, rfl, rfl, rfl, rfl, rfl, List.Subset.refl _, fun _ => rfl⟩
  · exact hperm _
  · exact (hperm _).trans (sendMsg_untouched _ _)

/-! ## Changes of the state -/

theorem state_setState (s : Session) (st : TurnState) : (s.setState st).state = st := by
  unfold Session.setState
  split
  · rename_i h
    exact h.symm
  · rfl

theorem Live.setState (h : Live s) (st : TurnState) (hne : st ≠ .destroying) :
    Live (s.setState st) := by
  unfold Session.setState
  split
  · exact h
  · refine ⟨hne, h.alive, h.timer, h.server, fun hmem => ?_, h.events, h.asserts⟩
    rcases List.mem_append.mp hmem with hmem | hmem
    · exact h.visited hmem
    · exact hne (List.mem_singleton.mp hmem).symm

/-- The session is to be shut down: its timer may be any. -/
structure Stopping (s : Session) : Prop where
  state : s.state = .destroying
  alive : s.isDestroying = false
  events : s.destroyEvents = 0
  server : s.serverOk
  visited : ∃ l, s.visited = l ++ [.destroying] ∧ .destroying ∉ l
  asserts : s.assertFailed = false

theorem Live.stopping (h : Live s) : Stopping (s.setState .destroying) := by
  unfold Session.setState
  rw [if_neg (Ne.symm h.state)]
  exact ⟨rfl, h.alive, h.events, h.server, ⟨s.visited, rfl, h.visited⟩, h.asserts⟩

theorem Ending.stopping (h : Ending s) (hd : s.isDestroying = false) : Stopping s := by
  have hevents : s.destroyEvents = 0 := by
    rcases h.timer with ⟨_, _, he⟩ | ⟨hd', _⟩
    · exact he
    · rw [hd] at hd'
      cases hd'
  exact ⟨h.state, hd, hevents, h.server, h.visited, h.asserts⟩

theorem Stopping.scheduleDestroy (h : Stopping s) : Ending s.scheduleDestroy := by
  unfold Session.scheduleDestroy Session.setState
  rw [if_pos h.state.symm]
  exact ⟨h.state, Or.inl ⟨h.alive, rfl, h.events⟩, h.server, h.visited, h.asserts⟩

theorem Stopping.noteStatus (h : Stopping s) (status : Status) : Stopping (s.noteStatus status) := by
  unfold Session.noteStatus
  split
  · exact ⟨h.state, h.alive, h.events, h.server, h.visited, h.asserts⟩
  · exact h

theorem Live.scheduleDestroy (h : Live s) : Ending s.scheduleDestroy := by
  have hsame : s.scheduleDestroy = (s.setState .destroying).scheduleDestroy := by
    unfold Session.scheduleDestroy
    have h : (s.setState .destroying).setState .destroying = s.setState .destroying :=
      if_pos (state_setState s .destroying).symm
    rw [h]
  rw [hsame]
  exact h.stopping.scheduleDestroy

theorem Live.noteStatus (h : Live s) (status : Status) : Live (s.noteStatus status) := by
  unfold Session.noteStatus
  split
  · exact h
  · exact h

theorem state_noteStatus (s : Session) (status : Status) :
    (s.noteStatus status).state = s.state := by
  unfold Session.noteStatus
  split
  · rfl
  · rfl

/-- A live session that is not ready. -/
theorem Live.inv (h : Live s) (hne : s.state ≠ .ready) : Inv s :=
  Or.inl ⟨h, fun hr => absurd hr hne⟩

theorem Live.refreshError (h : Live s) : Ending (s.refreshError 0) := by
  unfold Session.refreshError
  rw [if_pos rfl]
  exact ((h.setState .deallocated nofun).noteStatus _).scheduleDestroy

/-- Releasing the allocation. -/
theorem Live.sendRefresh_zero (h : Live s) (hr : s.state = .ready) : Inv (sendRefresh s 0) := by
  have hsend : Live (s.sendMsg (.refresh 0)).1 := h.untouched (sendMsg_untouched s _)
  unfold sendRefresh
  rw [if_neg (not_not.mpr hr)]
  dsimp only
  rw [if_pos rfl]
  split
  · exact Or.inr hsend.refreshError
  · have hdealloc := hsend.setState .deallocating nofun
    split
    · refine hdealloc.inv ?_
      rw [state_setState]
      exact nofun
    · exact Or.inr hdealloc.refreshError

/-- `sess_shutdown` of a session that has not been shut down. -/
theorem Live.sessShutdown (h : Live s) (status : Status) : Inv (sessShutdown s status) := by
  have hn := h.noteStatus status
  unfold Turn.sessShutdown
  dsimp only
  split
  · rename_i hst
    exact Live.inv hn (by rw [hst]; exact nofun)
  · rename_i hst
    exact Live.inv hn (by rw [hst]; exact nofun)
  · rename_i hst
    exact hn.sendRefresh_zero hst
  · rename_i hst
    exact hn.inv (by rw [hst]; exact nofun)
  · exact Or.inr hn.scheduleDestroy
  · exact Or.inr hn.scheduleDestroy
  · exact Or.inr hn.scheduleDestroy
  · exact Or.inr hn.scheduleDestroy

/-- `sess_shutdown` of a session that is being destroyed. -/
theorem Stopping.sessShutdown (h : Stopping s) (status : Status) :
    Ending (sessShutdown s status) := by
  have hn := h.noteStatus status
  unfold Turn.sessShutdown
  dsimp only
  rw [hn.state]
  exact hn.scheduleDestroy

/-! ## Responses -/

theorem Live.onSessionFail (h : Live s) (allocate : Bool) (status : Status) :
    Inv (onSessionFail s allocate status) := by
  unfold Turn.onSessionFail
  dsimp only
  split
  · exact Live.sessShutdown (Live.setState (s := { s with lastStatus := status }) h .deallocated
      nofun) status
  · rename_i hnext
    have hlast := (not_or.mp hnext).2
    -- The next server is in the list, as this one is not the last one.
    have hlive : Live { s with lastStatus := status, srvAddr := s.srvAddr.map (· + 1) } := by
      refine ⟨h.state, h.alive, h.timer, fun i hi => ?_, h.visited, h.events, h.asserts⟩
      cases hsrv : s.srvAddr with
      | none =>
          rw [show ({ s with lastStatus := status, srvAddr := s.srvAddr.map (· + 1) } : Session).srvAddr
            = s.srvAddr.map (· + 1) from rfl, hsrv] at hi
          cases hi
      | some j =>
          have hj := h.server j hsrv
          change s.srvAddr.map (· + 1) = some i at hi
          change ¬ s.srvAddr.map (· + 1) = some s.srvAddrList.length at hlast
          rw [hi] at hlast
          rw [hsrv] at hi
          cases hi
          have hne : j + 1 ≠ s.srvAddrList.length := fun heq => hlast (congrArg some heq)
          show j + 1 < s.srvAddrList.length
          omega
    refine (hlive.setState .resolved nofun).inv ?_
    rw [state_setState]
    exact nofun

theorem Live.startKeepAlive (h : Live s) : Inv s.startKeepAlive := by
  have hassert : (s.assertFailed || s.timer.id == timerDestroy) = false := by
    rw [h.asserts, Bool.false_or, beq_eq_false_iff_ne]
    rcases h.timer with ht | ht
    · rw [ht]
      decide
    · rw [ht]
      decide
  -- The timer is idle once the keep-alive timer has been cancelled.
  have hidle : (if s.timer.id = timerKeepAlive then s.timer.cancelIfActive timerNone else s.timer) =
      ⟨timerNone, false⟩ := by
    rcases h.timer with ht | ht
    · rw [ht, if_neg (by decide)]
    · rw [ht, if_pos rfl]
      rfl
  have hcancel : (if s.timer.id = timerKeepAlive then
      { s with assertFailed := false, timer := s.timer.cancelIfActive timerNone }
      else { s with assertFailed := false }) =
      { s with assertFailed := false, timer := ⟨timerNone, false⟩ } := by
    split
    · rfl
    · rename_i hid
      rw [if_neg hid] at hidle
      rw [hidle]
  unfold Session.startKeepAlive
  rw [hassert]
  dsimp only
  rw [hcancel]
  split
  · have hlive : Live { s with assertFailed := false, timer := ⟨timerKeepAlive, true⟩ } :=
      ⟨h.state, h.alive, Or.inr rfl, h.server, h.visited, h.events, rfl⟩
    refine Or.inl ⟨hlive.setState .ready nofun, fun _ => Or.inl ?_⟩
    unfold Session.keepsAlive Session.setState
    split
    · rfl
    · rfl
  · rename_i hstate
    refine Live.inv ⟨h.state, h.alive, Or.inl rfl, h.server, h.visited, h.events, rfl⟩ ?_
    intro hr
    change ¬ s.state.beforeDeallocating = true at hstate
    change s.state = .ready at hr
    rw [hr] at hstate
    exact hstate rfl

theorem Live.updateLifetime (h : Live s) (lifetime : UInt32) (now : PjTimeVal) :
    Live (s.updateLifetime lifetime now) := by
  unfold Session.updateLifetime
  split
  · exact h
  · exact h

theorem Live.onAllocateSuccess (h : Live s) (allocate : Bool) (msg : Response) (now : PjTimeVal) :
    Inv (onAllocateSuccess s allocate msg now) := by
  unfold Turn.onAllocateSuccess
  cases msg.lifetime with
  | none => exact h.onSessionFail allocate _
  | some lifetime =>
      dsimp only
      have hlife : Live { s with lifetime := lifetime, expiry := now } := h
      split
      · exact (h.setState .deallocated nofun).sessShutdown _
      · split
        · exact hlife.onSessionFail allocate _
        · have hupd := hlife.updateLifetime lifetime now
          split
          · exact Live.startKeepAlive hupd
          · exact hupd.onSessionFail allocate _

/-- The end of a request that ends the session, when it is passed on: the response to an Allocate or
a Refresh request, and an allocation mismatch. -/
def fatal (req : Request) (c : Completion) : Bool :=
  match req with
  | .allocate | .refresh _ => true
  | .channelBind _ | .createPerm _ =>
      c.accepted.isNone && c.errCode == some scAllocationMismatch

theorem checkMismatch_eq {c : Completion} (h : c.errCode ≠ some scAllocationMismatch) :
    s.checkMismatch c = s := if_neg h

theorem Live.checkMismatch (h : Live s) (hk : Kept s) (c : Completion) :
    Inv (s.checkMismatch c) := by
  unfold Session.checkMismatch
  split
  · exact h.onSessionFail false _
  · exact Or.inl ⟨h, hk⟩

/-- The end of a request keeps the invariant; a Refresh request need not have kept it. -/
theorem Live.onRequestComplete (h : Live s) {req : Request} (hk : req.isRefresh = false → Kept s)
    (c : Completion) (now : PjTimeVal) : Inv (stunOnRequestComplete s req c now) := by
  cases req with
  | allocate =>
      unfold stunOnRequestComplete
      dsimp only
      split
      · refine (h.setState _ ?_).sessShutdown _
        split
        · exact nofun
        · exact nofun
      · cases c.accepted with
        | some response => exact h.onAllocateSuccess true response now
        | none => exact h.onSessionFail true _
  | refresh lifetime =>
      unfold stunOnRequestComplete
      dsimp only
      cases c.accepted with
      | some response => exact h.onAllocateSuccess false response now
      | none => exact h.onSessionFail false _
  | channelBind peer =>
      have hkept := hk rfl
      unfold stunOnRequestComplete
      dsimp only
      cases c.accepted with
      | some response =>
          exact Or.inl ⟨Live.untouched h ⟨rfl, rfl, rfl, rfl, rfl, rfl, rfl, rfl,
            List.Subset.refl _, fun _ => rfl⟩, hkept.untouched ⟨rfl, rfl, rfl, rfl, rfl, rfl, rfl,
            rfl, List.Subset.refl _, fun _ => rfl⟩⟩
      | none => exact h.checkMismatch hkept c
  | createPerm token =>
      have hkept := hk rfl
      have hu := invalidatePerms_untouched s token
      unfold stunOnRequestComplete
      dsimp only
      cases c.accepted with
      | some response => exact Or.inl ⟨h, hkept⟩
      | none => exact (h.untouched hu).checkMismatch (hkept.untouched hu) c

/-- A failed request that is not fatal has met no mismatch. -/
theorem no_mismatch {c : Completion} (hnone : c.accepted = none)
    (hf : (c.accepted.isNone && c.errCode == some scAllocationMismatch) = false) (s : Session) :
    s.checkMismatch c = s := by
  rw [hnone] at hf
  exact checkMismatch_eq (beq_eq_false_iff_ne.mp hf)

/-- A request that does not end the session changes nothing. -/
theorem onRequestComplete_untouched {req : Request} {c : Completion} (hf : fatal req c = false)
    (now : PjTimeVal) : Untouched s (stunOnRequestComplete s req c now) := by
  cases req with
  | allocate => cases hf
  | refresh lifetime => cases hf
  | channelBind peer =>
      unfold stunOnRequestComplete
      dsimp only
      cases hacc : c.accepted with
      | some response =>
          exact ⟨rfl, rfl, rfl, rfl, rfl, rfl, rfl, rfl, List.Subset.refl _, fun _ => rfl⟩
      | none =>
          dsimp only
          rw [no_mismatch hacc hf]
          exact Untouched.refl s
  | createPerm token =>
      unfold stunOnRequestComplete
      dsimp only
      cases hacc : c.accepted with
      | some response => exact Untouched.refl s
      | none =>
          dsimp only
          rw [no_mismatch hacc hf]
          exact invalidatePerms_untouched s token

/-- A request that is gone without an answer: it is dropped, or sending it again fails. -/
def lost (s : Session) (c : Completion) : Bool :=
  match authAction s c with
  | .notify => false
  | .dropped => true
  | .retry _ => s.sends.headD .sent == .failed

/-- A Refresh request or the keep-alive timer remains. -/
def remains (s : Session) (req : Request) : Prop :=
  s.keepsAlive ∨ (s.pending.erase req).any Request.isRefresh = true

theorem refreshing_erase {req : Request} (h : s.refreshing = true) (hne : req.isRefresh = false) :
    (s.pending.erase req).any Request.isRefresh = true := by
  rcases List.any_eq_true.mp h with ⟨r, hmem, hr⟩
  refine List.any_eq_true.mpr ⟨r, ?_, hr⟩
  refine (List.mem_erase_of_ne ?_).mpr hmem
  intro heq
  rw [heq, hne] at hr
  cases hr

/-- The request that ends is taken off the list. -/
def Session.answered (s : Session) (req : Request) (c : Completion) : Session :=
  { s with authRetry := countAuthRetry s c, pending := s.pending.erase req }

theorem nextNonce_untouched (s : Session) (nonce : List UInt8) :
    Untouched s { s with nextNonce := nonce } :=
  ⟨rfl, rfl, rfl, rfl, rfl, rfl, rfl, rfl, List.Subset.refl _, fun _ => rfl⟩

theorem stunTsxOnComplete_eq (s : Session) (req : Request) (c : Completion) (now : PjTimeVal) :
    stunTsxOnComplete s req c now = match authAction s c with
      | .dropped => s.answered req c
      | .retry nonce => ({ s.answered req c with nextNonce := nonce }.sendMsg req).1
      | .notify => stunOnRequestComplete (s.answered req c) req c now := rfl

/-- Sending again is not tried where the request cannot be created. -/
theorem created_of_retry {c : Completion} {nonce : List UInt8} (h : authAction s c = .retry nonce) :
    s.sends.headD .sent ≠ .notCreated := by
  intro hn
  cases c with
  | noResponse status => cases h
  | response r =>
      dsimp only [authAction] at h
      split at h
      · cases h
      · split at h
        · cases h
        · split at h
          · split at h
            · cases h
            · rw [if_pos (Or.inr (Or.inr hn))] at h
              cases h
          · cases h

theorem Live.tsxOnComplete (h : Live s) (hk : Kept s) {req : Request} {c : Completion}
    {now : PjTimeVal}
    (hok : s.state = .ready → req.isRefresh = true → lost s c = true → remains s req) :
    Inv (stunTsxOnComplete s req c now) := by
  have hans : Live (s.answered req c) := h
  have hother : req.isRefresh = false → Kept (s.answered req c) := by
    intro hne hr
    rcases hk hr with hk | hk
    · exact Or.inl hk
    · exact Or.inr (refreshing_erase hk hne)
  -- Without an answer something remains.
  have hlost : lost s c = true → Kept (s.answered req c) := by
    intro hl
    by_cases hreq : req.isRefresh = true
    · exact fun hr => hok hr hreq hl
    · exact hother (Bool.eq_false_iff.mpr hreq)
  rw [stunTsxOnComplete_eq]
  cases ha : authAction s c with
  | notify => exact hans.onRequestComplete hother c now
  | dropped =>
      refine Or.inl ⟨hans, hlost ?_⟩
      unfold lost
      rw [ha]
  | retry nonce =>
      dsimp only
      have hu : Untouched (s.answered req c)
          ({ s.answered req c with nextNonce := nonce }.sendMsg req).1 :=
        (nextNonce_untouched _ nonce).trans (sendMsg_untouched _ req)
      have hcreated := created_of_retry ha
      refine Or.inl ⟨hans.untouched hu, ?_⟩
      by_cases hreq : req.isRefresh = true
      · cases hsend : s.sends.headD .sent with
        | notCreated => exact absurd hsend hcreated
        | failed =>
            refine (hlost ?_).untouched hu
            unfold lost
            rw [ha, hsend]
            rfl
        | sent =>
            have hmem : req ∈ ({ s.answered req c with nextNonce := nonce }.sendMsg req).1.pending :=
              mem_sendMsg h.alive (Or.inl hsend)
            exact fun _ => Or.inr (List.any_eq_true.mpr ⟨req, hmem, hreq⟩)
        | epending =>
            have hmem : req ∈ ({ s.answered req c with nextNonce := nonce }.sendMsg req).1.pending :=
              mem_sendMsg h.alive (Or.inr hsend)
            exact fun _ => Or.inr (List.any_eq_true.mpr ⟨req, hmem, hreq⟩)
      · exact (hother (Bool.eq_false_iff.mpr hreq)).untouched hu

theorem Ending.tsxOnComplete (h : Ending s) {req : Request} {c : Completion} {now : PjTimeVal}
    (hmem : req ∈ s.pending) (hok : authAction s c = .notify → fatal req c = false) :
    Ending (stunTsxOnComplete s req c now) := by
  -- A request is outstanding, so the session has not been destroyed.
  have hans : Ending (s.answered req c) := by
    rcases h.timer with ht | ⟨_, _, _, hnil⟩
    · exact ⟨h.state, Or.inl ht, h.server, h.visited, h.asserts⟩
    · rw [hnil] at hmem
      exact absurd hmem List.not_mem_nil
  rw [stunTsxOnComplete_eq]
  cases ha : authAction s c with
  | notify => exact hans.untouched (onRequestComplete_untouched (hok ha) now)
  | dropped => exact hans
  | retry nonce =>
      have hu : Untouched (s.answered req c)
          ({ s.answered req c with nextNonce := nonce }.sendMsg req).1 :=
        (nextNonce_untouched _ nonce).trans (sendMsg_untouched _ req)
      exact hans.untouched hu

/-! ## Calls of the application and the resolver -/

/-- The server is set by an address that is found, if `pj_getaddrinfo` finds one where it
succeeds. -/
def Server.found (s : Session) : Server → Prop
  | .resolver _ => True
  | .host defaultPort found =>
      s.state = .null → 0 < defaultPort ∧ defaultPort < 65536 → found ≠ some []

/-- Resolved by a list that has an address. -/
theorem Live.resolve (h : Live s) {addrs : List SockAddr} (hne : addrs ≠ []) :
    Live ({ s with srvAddrList := addrs, srvAddr := some 0 }.setState .resolved) := by
  have hlive : Live { s with srvAddrList := addrs, srvAddr := some 0 } := by
    refine ⟨h.state, h.alive, h.timer, fun i hi => ?_, h.visited, h.events, h.asserts⟩
    cases hi
    exact List.length_pos_iff.mpr hne
  exact hlive.setState .resolved nofun

theorem setServer_eq (server : Server) (hst : s.state ≠ .null) :
    turnSessionSetServer s server = s := by
  cases server with
  | resolver started => exact if_pos hst
  | host defaultPort found => exact if_pos hst

theorem Live.setServer (h : Live s) (hk : Kept s) {server : Server} (hok : server.found s) :
    Inv (turnSessionSetServer s server) := by
  by_cases hst : s.state = .null
  · have hres : Live (s.setState .resolving) := h.setState .resolving nofun
    have hready : (s.setState .resolving).state ≠ .ready := by
      rw [state_setState]
      exact nofun
    cases server with
    | resolver started =>
        rw [turnSessionSetServer, if_neg (not_not.mpr hst)]
        dsimp only
        split
        · exact Live.inv hres hready
        · refine (hres.setState .null nofun).inv ?_
          rw [state_setState]
          exact nofun
    | host defaultPort found =>
        rw [turnSessionSetServer, if_neg (not_not.mpr hst)]
        split
        · exact Or.inl ⟨h, hk⟩
        · rename_i hport
          cases found with
          | none => exact hres.inv hready
          | some ai =>
              have hne : ai ≠ [] := fun hnil => hok hst (not_not.mp hport) (congrArg some hnil)
              have htake : ai.take maxDnsSrvCnt ≠ [] := by
                intro hnil
                rcases List.take_eq_nil_iff.mp hnil with hz | hz
                · cases hz
                · exact hne hz
              refine (hres.resolve fun hnil => htake (List.map_eq_nil_iff.mp hnil)).inv ?_
              rw [state_setState]
              exact nofun
  · rw [setServer_eq server hst]
    exact Or.inl ⟨h, hk⟩

theorem Live.allocate (h : Live s) (hst : s.state ≠ .ready) : Inv s.allocate := by
  have hsend := sendMsg_untouched s .allocate
  have hlive := (h.untouched hsend).setState .allocating nofun
  unfold Session.allocate
  dsimp only
  split
  · refine (h.untouched hsend).inv ?_
    rw [hsend.state]
    exact hst
  · split
    · refine hlive.inv ?_
      rw [state_setState]
      exact nofun
    · refine (hlive.setState .resolved nofun).inv ?_
      rw [state_setState]
      exact nofun

theorem Live.alloc (h : Live s) (hk : Kept s) (param : Option AllocParam) :
    Inv (turnSessionAlloc s param) := by
  unfold turnSessionAlloc
  split
  · rename_i hst
    refine Live.inv h ?_
    change s.state ≠ .ready
    rw [hst]
    exact nofun
  · rename_i hst
    refine Live.allocate h ?_
    change s.state ≠ .ready
    rw [hst]
    exact nofun
  · exact Or.inl ⟨h, hk⟩

theorem Live.destroy (h : Live s) (lastErr : Status) : Ending (turnSessionDestroy s lastErr) := by
  have hdealloc := (h.noteStatus lastErr).setState .deallocated nofun
  unfold turnSessionDestroy Turn.sessShutdown
  dsimp only
  rw [state_noteStatus, state_setState]
  exact (hdealloc.noteStatus .success).scheduleDestroy

/-- The answer of the resolver can be used: it has an address, and the session is not being
destroyed. -/
def dnsUsable (s : Session) (record : Option SrvRecord) : Prop :=
  match record, s.pendingDestroy with
  | some record, false => s.state ≠ .destroying ∧ record.addrs ≠ []
  | _, _ => s.isDestroying = false

theorem Ending.stopping_setState (h : Ending s) (hd : s.isDestroying = false) :
    Stopping (s.setState .destroying) := by
  unfold Session.setState
  rw [if_pos h.state.symm]
  exact h.stopping hd

theorem Live.dnsResult (h : Live s) {record : Option SrvRecord} (hok : dnsUsable s record) :
    Inv (dnsSrvResolverCb s record) := by
  unfold dnsSrvResolverCb
  unfold dnsUsable at hok
  split
  · rename_i record hpending
    rw [hpending] at hok
    have hres := h.resolve hok.2
    have hready : ({ s with srvAddrList := record.addrs, srvAddr := some 0 }.setState
        .resolved).state ≠ .ready := by
      rw [state_setState]
      exact nofun
    dsimp only
    split
    · exact hres.alloc (fun hr => absurd hr hready) none
    · exact hres.inv hready
  · exact Or.inr (h.stopping.sessShutdown _)
  · exact Or.inr (h.stopping.sessShutdown _)

theorem Ending.dnsResult (h : Ending s) {record : Option SrvRecord} (hok : dnsUsable s record) :
    Ending (dnsSrvResolverCb s record) := by
  unfold dnsSrvResolverCb
  unfold dnsUsable at hok
  split
  · rename_i record hpending
    rw [hpending] at hok
    exact absurd h.state hok.1
  · exact (h.stopping_setState hok).sessShutdown _
  · rename_i hpending
    rw [hpending] at hok
    exact (h.stopping_setState hok).sessShutdown _

/-! ## The timer -/

theorem sendRefresh_untouched (s : Session) {lifetime : Int} (hne : lifetime ≠ 0) :
    Untouched s (sendRefresh s lifetime) := by
  unfold sendRefresh Session.refreshError
  dsimp only
  rw [if_neg hne, if_neg hne]
  have hsend := sendMsg_untouched s (.refresh lifetime)
  split
  · exact Untouched.refl s
  · split
    · exact hsend
    · split
      · exact hsend
      · exact hsend

/-- A Refresh request that has been sent is outstanding. -/
theorem refreshing_sendRefresh {lifetime : Int} (hne : lifetime ≠ 0) (hr : s.state = .ready)
    (hd : s.isDestroying = false)
    (h : s.sends.headD .sent = .sent ∨ s.sends.headD .sent = .epending) :
    (sendRefresh s lifetime).refreshing = true := by
  have hmem : Request.refresh lifetime ∈ (s.sendMsg (.refresh lifetime)).1.pending :=
    mem_sendMsg hd h
  have hsent : (s.sendMsg (.refresh lifetime)).1.refreshing = true :=
    List.any_eq_true.mpr ⟨_, hmem, rfl⟩
  unfold sendRefresh Session.refreshError
  dsimp only
  rw [if_neg (not_not.mpr hr), if_neg hne, if_neg hne]
  split
  · exact hsent
  · split
    · exact hsent
    · exact hsent

/-- What the keep-alive timer sends beside the Refresh request. -/
theorem refreshAll_untouched (s : Session) (channels : List Channel) (token : Nat)
    (now : PjTimeVal) :
    Untouched s (refreshPermissions (refreshChannels now channels s) token now).1 :=
  (refreshChannels_untouched channels s).trans (refreshPermissions_untouched _ token now)

/-- The lifetime that is asked for. -/
theorem asked_ne_zero (lifetime : Int) : (if lifetime = 0 then -1 else lifetime) ≠ 0 := by
  split
  · decide
  · assumption

/-- The keep-alive timer of a session that has one. If the allocation is due, its Refresh request is
sent. -/
theorem Live.onKeepAlive (h : Live s) (hidle : s.timer = ⟨timerNone, false⟩) {token : Nat}
    {now : PjTimeVal}
    (hok : s.state = .ready → s.expiry.lte now = true →
      s.refreshing = true ∨ s.sends.headD .sent = .sent ∨ s.sends.headD .sent = .epending) :
    Inv (onKeepAlive s token now) := by
  unfold Turn.onKeepAlive
  split
  · dsimp only
    cases hdue : s.expiry.lte now with
    | true =>
        rw [if_pos rfl, if_pos rfl]
        have hask := asked_ne_zero s.allocParam.lifetime
        have hrefresh := sendRefresh_untouched s hask
        have hall := hrefresh.trans (refreshAll_untouched _
          (sendRefresh s (if s.allocParam.lifetime = 0 then -1 else
            s.allocParam.lifetime)).chTable token now)
        refine Or.inl ⟨h.untouched hall, fun hr => Or.inr ?_⟩
        rw [hall.state] at hr
        rcases hok hr hdue with hout | hsent
        · exact refreshing_mono hall.more hout
        · exact refreshing_mono (refreshAll_untouched _ _ token now).more
            (refreshing_sendRefresh hask hr h.alive hsent)
    | false =>
        rw [if_neg Bool.false_ne_true, if_neg Bool.false_ne_true]
        have hall := refreshAll_untouched s s.chTable token now
        have hlive := h.untouched hall
        have htimer : ((refreshPermissions (refreshChannels now s.chTable s) token
            now).1.timer.schedule timerKeepAlive).1 = ⟨timerKeepAlive, true⟩ := by
          rw [hall.timer, hidle]
          rfl
        refine Or.inl ⟨⟨hlive.state, hlive.alive, Or.inr htimer, hlive.server, hlive.visited,
          hlive.events, hlive.asserts⟩, fun _ => Or.inl htimer⟩
  · rename_i hstate
    refine h.inv fun hr => ?_
    rw [hr] at hstate
    exact hstate rfl

/-- The allocation is due when the keep-alive timer of a session that is ready comes: a Refresh
request is outstanding, or the one that is made now is sent. -/
def refreshable (s : Session) (now : PjTimeVal) : Prop :=
  s.keepsAlive → s.state = .ready → s.expiry.lte now = true →
    s.refreshing = true ∨ s.sends.headD .sent = .sent ∨ s.sends.headD .sent = .epending

theorem Live.timerEvent (h : Live s) (hrun : s.timer.running = true) {token : Nat}
    {now : PjTimeVal} (hok : refreshable s now) : Inv (onTimerEvent s token now) := by
  have halive : s.keepsAlive := by
    rcases h.timer with ht | ht
    · rw [ht] at hrun
      cases hrun
    · exact ht
  have hfired : Live { s with timer := { s.timer.fired with id := timerNone } } := by
    refine ⟨h.state, h.alive, Or.inl ?_, h.server, h.visited, h.events, h.asserts⟩
    rfl
  unfold onTimerEvent
  dsimp only
  rw [if_pos (by rw [halive])]
  exact hfired.onKeepAlive rfl fun hr hdue => hok halive hr hdue

theorem Ending.timerEvent (h : Ending s) (hrun : s.timer.running = true) {token : Nat}
    {now : PjTimeVal} : Ending (onTimerEvent s token now) := by
  rcases h.timer with ⟨hd, ht, he⟩ | ⟨_, ht, _⟩
  · unfold onTimerEvent doDestroy
    dsimp only
    rw [ht, if_neg (by decide), if_pos rfl, if_neg (by rw [hd]; exact Bool.false_ne_true)]
    exact ⟨h.state, Or.inr ⟨rfl, rfl, congrArg (· + 1) he, rfl⟩, h.server, h.visited, h.asserts⟩
  · rw [ht] at hrun
    cases hrun

/-! ## Runs -/

/-- A step that does not take one of the ways that go wrong. -/
def EventOk (s : Session) : Event → Prop
  | .setServer server => server.found s
  | .shutdown => s.isDestroying = false
  | .destroy _ => s.state ≠ .destroying
  | .dnsResult record => dnsUsable s record
  | .timer _ now => refreshable s now
  | .complete req c _ => c.discarded = false →
      (s.state = .ready → req.isRefresh = true → lost s c = true → remains s req) ∧
      (s.state = .destroying → authAction s c = .notify → fatal req c = false)
  | .setCredential | .alloc _ | .setPerm _ _ _ _ | .bindChannel _ _ => True

/-- The same, with what sending comes to in the step. -/
def StepOk (s : Session) (e : Event × List Sending) : Prop := EventOk { s with sends := e.2 } e.1

theorem setCredential_untouched (s : Session) : Untouched s { s with longTerm := true } :=
  ⟨rfl, rfl, rfl, rfl, rfl, rfl, rfl, rfl, List.Subset.refl _, fun _ => rfl⟩

/-- One event keeps the invariant. -/
theorem take_inv (h : Inv s) {e : Event} (hok : EventOk s e) {s' : Session}
    (ht : s.take e = .ok s') : Inv s' := by
  cases e with
  | setCredential =>
      cases ht
      exact h.untouched (setCredential_untouched s)
  | setServer server =>
      cases ht
      rcases h with ⟨hl, hk⟩ | he
      · exact hl.setServer hk hok
      · rw [setServer_eq server (by rw [he.state]; exact nofun)]
        exact Or.inr he
  | alloc param =>
      cases ht
      rcases h with ⟨hl, hk⟩ | he
      · exact hl.alloc hk param
      · unfold turnSessionAlloc
        rw [he.state]
        exact Or.inr he
  | setPerm addrs renew token now =>
      dsimp only [Session.take] at ht
      split at ht
      · cases ht
      · cases ht
        exact h.untouched (setPerm_untouched s addrs renew token now)
  | bindChannel peer now =>
      cases ht
      exact h.untouched (bindChannel_untouched s peer now)
  | shutdown =>
      cases ht
      rcases h with ⟨hl, _⟩ | he
      · exact hl.sessShutdown .success
      · exact Or.inr ((he.stopping hok).sessShutdown .success)
  | destroy lastErr =>
      cases ht
      rcases h with ⟨hl, _⟩ | he
      · exact Or.inr (hl.destroy lastErr)
      · exact absurd he.state hok
  | dnsResult record =>
      dsimp only [Session.take] at ht
      split at ht
      · cases ht
        rcases h with ⟨hl, _⟩ | he
        · exact Live.dnsResult (s := { s with dnsPending := false }) hl hok
        · exact Or.inr (Ending.dnsResult (s := { s with dnsPending := false }) he hok)
      · cases ht
  | timer token now =>
      dsimp only [Session.take] at ht
      split at ht
      · rename_i hrun
        cases ht
        rcases h with ⟨hl, _⟩ | he
        · exact hl.timerEvent hrun hok
        · exact Or.inr (he.timerEvent hrun)
      · cases ht
  | complete req c now =>
      dsimp only [Session.take] at ht
      split at ht
      · rename_i hmem
        cases ht
        split
        · exact h
        rename_i hc
        obtain ⟨hlost, hfatal⟩ := hok (Bool.eq_false_iff.mpr hc)
        rcases h with ⟨hl, hk⟩ | he
        · exact hl.tsxOnComplete hk hlost
        · exact Or.inr (he.tsxOnComplete hmem (hfatal he.state))
      · cases ht

theorem turn_step {e : Event × List Sending} (h : Inv s) (hok : StepOk s e) :
    Outcome.Holds Inv (fun _ => True) (turnStep s e) := by
  have hsends : Inv { s with sends := e.2 } := h.untouched (sends_untouched s e.2)
  cases hs : turnStep s e with
  | error f => exact Outcome.Holds.error trivial
  | ok s' => exact Outcome.Holds.ok (take_inv hsends hok hs)

theorem create_inv (ipv6 : Bool) : Inv (turnSessionCreate ipv6) := by
  have hlive : Live (turnSessionCreate ipv6) :=
    ⟨nofun, rfl, Or.inl rfl, nofun, List.not_mem_cons_of_ne_of_not_mem nofun nofun, rfl, rfl⟩
  exact hlive.inv nofun

/-- **The life cycle of a TURN session.** In every state of a run whose steps all are `StepOk`, the
session does what it promises. -/
theorem turn_life_cycle (ipv6 : Bool) (l : List (Event × List Sending)) (t : Session)
    (hm : Meets turnStep StepOk (turnSessionCreate ipv6) l)
    (hrun : run turnStep (turnSessionCreate ipv6) l = .ok t) : Safe t := by
  have h := run_holds (fun _ _ => turn_step) l (turnSessionCreate ipv6) (create_inv ipv6) hm
  rw [hrun] at h
  exact Inv.safe h

/-! ## Concrete runs -/

instance (s : Session) : Decidable s.keepsAlive :=
  inferInstanceAs (Decidable (s.timer = ⟨timerKeepAlive, true⟩))

instance (s : Session) (server : Server) : Decidable (server.found s) :=
  match server with
  | .resolver _ => inferInstanceAs (Decidable True)
  | .host defaultPort found => inferInstanceAs
      (Decidable (s.state = .null → 0 < defaultPort ∧ defaultPort < 65536 → found ≠ some []))

instance (s : Session) (record : Option SrvRecord) : Decidable (dnsUsable s record) := by
  unfold dnsUsable
  split
  · infer_instance
  · infer_instance

instance (s : Session) (now : PjTimeVal) : Decidable (refreshable s now) :=
  inferInstanceAs (Decidable (s.keepsAlive → s.state = .ready → s.expiry.lte now = true →
    s.refreshing = true ∨ s.sends.headD .sent = .sent ∨ s.sends.headD .sent = .epending))

instance (s : Session) (req : Request) : Decidable (remains s req) :=
  inferInstanceAs (Decidable (s.keepsAlive ∨ (s.pending.erase req).any Request.isRefresh = true))

instance (s : Session) (e : Event) : Decidable (EventOk s e) := by
  cases e <;> unfold EventOk <;> infer_instance

instance (s : Session) (e : Event × List Sending) : Decidable (StepOk s e) :=
  inferInstanceAs (Decidable (EventOk _ _))

/-- A server of `192.0.2.1`. -/
def sampleServer : Event :=
  .setServer (.host 3478 (some [.ipv4 (zeroBytes 2) ⟨[192, 0, 2, 1], rfl⟩]))

/-- A success response that allocates for ten minutes. -/
def sampleResponse : Response :=
  ⟨true, none, none, some 600, some (.ipv4 ⟨[0x60, 0], rfl⟩ ⟨[192, 0, 2, 15], rfl⟩), none⟩

/-- A success response without an allocation. -/
def sampleReleased : Response := ⟨true, none, none, some 0, none, none⟩

/-- From the server to `PJ_TURN_STATE_READY`. -/
def sampleReady : List (Event × List Sending) :=
  [(sampleServer, []), (.alloc none, [.sent]), (.complete .allocate (.response sampleResponse) ⟨0, 0⟩,
    [])]

/-- The session is ready, its allocation is renewed and then released, and the session ends. -/
def sampleRun : List (Event × List Sending) :=
  sampleReady ++ [(.timer 1 ⟨15, 0⟩, []), (.timer 2 ⟨540, 0⟩, [.sent]),
    (.complete (.refresh (-1)) (.response sampleResponse) ⟨540, 0⟩, []), (.shutdown, [.sent]),
    (.complete (.refresh 0) (.response sampleReleased) ⟨541, 0⟩, []), (.timer 3 ⟨541, 0⟩, [])]

theorem sampleRun_life_cycle :
    ∃ t, run turnStep (turnSessionCreate false) sampleRun = .ok t ∧ t.destroyEvents = 1 ∧
      Safe t := by
  have hc : checkRun turnStep (fun s e => decide (StepOk s e)) (fun t => t.destroyEvents == 1)
      (turnSessionCreate false) sampleRun = true := by
    decide
  obtain ⟨hm, t, hrun, ht⟩ := checkRun_sound _ _ _ _ _ hc
  refine ⟨t, hrun, beq_iff_eq.mp ht, turn_life_cycle false sampleRun t ?_ hrun⟩
  exact Meets.mono (fun _ _ h => of_decide_eq_true h) _ _ hm

/-- Ways in which a session goes wrong: the keep-alive Refresh request is not sent; the answer to a
Refresh request arrives when the session is being destroyed; the session is destroyed while its
server is resolved; the resolver finds no address. -/
def brokenRuns : List (List (Event × List Sending)) :=
  [sampleReady ++ [(.timer 1 ⟨540, 0⟩, [.failed])],
    sampleReady ++ [(.timer 1 ⟨540, 0⟩, [.sent]), (.shutdown, [.sent]),
      (.complete (.refresh 0) (.response sampleReleased) ⟨541, 0⟩, []),
      (.complete (.refresh (-1)) (.response sampleResponse) ⟨541, 0⟩, [])],
    [(.setServer (.resolver true), []), (.destroy .success, []),
      (.dnsResult (some [(⟨[0x0d, 0x96], rfl⟩, [⟨[192, 0, 2, 1], rfl⟩])]), [])],
    [(.setServer (.resolver true), []), (.dnsResult (some []), [])]]

/-- Something that the session promises fails. -/
def broken (t : Session) : Bool :=
  t.state == .ready && !(decide t.keepsAlive || t.refreshing) ||
    t.visited.dropLast.contains .destroying || t.assertFailed ||
    t.srvAddr.any fun i => decide (t.srvAddrList.length ≤ i)

theorem Safe.not_broken {t : Session} (h : Safe t) : broken t = false := by
  have hkept : (t.state == .ready && !(decide t.keepsAlive || t.refreshing)) = false := by
    rw [Bool.and_eq_false_imp]
    intro hr
    rcases h.kept (beq_iff_eq.mp hr) with hk | hk
    · rw [decide_eq_true hk]
      rfl
    · rw [hk, Bool.or_true]
      rfl
  have hfinal : t.visited.dropLast.contains .destroying = false := by
    rw [Bool.eq_false_iff]
    intro hmem
    rcases List.append_of_mem (List.contains_iff_mem.mp hmem) with ⟨l, l', hl⟩
    -- A state is left after it.
    rcases List.eq_nil_or_concat t.visited with hnil | ⟨m, x, hm⟩
    · rw [hnil] at hl
      cases l <;> cases hl
    · rw [List.concat_eq_append] at hm
      rw [hm, List.dropLast_concat] at hl
      rw [hl, List.append_assoc] at hm
      have := h.final l (l' ++ [x]) hm
      rcases List.append_eq_nil_iff.mp this with ⟨_, hx⟩
      cases hx
  have hserver : (t.srvAddr.any fun i => decide (t.srvAddrList.length ≤ i)) = false := by
    cases hsrv : t.srvAddr with
    | none => rfl
    | some i => exact decide_eq_false (Nat.not_le.mpr (h.server i hsrv))
  unfold broken
  rw [hkept, hfinal, h.asserts, hserver]
  rfl

/-- The session does not always do what it promises. -/
theorem life_cycle_broken :
    brokenRuns ≠ [] ∧
      ∀ l ∈ brokenRuns, ∃ t, run turnStep (turnSessionCreate false) l = .ok t ∧ ¬ Safe t := by
  refine ⟨List.cons_ne_nil _ _, fun l hl => ?_⟩
  have hc : brokenRuns.all (checkRun turnStep (fun _ _ => true) broken (turnSessionCreate false)) =
      true := by
    decide
  obtain ⟨_, t, hrun, ht⟩ := checkRun_sound _ _ _ _ _ (List.all_eq_true.mp hc l hl)
  refine ⟨t, hrun, fun hsafe => ?_⟩
  rw [hsafe.not_broken] at ht
  cases ht

end Turn
