import PjProject.Evsub.Subscription

set_option autoImplicit false

/-! # A refresh that the application rejects

`on_tsx_state_uas` of `pjsip-simple/evsub.c` for an incoming request to refresh the subscription, with
an application that only answers: neither `on_rx_refresh` nor the sending of the response calls the
subscription again. The function runs from its beginning to its end then, and with it stand two fields
that no run of the subscription reads, the name of the state and the milliseconds of `refresh_time`.

The state and its name are saved in front of the callback, and a rejection puts them back. What the
request asked for has been written into `expires` and `refresh_time` before, and stays there.
-/

namespace Evsub

open MachineInt
open Reentry (Conf)

/-! ## The function without call-backs -/

/-- `evsub_state_names`. -/
def evsubStateNames : State → String
  | .null => "NULL"
  | .sent => "SENT"
  | .accepted => "ACCEPTED"
  | .pending => "PENDING"
  | .active => "ACTIVE"
  | .terminated => "TERMINATED"
  | .unknown => "UNKNOWN"

/-- `pjsip_evsub` with the fields that `Sub` leaves out. -/
structure Server where
  world : World
  /-- `state_str`. -/
  stateStr : String
  /-- `refresh_time.msec`. -/
  refreshMsec : Int

/-- The expiration of the request, and `update_expires` at this millisecond. -/
def Server.adoptExpires (r : Report) (msec : Int) (x : Server) : Server :=
  { x with world := Evsub.adoptExpires r x.world, refreshMsec := msec }

/-- The assignments to `state` and `state_str`. -/
def Server.assign (state : State) (name : String) (x : Server) : Server :=
  { x with world := x.world.setSub fun s => { s with state := state }, stateStr := name }

/-- The state while the application is asked. -/
def Server.refreshState (x : Server) : Server :=
  if x.world.sub.expires = 0 then x.assign .terminated (evsubStateNames .terminated)
  else if x.world.sub.state = .null then x.assign .accepted (evsubStateNames .accepted)
  else x

/-- `set_state`. -/
def Server.setState (state : State) (x : Server) : Server :=
  let prev := x.world.sub.state
  let x := x.assign state (evsubStateNames state)
  { x with world := (stateDone prev state x.world).1 }

/-- The end for a response that accepts. -/
def Server.accepted (expires : Int) (x : Server) : Server :=
  let x := if x.world.sub.expires = 0 then x.setState x.world.sub.state
    else if x.world.sub.state = .null then x.setState x.world.sub.state
    else x
  { x with world := (uasSetTimer expires x.world).1 }

/-- `on_tsx_state_uas` for a request to refresh, at this millisecond. -/
def Server.onTsxStateUas (r : Report) (msec : Int) (ret : Ret) (x : Server) : Server :=
  if (x.world.tsx r.tsx).state ≠ .trying then x
  else
    let x := x.adoptExpires r msec
    -- Save old state.
    let oldState := x.world.sub.state
    let oldStateStr := x.stateStr
    let x := x.refreshState
    let stCode := if x.world.sub.user.onRxRefresh && x.world.sub.callCb then finalCode ret.stCode else 200
    if stCode / 100 = 2 then x.accepted x.world.sub.expires
    else x.assign oldState oldStateStr

/-! ## The same function in a run

A piece of code that calls out goes on with the next step, when nothing calls back. -/

variable {w : World} {rest : List (Reentry.Frame Task)}

theorem push_andThen (o : Out) (t : Task) :
    Conf.push (o.andThen t) rest = Conf.push o (.code t :: rest) := by
  simp [Out.andThen, Conf.push]

theorem step_callIf (ret : Ret) (c : Bool) (t : Task) :
    Reentry.step program (Conf.push (callIf c t w) rest) (.resume ret) =
      Conf.push (resume t ret w) rest := by
  cases c with
  | false => rfl
  | true => rfl

/-- The pieces that call nothing. -/
theorem stateDone_frames (prev state : State) (w : World) : (stateDone prev state w).2 = [] := by
  unfold stateDone
  split
  · dsimp only
    split <;> rfl
  · rfl

theorem uasSetTimer_frames (expires : Int) (w : World) : (uasSetTimer expires w).2 = [] := by
  unfold uasSetTimer
  split <;> rfl

/-- `set_state` to its end. -/
theorem run_setState (ret : Ret) (state : State) (t : Task) :
    Reentry.run program (Conf.push (setState state w) (.code t :: rest)) [.resume ret, .resume ret] =
      Conf.push (resume t ret (stateDone w.sub.state state
        (w.setSub fun s => { s with state := state })).1) rest := by
  have hfirst : Reentry.step program (Conf.push (setState state w) (.code t :: rest)) (.resume ret) =
      Conf.push (stateDone w.sub.state state (w.setSub fun s => { s with state := state }))
        (.code t :: rest) := by
    unfold setState
    exact step_callIf _ _ _
  calc Reentry.run program (Conf.push (setState state w) (.code t :: rest)) [.resume ret, .resume ret]
      = Reentry.step program (Conf.push (stateDone w.sub.state state
          (w.setSub fun s => { s with state := state })) (.code t :: rest)) (.resume ret) := by
        rw [← hfirst]
        rfl
    _ = _ := by
        simp only [Conf.push, stateDone_frames]
        rfl

/-- The world of a subscription in which the state has been assigned. -/
theorem world_refreshState (x : Server) :
    x.refreshState.world = x.world.setSub fun s => { s with state := refreshState s } := by
  unfold Server.refreshState refreshState Server.assign
  by_cases hzero : x.world.sub.expires = 0
  · simp [World.setSub, hzero]
  · by_cases hnull : x.world.sub.state = .null
    · simp [World.setSub, hzero, hnull]
    · simp [World.setSub, hzero, hnull]

/-- What stands behind the response, to the end of the function. -/
theorem run_uasRefreshAnswered (ret : Ret) (x : Server) (old : State) (oldStr : String) (stCode : Int) :
    ∃ n, Reentry.run program
        (Conf.push (uasRefreshAnswered old stCode x.world.sub.expires x.world) rest)
        (List.replicate n (.resume ret)) =
      ⟨(if stCode / 100 = 2 then x.accepted x.world.sub.expires else x.assign old oldStr).world,
        rest⟩ := by
  have hquick : ∀ e (v : World), Conf.push (uasSetTimer e v) rest = ⟨(uasSetTimer e v).1, rest⟩ := by
    intro e v
    simp [Conf.push, uasSetTimer_frames]
  unfold uasRefreshAnswered Server.accepted
  by_cases hcode : stCode / 100 = 2
  · rw [if_pos hcode, if_pos hcode]
    by_cases hset : x.world.sub.expires = 0 ∨ x.world.sub.state = .null
    · -- `set_state` calls out, and its end is a step of its own
      refine ⟨2, ?_⟩
      have hcases : ∀ {α : Type} (a b : α), (if x.world.sub.expires = 0 then a
          else if x.world.sub.state = .null then a else b) = a := by
        intro α a b
        rcases hset with h | h <;> simp [h]
      rw [hcases, hcases, push_andThen]
      exact (run_setState ret _ _).trans (hquick _ _)
    · refine ⟨0, ?_⟩
      rw [not_or] at hset
      rw [if_neg hset.1, if_neg hset.2, if_neg hset.1, if_neg hset.2]
      exact hquick _ _
  · rw [if_neg hcode, if_neg hcode]
    exact ⟨0, rfl⟩

/-- **`on_tsx_state_uas` is what the subscription does** with a request to refresh when nothing calls
back: some steps behind the report it has left that world, and the end of the report is next. -/
theorem run_onTsxStateUas (r : Report) (msec : Int) (ret : Ret) (x : Server)
    (hrole : x.world.sub.role = .uas) (hsub : isSubscribe x.world r.tsx = true) :
    ∃ n, Reentry.run program ⟨x.world, .code (.handle r) :: rest⟩ (List.replicate n (.resume ret)) =
      ⟨(x.onTsxStateUas r msec ret).world, .code (.reportEnd r.tsx) :: rest⟩ := by
  have hhandle : Reentry.step program ⟨x.world, .code (.handle r) :: rest⟩ (.resume ret) =
      Conf.push (uasRefresh r x.world) (.code (.reportEnd r.tsx) :: rest) := by
    have hresume : resume (.handle r) ret x.world = (uasRefresh r x.world).andThen (.reportEnd r.tsx) := by
      simp [resume, handle, hrole, onTsxStateUas, hsub]
    rw [← push_andThen, ← hresume]
    rfl
  by_cases htrying : (x.world.tsx r.tsx).state = .trying
  · obtain ⟨y, hy⟩ : ∃ y, y = (x.adoptExpires r msec).refreshState := ⟨_, rfl⟩
    have hworld : y.world = (Evsub.adoptExpires r x.world).setSub
        fun s => { s with state := refreshState s } := by
      rw [hy]
      exact world_refreshState _
    have hstate : (x.adoptExpires r msec).world.sub.state = x.world.sub.state := rfl
    rcases @run_uasRefreshAnswered (.code (.reportEnd r.tsx) :: rest) ret y x.world.sub.state x.stateStr
      (if y.world.sub.user.onRxRefresh && y.world.sub.callCb then finalCode ret.stCode else 200)
      with ⟨n, hn⟩
    refine ⟨n + 3, ?_⟩
    -- the callback, the response, and what stands behind it
    have hasked : uasRefresh r x.world = callIf (y.world.sub.user.onRxRefresh && y.world.sub.callCb)
        (.uasRefreshCode x.world.sub.state (y.world.sub.user.onRxRefresh && y.world.sub.callCb))
        y.world := by
      rw [uasRefresh, if_neg (not_not.mpr htrying), hworld]
      rfl
    rw [List.replicate_succ, List.replicate_succ, List.replicate_succ, Reentry.run, List.foldl_cons,
      List.foldl_cons, List.foldl_cons, hhandle, hasked, step_callIf]
    dsimp only [resume]
    rw [uasRefreshCode, step_callIf]
    refine hn.trans ?_
    rw [Server.onTsxStateUas, if_neg (not_not.mpr htrying)]
    dsimp only
    rw [← hy]
    rfl
  · refine ⟨1, ?_⟩
    rw [List.replicate_succ, List.replicate_zero, Reentry.run, List.foldl_cons, List.foldl_nil, hhandle,
      uasRefresh, if_pos htrying, Server.onTsxStateUas, if_pos htrying]
    rfl

/-! ## What a rejection leaves -/

/-- What the subscription was before. -/
structure Server.Unchanged (x y : Server) : Prop where
  state : y.world.sub.state = x.world.sub.state
  state_str : y.stateStr = x.stateStr
  expires : y.world.sub.expires = x.world.sub.expires
  refresh_time : y.world.sub.refreshTime = x.world.sub.refreshTime ∧ y.refreshMsec = x.refreshMsec
  timer : y.world.sub.timerId = x.world.sub.timerId ∧ y.world.heap = x.world.heap

/-- The function for an answer that does not accept. -/
theorem onTsxStateUas_rejected {r : Report} {msec : Int} {ret : Ret} {x : Server}
    (htrying : (x.world.tsx r.tsx).state = .trying)
    (hasked : (x.world.sub.user.onRxRefresh && x.world.sub.callCb) = true)
    (hcode : finalCode ret.stCode / 100 ≠ 2) :
    x.onTsxStateUas r msec ret =
      { world := Evsub.adoptExpires r x.world, stateStr := x.stateStr, refreshMsec := msec } := by
  have hworld := world_refreshState (x.adoptExpires r msec)
  have hmsec : (x.adoptExpires r msec).refreshState.refreshMsec = msec := by
    unfold Server.refreshState Server.assign
    split
    · rfl
    · split <;> rfl
  rw [Server.onTsxStateUas, if_neg (not_not.mpr htrying)]
  dsimp only
  have hstill : ((x.adoptExpires r msec).refreshState.world.sub.user.onRxRefresh &&
      (x.adoptExpires r msec).refreshState.world.sub.callCb) = true := by
    rw [hworld]
    exact hasked
  rw [if_pos hstill, if_neg hcode, Server.assign, hworld, hmsec]
  rfl

/-- **A rejected refresh changes nothing** exactly if it asks for the expiration that the subscription
has, and the subscription has been refreshed to that in the same millisecond. -/
theorem rejected_unchanged_iff (r : Report) (msec : Int) (ret : Ret) (x : Server)
    (htrying : (x.world.tsx r.tsx).state = .trying)
    (hasked : (x.world.sub.user.onRxRefresh && x.world.sub.callCb) = true)
    (hcode : finalCode ret.stCode / 100 ≠ 2) :
    x.Unchanged (x.onTsxStateUas r msec ret) ↔
      refreshExpires r x.world.sub = x.world.sub.expires ∧
        x.world.sub.refreshTime = x.world.now + uint32 x.world.sub.expires ∧ x.refreshMsec = msec := by
  rw [onTsxStateUas_rejected htrying hasked hcode]
  constructor
  · intro h
    have hexpires : refreshExpires r x.world.sub = x.world.sub.expires := h.expires
    have hsec : x.world.now + uint32 (refreshExpires r x.world.sub) = x.world.sub.refreshTime :=
      h.refresh_time.1
    rw [hexpires] at hsec
    exact ⟨hexpires, hsec.symm, h.refresh_time.2.symm⟩
  · rintro ⟨hexpires, hsec, hmsec⟩
    refine ⟨rfl, rfl, hexpires, ⟨?_, hmsec.symm⟩, rfl, rfl⟩
    calc x.world.now + uint32 (refreshExpires r x.world.sub)
        = x.world.now + uint32 x.world.sub.expires := by rw [hexpires]
      _ = x.world.sub.refreshTime := hsec.symm

/-- An active subscription that was refreshed for 600 seconds at this time, and has its timer. -/
def refreshedAt (now : Int) : Server where
  world :=
    { sub :=
        { role := .uas, user := ⟨true, true, true, true, true, true⟩, callCb := true,
          noEventId := false, pkgExpires := 3600, state := .active, dstState := .null,
          method := .subscribe, expires := 600, refreshTime := now + 600, timerId := .uasTimeout,
          pendingTsx := 1, pendingSub := none }
      now := 1000
      heap := [now + 600]
      tsx := fun _ => ⟨.uas, .subscribe, .trying, 0⟩
      attached := [0]
      destroyed := 0
      asked := []
      fired := []
      granted := none }
  stateStr := "ACTIVE"
  refreshMsec := 250

/-- A request to refresh for this time. -/
def refreshFor (expires : Int) : Report :=
  { tsx := 0, state := .trying, statusCode := 0, isOurs := true, isOther := false, hasPackage := true,
    expires := some expires, subState := none, rand := 0 }

/-- The answer 403. -/
def forbidden : Ret := ⟨true, 403, true⟩

/-- The same expiration, in the same millisecond. -/
theorem rejected_unchanged_again :
    (refreshedAt 1000).Unchanged ((refreshedAt 1000).onTsxStateUas (refreshFor 600) 250 forbidden) :=
  (rejected_unchanged_iff (refreshFor 600) 250 forbidden (refreshedAt 1000) (by decide) (by decide)
    (by decide)).mpr (by decide +kernel)

/-- Sixty seconds are asked for and refused, and the subscription has them; for a request with the old
expiration the time of the refresh is another. -/
theorem not_rejected_unchanged :
    ¬ (refreshedAt 900).Unchanged ((refreshedAt 900).onTsxStateUas (refreshFor 60) 250 forbidden) ∧
      ((refreshedAt 900).onTsxStateUas (refreshFor 60) 250 forbidden).world.sub.expires = 60 ∧
      ((refreshedAt 900).onTsxStateUas (refreshFor 600) 250 forbidden).world.sub.refreshTime = 1600 := by
  have hexpires : ((refreshedAt 900).onTsxStateUas (refreshFor 60) 250 forbidden).world.sub.expires =
      60 := by decide +kernel
  refine ⟨fun h => ?_, hexpires, by decide +kernel⟩
  have hold := h.expires
  rw [hexpires] at hold
  exact absurd hold (by decide)

end Evsub
