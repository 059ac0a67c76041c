import PjProject.Ice.Session

set_option autoImplicit false

/-! # What an operation leaves alone

Most functions of the session change the states of checks, timers and flags, and none of the
candidates, the valid list, the pointers of the components or the requests sent. `Touch s s'` says
so once; the theorems of this file show it of the functions up to `on_check_complete` and
`on_timer`. The last sections take two long functions apart: `pj_ice_sess_create_check_list`
(`createCheckList_eq`) and `on_stun_request_complete` (`holds_onStunRequestComplete`).
-/

namespace Ice

open Outcome

/-- Any fault may happen. -/
def AnyFault : Fault → Prop := fun _ => True

/-- The candidates of a check. -/
def Check.pair (c : Check) : Nat × Nat := (c.lcand, c.rcand)

/-- `s'` differs from `s` in the states of checks, timers and flags at most, and transactions may
have ended. -/
structure Touch (s s' : Sess) : Prop where
  role : s'.role = s.role
  tieBreaker : s'.tieBreaker = s.tieBreaker
  conflicts : s'.conflicts = s.conflicts
  sent : s'.sent = s.sent
  nextId : s'.nextId = s.nextId
  lcand : s'.lcand = s.lcand
  rcand : s'.rcand = s.rcand
  rcandCnt : s'.rcandCnt = s.rcandCnt
  validList : s'.validList = s.validList
  comp : s'.comp = s.comp
  pending : ∀ r ∈ s'.pending, r ∈ s.pending
  pairs : s'.clist.map Check.pair = s.clist.map Check.pair

variable {s s' s'' : Sess}

theorem Touch.refl (s : Sess) : Touch s s :=
  ⟨rfl, rfl, rfl, rfl, rfl, rfl, rfl, rfl, rfl, rfl, fun _ h => h, rfl⟩

theorem Touch.trans (h : Touch s s') (h' : Touch s' s'') : Touch s s'' :=
  ⟨h'.role.trans h.role, h'.tieBreaker.trans h.tieBreaker, h'.conflicts.trans h.conflicts,
    h'.sent.trans h.sent, h'.nextId.trans h.nextId, h'.lcand.trans h.lcand, h'.rcand.trans h.rcand,
    h'.rcandCnt.trans h.rcandCnt, h'.validList.trans h.validList, h'.comp.trans h.comp,
    fun r hr => h.pending r (h'.pending r hr), h'.pairs.trans h.pairs⟩

/-- Any change of the checklist that keeps the candidates of the checks. -/
theorem touch_clist (s : Sess) {clist : List Check}
    (h : clist.map Check.pair = s.clist.map Check.pair) : Touch s { s with clist := clist } :=
  ⟨rfl, rfl, rfl, rfl, rfl, rfl, rfl, rfl, rfl, rfl, fun _ h => h, h⟩

/-- Any change of a timer. -/
theorem touch_timer (s : Sess) (timer clistTimer : Timer.Entry) :
    Touch s { s with timer := timer, clistTimer := clistTimer } :=
  ⟨rfl, rfl, rfl, rfl, rfl, rfl, rfl, rfl, rfl, rfl, fun _ h => h, rfl⟩

theorem map_pair_modify (l : List Check) (i : Nat) (f : Check → Check)
    (hf : ∀ c, (f c).pair = c.pair) : (l.modify i f).map Check.pair = l.map Check.pair := by
  apply List.ext_getElem?
  intro j
  rw [List.getElem?_map, List.getElem?_map, List.getElem?_modify]
  split
  · cases l[j]? with
    | none => rfl
    | some c => exact congrArg some (hf c)
  · cases l[j]? <;> rfl

theorem map_pair_map (l : List Check) (f : Check → Check) (hf : ∀ c, (f c).pair = c.pair) :
    (l.map f).map Check.pair = l.map Check.pair := by
  rw [List.map_map]
  exact List.map_congr_left fun c _ => hf c

theorem touch_modifyCheck (s : Sess) (ckid : Nat) {f : Check → Check}
    (hf : ∀ c, (f c).pair = c.pair) : Touch s (s.modifyCheck ckid f) :=
  touch_clist s (map_pair_modify s.clist ckid f hf)

theorem touch_checkSetState (s : Sess) (ckid : Nat) (st : CheckState) (err : IceStatus) :
    Touch s (s.checkSetState ckid st err) :=
  ⟨rfl, rfl, rfl, rfl, rfl, rfl, rfl, rfl, rfl, rfl, fun _ h => h,
    map_pair_modify s.clist ckid _ fun _ => rfl⟩

theorem touch_onIceComplete (s : Sess) (st : IceStatus) : Touch s (onIceComplete s st) := by
  unfold onIceComplete
  split
  · exact Touch.refl s
  · exact ⟨rfl, rfl, rfl, rfl, rfl, rfl, rfl, rfl, rfl, rfl, fun _ h => h, rfl⟩

theorem touch_nominateLoop (l : List Comp) :
    ∀ s, Holds (Touch s) AnyFault (nominateLoop l s) := by
  induction l with
  | nil => exact fun s => Touch.refl s
  | cons c l ih =>
      intro s
      rw [nominateLoop]
      cases c.validCheck with
      | none => trivial
      | some k =>
          dsimp only
          split
          · exact ih s
          · rename_i j _
            have hmod : Touch s (s.modifyCheck j fun c => { c with state := .frozen }) :=
              touch_modifyCheck s j fun _ => rfl
            exact (ih _).mono fun s' h => hmod.trans ((touch_checkSetState _ _ _ _).trans h)

theorem touch_startNominatedCheck (s : Sess) :
    Holds (Touch s) AnyFault (startNominatedCheck s) := by
  have hfirst : Touch s (if s.timer.id = timerStartNominatedCheck then s.cancelTimer else s) := by
    split
    · exact touch_timer s _ _
    · exact Touch.refl s
  refine Holds.bind (touch_nominateLoop _ _) fun s' h => Holds.pure ?_
  refine hfirst.trans (h.trans ?_)
  exact ⟨rfl, rfl, rfl, rfl, rfl, rfl, rfl, rfl, rfl, rfl, fun _ h => h, rfl⟩

theorem touch_onAllDone (s : Sess) : Holds (fun r => Touch s r.1) AnyFault (onAllDone s) := by
  unfold onAllDone
  split
  · split
    · exact touch_onIceComplete s _
    · split
      · exact touch_timer s _ _
      · exact Touch.refl s
  · split
    · exact touch_onIceComplete s _
    · split
      · exact touch_onIceComplete s _
      · exact Holds.bind (touch_startNominatedCheck s) fun s' h => Holds.pure h

theorem touch_unfreeze (s : Sess) (check : Check) : Touch s (s.unfreeze check) := by
  refine touch_clist s (map_pair_map _ _ fun c => ?_)
  split <;> rfl

theorem touch_failOthers (s : Sess) (check : Check) : Touch s (s.failOthers check) := by
  refine ⟨rfl, rfl, rfl, rfl, rfl, rfl, rfl, rfl, rfl, rfl, fun r hr => (List.mem_filter.mp hr).1,
    map_pair_map _ _ fun c => ?_⟩
  dsimp only
  split
  · rfl
  · split <;> rfl

theorem touch_updateStates (s : Sess) (check : Check) : Touch s (s.updateStates check) := by
  have hun : Touch s (if check.errCode = .success then s.unfreeze check else s) := by
    split
    · exact touch_unfreeze s check
    · exact Touch.refl s
  unfold Sess.updateStates
  dsimp only
  generalize (if check.errCode = .success then s.unfreeze check else s) = s1 at hun ⊢
  split
  · exact hun.trans (touch_failOthers s1 check)
  · exact hun

theorem touch_onMoreChecks (s : Sess) (check : Check) : Touch s (onMoreChecks s check) := by
  unfold onMoreChecks
  split
  · exact touch_timer s _ _
  · exact Touch.refl _

/-- What `find_comp` returns does not matter here. -/
theorem holds_findComp (s : Sess) (compId : Nat) :
    Holds (fun _ => True) AnyFault (s.findComp compId) := by
  cases s.findComp compId <;> trivial

theorem touch_onCheckComplete (s : Sess) (ckid : Nat) :
    Holds (fun r => Touch s r.1) AnyFault (onCheckComplete s ckid) := by
  unfold onCheckComplete
  split
  · trivial
  · rename_i check _
    have hup := touch_updateStates s check
    refine Holds.bind (holds_findComp s _) fun _ _ => ?_
    refine Holds.ite (fun _ => Holds.pure ?_) fun _ => Holds.ite (fun _ => ?_) fun _ => Holds.pure ?_
    · exact hup.trans (touch_onIceComplete _ _)
    · exact (touch_onAllDone _).mono fun r h => hup.trans h
    · exact hup.trans (touch_onMoreChecks _ check)

theorem touch_failCheck (s : Sess) (ckid : Nat) (err : IceStatus) :
    Holds (Touch s) AnyFault (failCheck s ckid err) :=
  Holds.bind (touch_onCheckComplete _ ckid) fun _ h =>
    Holds.pure ((touch_checkSetState s ckid _ _).trans h)

theorem touch_iceKeepAlive (s : Sess) (sendNow : Bool) :
    Holds (Touch s) AnyFault (iceKeepAlive s sendNow) := by
  unfold iceKeepAlive
  refine Holds.bind (Q := Touch s) ?_ fun s' h => Holds.pure ?_
  · unfold sendIndication
    refine Holds.ite (fun _ => ?_) fun _ => Touch.refl s
    split
    · trivial
    · exact ⟨rfl, rfl, rfl, rfl, rfl, rfl, rfl, rfl, rfl, rfl, fun _ h => h, rfl⟩
  · split
    · exact h.trans (touch_timer s' _ _)
    · exact h

theorem touch_onTimer (s : Sess) : Holds (Touch s) AnyFault (onTimer s) := by
  have hfired : Touch s { s with timer := { s.timer.fired with id := timerNone } } :=
    touch_timer s _ _
  unfold onTimer
  dsimp only
  refine Holds.ite (fun _ => hfired.trans (touch_onIceComplete _ _)) fun _ => Holds.ite (fun _ => ?_)
    fun _ => Holds.ite (fun _ => ?_) fun _ => Holds.ite (fun _ => ?_) fun _ => hfired
  · refine Holds.ite (fun _ => ?_) fun _ => hfired
    exact (touch_iceKeepAlive _ false).mono fun s' h => hfired.trans h
  · exact (touch_startNominatedCheck _).mono fun s' h => hfired.trans h
  · exact (touch_iceKeepAlive _ true).mono fun s' h => hfired.trans h

/-- What `perform_check` leaves alone: it also sends a request. -/
structure Performed (s s' : Sess) : Prop where
  lcand : s'.lcand = s.lcand
  rcand : s'.rcand = s.rcand
  rcandCnt : s'.rcandCnt = s.rcandCnt
  validList : s'.validList = s.validList
  comp : s'.comp = s.comp
  pairs : s'.clist.map Check.pair = s.clist.map Check.pair

theorem Touch.performed (h : Touch s s') : Performed s s' :=
  ⟨h.lcand, h.rcand, h.rcandCnt, h.validList, h.comp, h.pairs⟩

theorem performed_performCheck (env : Env) (s : Sess) (ckid : Nat) (nominate : Bool) :
    Holds (fun r => Performed s r.1) AnyFault (performCheck env s ckid nominate) := by
  unfold performCheck
  split
  · trivial
  · refine Holds.bind (holds_findComp s _) fun _ _ => ?_
    dsimp only
    have hmod : ∀ s1 : Sess, Performed s s1 → ∀ f : Check → Check, (∀ c, (f c).pair = c.pair) →
        Performed s (s1.modifyCheck ckid f) := fun s1 h1 f hf =>
      ⟨h1.lcand, h1.rcand, h1.rcandCnt, h1.validList, h1.comp,
        (map_pair_modify _ _ f hf).trans h1.pairs⟩
    have hnext : Performed s { s with nextId := s.nextId + 1 } := ⟨rfl, rfl, rfl, rfl, rfl, rfl⟩
    have hnom := hmod _ hnext (fun c => { c with nominated := c.nominated ||
      (decide (s.role = .controlling) && nominate) }) fun _ => rfl
    refine Holds.ite (fun _ => Holds.pure hnext) fun _ => Holds.ite (fun _ => Holds.pure ?_)
      fun _ => Holds.pure ?_
    · exact hmod _ hnom (fun c => { c with tdata := none }) fun _ => rfl
    · have hset := hmod _ (hmod _ hnom (fun c => { c with tdata := some s.nextId }) fun _ => rfl)
        (fun c => c.setState .inProgress .success) fun _ => rfl
      exact ⟨rfl, rfl, rfl, rfl, rfl, hset.pairs⟩

/-! ## The parts of `pj_ice_sess_create_check_list` -/

/-- The remote candidates are saved. -/
def Sess.saveRcand (s : Sess) (rcand : List Cand) : Sess :=
  { s with rcand := s.usable rcand ++ s.rcand.drop (s.usable rcand).length
           rcandCnt := (s.usable rcand).length }

/-- The checks of all pairs of candidates. -/
def Sess.allPairs (s : Sess) : List Check × Bool :=
  generateChecks s ((List.range s.lcand.length).flatMap fun i =>
    (List.range s.rcandCnt).map fun j => (i, j)) s.clist

/-- The checklist is another one. -/
def Sess.withClist (s : Sess) (clist : List Check) : Sess := { s with clist := clist }

/-- `prune_checklist` and what follows it in `pj_ice_sess_create_check_list`. -/
def Sess.pruned (s : Sess) (highestComp : Nat) : Sess :=
  let p := replaceSrflx s s.clist
  if !p.2 then s.withClist p.1
  else
    let s := (s.withClist (removeDuplicates s p.1.length p.1)).disableComps highestComp
    { s with clistTimer := { s.clistTimer with id := 0 } }

theorem createCheckList_eq (s : Sess) (rcand : List Cand) :
    createCheckList s rcand =
      if rcand = [] ∨ maxCand < rcand.length + s.rcandCnt then s
      else
        let s1 := s.saveRcand rcand
        if !s1.allPairs.2 || s1.allPairs.1.isEmpty then s1.withClist s1.allPairs.1
        else (s1.withClist s1.allPairs.1).sortClist.pruned
          (((s.usable rcand).map (·.compId)).foldl max 0) := rfl

/-! ## The cases of `on_stun_request_complete` -/

/-- The transaction of the request has ended. -/
def Sess.received (s : Sess) (req : Request) : Sess :=
  Sess.modifyCheck { s with pending := s.pending.filter fun r => r.id != req.id } req.ckid
    fun c => { c with tdata := none }

theorem touch_received (s : Sess) (req : Request) : Touch s (s.received req) :=
  ⟨rfl, rfl, rfl, rfl, rfl, rfl, rfl, rfl, rfl, rfl, fun _ hr => (List.mem_filter.mp hr).1,
    map_pair_modify _ _ _ fun _ => rfl⟩

theorem getElem?_received {req : Request} {check : Check}
    (hc : (s.received req).clist[req.ckid]? = some check) :
    ∃ check0, s.clist[req.ckid]? = some check0 ∧ check = { check0 with tdata := none } := by
  unfold Sess.received Sess.modifyCheck at hc
  dsimp only at hc
  rw [List.getElem?_modify] at hc
  cases h0 : s.clist[req.ckid]? with
  | none =>
      rw [h0] at hc
      cases hc
  | some check0 =>
      rw [h0] at hc
      refine ⟨check0, rfl, ?_⟩
      simpa using hc.symm

theorem lcandForMapped_clist (env : Env) (s : Sess) (check : Check) (transportId : Nat)
    (mapped : Addr) : (lcandForMapped env s check transportId mapped).1.clist = s.clist := by
  unfold lcandForMapped
  split
  · rfl
  · dsimp only
    unfold addCand
    split
    · rfl
    · split <;> rfl

/-- A response is a role conflict, fails the check, or makes it succeed with a local candidate. -/
theorem holds_onStunRequestComplete {Q : Sess → Prop} {env : Env} {req : Request}
    {result : TsxResult}
    (hconflict : ∀ check, (s.received req).clist[req.ckid]? = some check →
      Holds (fun r => Q r.1) AnyFault (performCheck env
        (Sess.checkSetState { s.received req with role := conflictRole req.roleAttr } req.ckid
          .waiting .success) req.ckid (check.nominated || s.isNominating)))
    (hfail : ∀ err, Holds Q AnyFault (failCheck (s.received req) req.ckid err))
    (hadd : ∀ check mapped err, (s.received req).clist[req.ckid]? = some check →
      Holds Q AnyFault (failCheck
        (lcandForMapped env (s.received req) check req.transportId mapped).1 req.ckid err))
    (hsucc : ∀ srcAddr mapped check lcand, result = .response srcAddr (some mapped) →
      (s.received req).clist[req.ckid]? = some check → (s.rcandOf check).addr = srcAddr →
      (lcandForMapped env (s.received req) check req.transportId mapped).2 = .ok lcand →
      Holds Q AnyFault (checkSucceeded
        (lcandForMapped env (s.received req) check req.transportId mapped).1 req.ckid check lcand)) :
    Holds Q AnyFault (onStunRequestComplete env s req result) := by
  unfold onStunRequestComplete
  dsimp only
  rw [← Sess.received]
  cases hcheck : (s.received req).clist[req.ckid]? with
  | none => trivial
  | some check =>
      cases result with
      | roleConflict => exact Holds.bind (hconflict check hcheck) fun r hr => Holds.pure hr
      | failed => exact hfail _
      | response srcAddr mapped =>
          refine Holds.ite (fun _ => hfail _) fun haddr => ?_
          cases mapped with
          | none => exact hfail _
          | some mapped =>
              dsimp only
              split
              · exact hadd check mapped _ hcheck
              · rename_i lcand hl
                exact hsucc srcAddr mapped check lcand rfl hcheck (not_not.mp haddr) hl

end Ice
