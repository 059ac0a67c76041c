import PjProject.Ice.Pointers

set_option autoImplicit false

/-! # Completion

ICE is completed at most once, with success only when every component has a nominated pair, and as
failed only when all checks are done and a component lacks a pair (`Snapshot.Justified`); and a
check that is done changes its state only when `start_nominated_check` starts it again.
`ice_completion` proves this of every run in which a checklist is created once, no response takes
the nomination from the nominated pair of a component, and `start_nominated_check` finds no check
in progress to start again (`completesOk`). The last is not so by itself: where two checks lead
from one transport to one remote candidate, the valid pair of the second one makes it start the
first one, whose request is still under way. Both requests are then answered
(`second_response`).

The invariant is `Flow`: each request under way is the one its check waits for.
-/

namespace Ice

open Machine Outcome

/-! ## The property -/

/-- ICE may be completed as `p.status` says. -/
structure Snapshot.Justified (p : Snapshot) : Prop where
  success : p.status = .success →
    ∀ i < p.comp.length, ∃ v ∈ p.validList, nominatedOfComp p.lcand i v
  done : p.status = .eicefailed → ∀ c ∈ p.clist, c.state.done = true
  noValid : p.status = .eicefailed → p.role = .controlled ∨ p.isNominating = false →
    ∃ i < p.comp.length, ∀ v ∈ p.validList, ¬ ofComp p.lcand i v
  noNominated : p.status = .eicefailed → p.role ≠ .controlled → p.isNominating = true →
    ∃ i < p.comp.length, ∀ v ∈ p.validList, ¬ nominatedOfComp p.lcand i v

/-- ICE has been completed at most once, for a reason, and no check has changed its state after it
was done, but for `start_nominated_check`. -/
structure CompletedOnce (s : Sess) : Prop where
  once : s.completions.length ≤ 1
  iff : s.isComplete = true ↔ s.completions ≠ []
  justified : ∀ p ∈ s.completions, p.Justified ∧ p.status = s.iceStatus
  reopened : s.reopened = false

/-- What is complete stays so. -/
def Stable (s s' : Sess) : Prop :=
  s.isComplete = true →
    s'.isComplete = true ∧ s'.iceStatus = s.iceStatus ∧ s'.completions = s.completions

/-! ## The condition -/

/-- `start_nominated_check` starts no check again that is in progress. -/
def Sess.targetsIdle (s : Sess) : Bool :=
  s.comp.all fun c =>
    match c.validCheck with
    | none => true
    | some k =>
        match s.nominatedTarget (s.validList.getD k default) with
        | none => true
        | some j => (s.clist.getD j default).state != .inProgress

/-- The condition on an operation. -/
def completesOk (s : Sess) : Op → Bool
  | .createCheckList _ => s.clist.isEmpty
  | .timer => s.timer.id != timerStartNominatedCheck || s.targetsIdle
  | .response id (.response srcAddr (some mapped)) =>
      match s.pending.find? fun r => r.id == id with
      | none => true
      | some req =>
          match s.clist[req.ckid]? with
          | none => true
          | some check => (s.rcandOf check).addr != srcAddr ||
              match s.lcand.findIdx? fun c => mapped == c.addr with
              | none => true
              | some j => s.staysNominated check j
  | _ => true

/-! ## The invariant -/

/-- The check of the request waits for it. -/
def Awaits (l : List Check) (r : Request) : Prop :=
  ∃ c, l[r.ckid]? = some c ∧ c.state = .inProgress ∧ c.tdata = some r.id

/-- What every reachable state satisfies. -/
structure Flow (s : Sess) : Prop where
  ptr : PtrInv s
  pending : ∀ r ∈ s.pending, Awaits s.clist r
  reopened : s.reopened = false

/-- ICE has not been completed in between, or it has, for a reason. -/
inductive Completes (s s' : Sess) : Prop where
  | same (isComplete : s'.isComplete = s.isComplete) (iceStatus : s'.iceStatus = s.iceStatus)
      (completions : s'.completions = s.completions)
  | now (p : Snapshot) (before : s.isComplete = false) (isComplete : s'.isComplete = true)
      (iceStatus : s'.iceStatus = p.status) (completions : s'.completions = s.completions ++ [p])
      (justified : p.Justified)

/-- What a function leaves. -/
structure Good (s s' : Sess) : Prop where
  flow : Flow s'
  completes : Completes s s'

variable {s s' : Sess}

theorem Completes.refl (s : Sess) : Completes s s := .same rfl rfl rfl

theorem Completes.trans {s'' : Sess} (h : Completes s s') (h' : Completes s' s'') :
    Completes s s'' := by
  cases h with
  | same h1 h2 h3 =>
      cases h' with
      | same g1 g2 g3 => exact .same (g1.trans h1) (g2.trans h2) (g3.trans h3)
      | now p g0 g1 g2 g3 g4 => exact .now p (h1 ▸ g0) g1 g2 (by rw [g3, h3]) g4
  | now p h0 h1 h2 h3 h4 =>
      cases h' with
      | same g1 g2 g3 => exact .now p h0 (g1.trans h1) (g2.trans h2) (g3.trans h3) h4
      | now p' g0 _ _ _ _ =>
          rw [h1] at g0
          cases g0

theorem Completes.stable (h : Completes s s') : Stable s s' := by
  intro hs
  cases h with
  | same h1 h2 h3 => exact ⟨h1.trans hs, h2, h3⟩
  | now p h0 _ _ _ _ =>
      rw [hs] at h0
      cases h0

theorem Stable.trans {s'' : Sess} (h : Stable s s') (h' : Stable s' s'') : Stable s s'' := by
  intro hs
  have h1 := h hs
  have h2 := h' h1.1
  exact ⟨h2.1, h2.2.1.trans h1.2.1, h2.2.2.trans h1.2.2⟩

theorem Good.refl (h : Flow s) : Good s s := ⟨h, Completes.refl s⟩

theorem Good.trans {s'' : Sess} (h : Good s s') (h' : Good s' s'') : Good s s'' :=
  ⟨h'.flow, h.completes.trans h'.completes⟩

/-! ## Requests and their checks -/

theorem Awaits.modify_ne {l : List Check} {r : Request} (h : Awaits l r) {k : Nat}
    (hne : r.ckid ≠ k) (f : Check → Check) : Awaits (l.modify k f) r := by
  rcases h with ⟨c, hc, hst, ht⟩
  refine ⟨c, ?_, hst, ht⟩
  rw [List.getElem?_modify, hc]
  simp [Ne.symm hne]

/-- A change that leaves checks in progress alone. -/
theorem Awaits.map {l : List Check} {r : Request} (h : Awaits l r) {f : Check → Check}
    (hf : ∀ c, c.state = .inProgress → c.tdata = some r.id → f c = c) : Awaits (l.map f) r := by
  rcases h with ⟨c, hc, hst, ht⟩
  refine ⟨c, ?_, hst, ht⟩
  rw [List.getElem?_map, hc]
  exact congrArg some (hf c hst ht)

/-- A change of the checklist that keeps state and transaction of the checks. -/
theorem Awaits.modify_keep {l : List Check} {r : Request} (h : Awaits l r) (k : Nat)
    {f : Check → Check} (hf : ∀ c, (f c).state = c.state ∧ (f c).tdata = c.tdata) :
    Awaits (l.modify k f) r := by
  rcases h with ⟨c, hc, hst, ht⟩
  rw [Awaits, List.getElem?_modify, hc]
  refine ⟨_, rfl, ?_⟩
  split
  · exact ⟨(hf c).1.trans hst, (hf c).2.trans ht⟩
  · exact ⟨hst, ht⟩

/-- No request is under way for a check that is not in progress. -/
theorem Flow.ckid_ne (h : Flow s) {k : Nat}
    (hk : ∀ c, s.clist[k]? = some c → c.state ≠ .inProgress) : ∀ r ∈ s.pending, r.ckid ≠ k := by
  intro r hr hrk
  rcases h.pending r hr with ⟨c, hc, hst, _⟩
  rw [hrk] at hc
  exact hk c hc hst

/-- Any change of a check without a request under way. -/
theorem Flow.modifyCheck (h : Flow s) {k : Nat} (hk : ∀ r ∈ s.pending, r.ckid ≠ k)
    (f : Check → Check) : Flow (s.modifyCheck k f) :=
  ⟨h.ptr.frame rfl rfl rfl, fun r hr => (h.pending r hr).modify_ne (hk r hr) f, h.reopened⟩

/-- `check_set_state` of a check that is not done, without a request under way. -/
theorem Flow.checkSetState (h : Flow s) {k : Nat} (hk : ∀ r ∈ s.pending, r.ckid ≠ k)
    (hst : (s.clist.getD k default).state.done = false) (st : CheckState) (err : IceStatus) :
    Flow (s.checkSetState k st err) := by
  refine ⟨h.ptr.frame rfl rfl rfl, fun r hr => (h.pending r hr).modify_ne (hk r hr) _, ?_⟩
  unfold Sess.checkSetState
  dsimp only
  rw [h.reopened, hst]
  rfl

theorem getD_modify_self {l : List Check} {k : Nat} (hk : k < l.length) (f : Check → Check) :
    (l.modify k f).getD k default = f (l.getD k default) := by
  rw [List.getD_eq_getElem?_getD, List.getElem?_modify_eq, List.getD_eq_getElem?_getD,
    List.getElem?_eq_getElem hk]
  rfl

/-- **One request for one check**: `perform_check` of a check that waits. -/
theorem Good.performCheck (env : Env) (h : Flow s) {ckid : Nat}
    (hidle : ∀ c, s.clist[ckid]? = some c → c.state.idle = true) (nominate : Bool) :
    Holds (fun r => Good s r.1) AnyFault (performCheck env s ckid nominate) := by
  unfold Ice.performCheck
  split
  · trivial
  · rename_i check hcheck
    have hlt : ckid < s.clist.length := (List.getElem?_eq_some_iff.mp hcheck).1
    have hst := hidle check hcheck
    have hne : ∀ r ∈ s.pending, r.ckid ≠ ckid := h.ckid_ne fun c hc hin => by
      have hi := hidle c hc
      rw [hin] at hi
      cases hi
    refine Holds.bind (holds_findComp s _) fun _ _ => ?_
    dsimp only
    have h1 : Flow { s with nextId := s.nextId + 1 } :=
      ⟨h.ptr.frame rfl rfl rfl, h.pending, h.reopened⟩
    have h2 := h1.modifyCheck hne fun c => { c with nominated := c.nominated ||
      (decide (s.role = .controlling) && nominate) }
    refine Holds.ite (fun _ => Holds.pure ⟨h1, .same rfl rfl rfl⟩) fun _ =>
      Holds.ite (fun _ => Holds.pure ⟨h2.modifyCheck hne _, .same rfl rfl rfl⟩) fun _ =>
        Holds.pure ⟨⟨h.ptr.frame rfl rfl rfl, fun r hr => ?_, ?_⟩, .same rfl rfl rfl⟩
    · rcases List.mem_append.mp hr with hr | hr
      · exact (((h.pending r hr).modify_ne (hne r hr) _).modify_ne (hne r hr) _).modify_ne
          (hne r hr) _
      · rw [List.mem_singleton.mp hr]
        refine ⟨{ check with
          nominated := check.nominated || (decide (s.role = .controlling) && nominate)
          tdata := some s.nextId
          state := .inProgress
          errCode := .success }, ?_, rfl, rfl⟩
        show (((s.clist.modify ckid _).modify ckid _).modify ckid _)[ckid]? = _
        rw [List.getElem?_modify_eq, List.getElem?_modify_eq, List.getElem?_modify_eq, hcheck]
        rfl
    · show (s.reopened || (((s.clist.modify ckid _).modify ckid _).getD ckid default).state.done) = false
      rw [h.reopened, getD_modify_self (by rw [List.length_modify]; exact hlt), getD_modify_self hlt,
        List.getD_eq_getElem?_getD, hcheck]
      show check.state.done = false
      cases hs : check.state with
      | frozen => rfl
      | waiting => rfl
      | inProgress => rfl
      | succeeded | failed =>
          rw [hs] at hst
          cases hst

/-! ## The end of a check -/

theorem Flow.updateStates (h : Flow s) (check : Check) : Flow (s.updateStates check) := by
  have hun : Flow (s.unfreeze check) := by
    refine ⟨h.ptr.frame rfl rfl rfl, fun r hr => (h.pending r hr).map fun c hst _ => ?_, h.reopened⟩
    rw [if_neg]
    rintro ⟨_, hfr⟩
    rw [hst] at hfr
    cases hfr
  have h1 : Flow (if check.errCode = .success then s.unfreeze check else s) := by
    split
    · exact hun
    · exact h
  unfold Sess.updateStates
  dsimp only
  generalize (if check.errCode = .success then s.unfreeze check else s) = s1 at h1 ⊢
  split
  · -- A check in progress is cancelled together with its request.
    refine ⟨h1.ptr.frame rfl rfl rfl, fun r hr => ?_, h1.reopened⟩
    rcases List.mem_filter.mp hr with ⟨hr, hgone⟩
    rcases h1.pending r hr with ⟨c, hc, hst, ht⟩
    refine ⟨c, ?_, hst, ht⟩
    unfold Sess.failOthers
    dsimp only
    rw [List.getElem?_map, hc, Option.map_some]
    rw [if_neg, if_neg]
    · intro hcan
      refine absurd hgone ?_
      rw [Bool.not_eq_true', Bool.not_eq_false]
      refine List.contains_iff_mem.mpr (List.mem_filterMap.mpr ⟨c, ?_, ht⟩)
      exact List.mem_filter.mpr ⟨List.mem_of_getElem? hc, hcan⟩
    · rw [hst, Bool.and_eq_true]
      exact fun hidle => Bool.noConfusion hidle.2
  · exact h1

/-- ICE is completed for a reason. -/
theorem Good.onIceComplete (h : Flow s) {status : IceStatus}
    (hj : (s.snapshot status).Justified) : Good s (onIceComplete s status) := by
  unfold Ice.onIceComplete
  split
  · exact Good.refl h
  · rename_i hc
    refine ⟨⟨h.ptr.frame rfl rfl rfl, h.pending, h.reopened⟩, .now (s.snapshot status) ?_ rfl rfl rfl hj⟩
    exact Bool.eq_false_iff.mpr hc

/-- Every component has a nominated pair when all pointers to one are set. -/
theorem justified_success (h : PtrInv s) (hn : s.allNominated = true) :
    (s.snapshot .success).Justified := by
  refine ⟨fun _ i hi => ?_, nofun, nofun, nofun⟩
  have hi : i < s.comp.length := hi
  have hset := List.all_eq_true.mp hn _ (List.getElem_mem hi)
  rcases Option.isSome_iff_exists.mp hset with ⟨k, hk⟩
  rcases (h.pointers i _ (List.getElem?_eq_getElem hi)).2 k hk with ⟨v, hv, hnom⟩
  exact ⟨v, List.mem_of_getElem? hv, hnom⟩

theorem exists_of_all_false {p : Comp → Bool} {l : List Comp} (h : l.all p = false) :
    ∃ (i : Nat) (c : Comp), l[i]? = some c ∧ p c = false := by
  rcases List.all_eq_false.mp h with ⟨c, hc, hp⟩
  rcases List.mem_iff_getElem?.mp hc with ⟨i, hi⟩
  exact ⟨i, c, hi, Bool.eq_false_iff.mpr hp⟩

/-- A component without a pointer to a valid pair has none. -/
theorem noValid_of_allValid (h : PtrInv s) (hv : s.allValid = false) :
    ∃ i < s.comp.length, ∀ v ∈ s.validList, ¬ ofComp s.lcand i v := by
  rcases exists_of_all_false hv with ⟨i, c, hc, hnone⟩
  refine ⟨i, (List.getElem?_eq_some_iff.mp hc).1, fun v hv hof => ?_⟩
  rcases List.mem_iff_getElem?.mp hv with ⟨j, hj⟩
  rw [(h.isSet j v nofun hj i c hc hof).1] at hnone
  cases hnone

/-- A component without a pointer to a nominated pair has none. -/
theorem noNominated_of_allNominated (h : PtrInv s) (hn : s.allNominated = false) :
    ∃ i < s.comp.length, ∀ v ∈ s.validList, ¬ nominatedOfComp s.lcand i v := by
  rcases exists_of_all_false hn with ⟨i, c, hc, hnone⟩
  refine ⟨i, (List.getElem?_eq_some_iff.mp hc).1, fun v hv hof => ?_⟩
  rcases List.mem_iff_getElem?.mp hv with ⟨j, hj⟩
  rw [(h.isSet j v nofun hj i c hc hof.1).2 hof.2] at hnone
  cases hnone

/-! ## `start_nominated_check` -/

/-- The checks that are to be started again for the components are not in progress. -/
def TargetsIdle (s : Sess) (comps : List Comp) : Prop :=
  ∀ c ∈ comps, ∀ k, c.validCheck = some k → ∀ j,
    s.nominatedTarget (s.validList.getD k default) = some j →
      (s.clist.getD j default).state ≠ .inProgress

theorem targetsIdle_iff : s.targetsIdle = true ↔ TargetsIdle s s.comp := by
  unfold Sess.targetsIdle TargetsIdle
  rw [List.all_eq_true]
  refine forall_congr' fun c => forall_congr' fun _ => ?_
  cases c.validCheck with
  | none => exact ⟨fun _ => nofun, fun _ => rfl⟩
  | some k =>
      dsimp only
      cases ht : s.nominatedTarget (s.validList.getD k default) with
      | none =>
          refine ⟨fun _ k' hk' j hj => ?_, fun _ => rfl⟩
          cases hk'
          rw [ht] at hj
          cases hj
      | some j =>
          dsimp only
          rw [bne_iff_ne]
          constructor
          · intro h k' hk' j' hj'
            cases hk'
            rw [ht] at hj'
            cases hj'
            exact h
          · exact fun h => h k rfl j ht

/-- The target is found by the candidates of the checks. -/
theorem nominatedTarget_congr (hl : s'.lcand = s.lcand)
    (hp : s'.clist.map Check.pair = s.clist.map Check.pair) (vc : Check) :
    s'.nominatedTarget vc = s.nominatedTarget vc := by
  have hmap : ∀ t : Sess, t.nominatedTarget vc = (t.clist.map Check.pair).findIdx? fun p =>
      (t.lcand.getD p.1 default).transportId == (t.lcandOf vc).transportId && p.2 == vc.rcand := by
    intro t
    rw [List.findIdx?_map]
    rfl
  rw [hmap, hmap, hp, hl]
  unfold Sess.lcandOf
  rw [hl]

theorem getD_modify_ne (l : List Check) {j k : Nat} (hjk : j ≠ k) (f : Check → Check) :
    (l.modify j f).getD k default = l.getD k default := by
  rw [List.getD_eq_getElem?_getD, List.getElem?_modify, List.getD_eq_getElem?_getD]
  simp [hjk]

/-- A check starts again. -/
def Sess.restart (s : Sess) (j : Nat) : Sess :=
  (s.modifyCheck j fun c => { c with state := .frozen }).checkSetState j .waiting .success

theorem touch_restart (s : Sess) (j : Nat) : Touch s (s.restart j) := by
  have hmod : Touch s (s.modifyCheck j fun c => { c with state := .frozen }) :=
    touch_modifyCheck s j fun _ => rfl
  exact hmod.trans (touch_checkSetState _ _ _ _)

theorem Flow.restart (h : Flow s) {j : Nat} (hj : j < s.clist.length)
    (hst : (s.clist.getD j default).state ≠ .inProgress) : Flow (s.restart j) := by
  have hne : ∀ r ∈ s.pending, r.ckid ≠ j := h.ckid_ne fun c hc => by
    rw [List.getD_eq_getElem?_getD, hc] at hst
    exact hst
  refine (h.modifyCheck hne _).checkSetState hne ?_ _ _
  show ((s.clist.modify j _).getD j default).state.done = false
  rw [getD_modify_self hj]
  rfl

theorem restart_state {j k : Nat} (hj : j < s.clist.length)
    (hk : (s.clist.getD k default).state ≠ .inProgress) :
    ((s.restart j).clist.getD k default).state ≠ .inProgress := by
  show (((s.clist.modify j _).modify j _).getD k default).state ≠ .inProgress
  by_cases hjk : j = k
  · rw [← hjk, getD_modify_self (by rw [List.length_modify]; exact hj)]
    exact nofun
  · rw [getD_modify_ne _ hjk, getD_modify_ne _ hjk]
    exact hk

theorem Good.nominateLoop (l : List Comp) :
    ∀ s, Flow s → TargetsIdle s l → Holds (Good s) AnyFault (nominateLoop l s) := by
  induction l with
  | nil => exact fun s h _ => Good.refl h
  | cons c l ih =>
      intro s h hidle
      rw [Ice.nominateLoop]
      cases hv : c.validCheck with
      | none => trivial
      | some k =>
          have hrest : TargetsIdle s l := fun d hd => hidle d (List.mem_cons_of_mem c hd)
          dsimp only
          cases ht : s.nominatedTarget (s.validList.getD k default) with
          | none => exact ih s h hrest
          | some j =>
              have hj : j < s.clist.length := (List.findIdx?_eq_some_iff_getElem.mp ht).1
              have hst := hidle c List.mem_cons_self k hv j ht
              have h1 : Good s (s.restart j) := ⟨h.restart hj hst, .same rfl rfl rfl⟩
              refine (ih (s.restart j) h1.flow fun d hd k' hk' j' hj' => ?_).mono fun s' hs' =>
                h1.trans hs'
              have htarget := nominatedTarget_congr (touch_restart s j).lcand
                (touch_restart s j).pairs (s.validList.getD k' default)
              exact restart_state hj (hrest d hd k' hk' j' (htarget.symm.trans hj'))

/-- A change that only reads and sets other fields. -/
theorem Flow.frame (h : Flow s) (hl : s'.lcand = s.lcand) (hv : s'.validList = s.validList)
    (hc : s'.comp = s.comp) (hp : s'.pending = s.pending) (hcl : s'.clist = s.clist)
    (hr : s'.reopened = s.reopened) : Flow s' := by
  refine ⟨h.ptr.frame hl hv hc, ?_, hr.trans h.reopened⟩
  rw [hp, hcl]
  exact h.pending

theorem Good.startNominatedCheck (h : Flow s) (hidle : TargetsIdle s s.comp) :
    Holds (Good s) AnyFault (startNominatedCheck s) := by
  have hfirst : Flow (if s.timer.id = timerStartNominatedCheck then s.cancelTimer else s) := by
    split
    · exact h.frame rfl rfl rfl rfl rfl rfl
    · exact h
  have hc : Completes s (if s.timer.id = timerStartNominatedCheck then s.cancelTimer else s) := by
    split <;> exact .same rfl rfl rfl
  have ht : TargetsIdle (if s.timer.id = timerStartNominatedCheck then s.cancelTimer else s)
      (if s.timer.id = timerStartNominatedCheck then s.cancelTimer else s).comp := by
    split <;> exact hidle
  refine Holds.bind (Good.nominateLoop _ _ hfirst ht) fun s' hs' => Holds.pure ⟨?_, ?_⟩
  · exact hs'.flow.frame rfl rfl rfl rfl rfl rfl
  · exact hc.trans (hs'.completes.trans (.same rfl rfl rfl))

/-! ## `on_check_complete` and the timers -/

theorem targetsIdle_of_allDone (hd : s.allDone = true) (l : List Comp) : TargetsIdle s l := by
  intro c _ k _ j hj
  have hlt : j < s.clist.length := (List.findIdx?_eq_some_iff_getElem.mp hj).1
  have hdone := List.all_eq_true.mp hd _ (List.getElem_mem hlt)
  rw [List.getD_eq_getElem?_getD, List.getElem?_eq_getElem hlt]
  intro hin
  have hin : (s.clist[j]).state = .inProgress := hin
  rw [hin] at hdone
  cases hdone

theorem Good.onAllDone (h : Flow s) (hd : s.allDone = true) (hn : s.allNominated = false) :
    Holds (fun r => Good s r.1) AnyFault (onAllDone s) := by
  have hdone : ∀ c ∈ s.clist, c.state.done = true := List.all_eq_true.mp hd
  have hfail : (s.role = .controlled ∨ s.isNominating = false → s.allValid = false) →
      Good s (Ice.onIceComplete s .eicefailed) := fun hv =>
    Good.onIceComplete h ⟨nofun, fun _ => hdone, fun _ hr => noValid_of_allValid h.ptr (hv hr),
      fun _ _ _ => noNominated_of_allNominated h.ptr hn⟩
  unfold Ice.onAllDone
  split
  · split
    · rename_i hv
      exact hfail fun _ => hv
    · split
      · exact ⟨h.frame rfl rfl rfl rfl rfl rfl, .same rfl rfl rfl⟩
      · exact Good.refl h
  · rename_i hrole
    split
    · rename_i hnom
      refine hfail fun hr => ?_
      rcases hr with hr | hr
      · exact absurd hr hrole
      · rw [hnom] at hr
        cases hr
    · split
      · rename_i hv
        exact hfail fun _ => hv
      · exact Holds.bind (Good.startNominatedCheck h (targetsIdle_of_allDone hd _)) fun s' hs' =>
          Holds.pure hs'

theorem Good.onCheckComplete (h : Flow s) (ckid : Nat) :
    Holds (fun r => Good s r.1) AnyFault (onCheckComplete s ckid) := by
  unfold Ice.onCheckComplete
  split
  · trivial
  · rename_i check _
    have h1 : Good s (s.updateStates check) := by
      refine ⟨h.updateStates check, ?_⟩
      unfold Sess.updateStates
      dsimp only
      split <;> split <;> exact .same rfl rfl rfl
    refine Holds.bind (holds_findComp s _) fun _ _ => ?_
    refine Holds.ite (fun hn => Holds.pure ?_) fun hn => Holds.ite (fun hd => ?_)
      fun _ => Holds.pure (h1.trans ?_)
    · exact h1.trans (Good.onIceComplete h1.flow (justified_success h1.flow.ptr hn))
    · exact (Good.onAllDone h1.flow hd (Bool.eq_false_iff.mpr hn)).mono fun r hr => h1.trans hr
    · unfold onMoreChecks
      split
      · exact ⟨h1.flow.frame rfl rfl rfl rfl rfl rfl, .same rfl rfl rfl⟩
      · exact Good.refl h1.flow

theorem Good.iceKeepAlive (h : Flow s) (sendNow : Bool) :
    Holds (Good s) AnyFault (iceKeepAlive s sendNow) := by
  unfold Ice.iceKeepAlive
  refine Holds.bind (Q := Good s) ?_ fun s' h' => Holds.pure ?_
  · unfold sendIndication
    refine Holds.ite (fun _ => ?_) fun _ => Good.refl h
    split
    · trivial
    · exact ⟨h.frame rfl rfl rfl rfl rfl rfl, .same rfl rfl rfl⟩
  · split
    · exact h'.trans ⟨h'.flow.frame rfl rfl rfl rfl rfl rfl, .same rfl rfl rfl⟩
    · exact h'

theorem Good.onTimer (h : Flow s)
    (hok : s.timer.id = timerStartNominatedCheck → TargetsIdle s s.comp) :
    Holds (Good s) AnyFault (onTimer s) := by
  have h1 : Good s { s with timer := { s.timer.fired with id := timerNone } } :=
    ⟨h.frame rfl rfl rfl rfl rfl rfl, .same rfl rfl rfl⟩
  unfold Ice.onTimer
  dsimp only
  refine Holds.ite (fun _ => ?_) fun _ => Holds.ite (fun _ => ?_)
    fun _ => Holds.ite (fun hid => ?_) fun _ => Holds.ite (fun _ => ?_) fun _ => h1
  · exact h1.trans (Good.onIceComplete h1.flow ⟨nofun, nofun, nofun, nofun⟩)
  · refine Holds.ite (fun _ => ?_) fun _ => h1
    exact (Good.iceKeepAlive h1.flow false).mono fun s' hs' => h1.trans hs'
  · exact (Good.startNominatedCheck h1.flow (hok hid)).mono fun s' hs' => h1.trans hs'
  · exact (Good.iceKeepAlive h1.flow true).mono fun s' hs' => h1.trans hs'

/-! ## Incoming requests -/

theorem Good.triggeredCheck (env : Env) (h : Flow s) (i : Nat) (rcheck : RxCheck) :
    Holds (Good s) AnyFault (triggeredCheck env s i rcheck) := by
  unfold Ice.triggeredCheck
  dsimp only
  have h1 : Good s (s.modifyCheck i fun c =>
      { c with nominated := rcheck.useCandidate || c.nominated }) :=
    ⟨⟨h.ptr.frame rfl rfl rfl, fun r hr => (h.pending r hr).modify_keep i fun _ => ⟨rfl, rfl⟩,
      h.reopened⟩, .same rfl rfl rfl⟩
  generalize s.modifyCheck i (fun c => { c with nominated := rcheck.useCandidate || c.nominated }) =
    s1 at h1 ⊢
  have hperform : (s1.clist.getD i default).state.idle = true → ∀ nominate,
      Holds (fun r => Good s r.1) AnyFault (Ice.performCheck env s1 i nominate) := by
    intro hst nominate
    refine (Good.performCheck env h1.flow (fun c hc => ?_) nominate).mono fun r hr => h1.trans hr
    rw [List.getD_eq_getElem?_getD, hc] at hst
    exact hst
  cases hst : (s1.clist.getD i default).state with
  | frozen | waiting => exact Holds.bind (hperform (by rw [hst]; rfl) _) fun r hr => Holds.pure hr
  | inProgress => exact Holds.pure h1
  | succeeded =>
      refine Holds.bind (nominatePairs_spec h1.flow.ptr _ rcheck) fun s2 hs2 => ?_
      have h2 : Good s1 s2 := by
        rcases hs2.eq with ⟨l, comp, heq⟩
        have hptr := hs2.ptr
        rw [heq] at hptr ⊢
        exact ⟨⟨hptr, h1.flow.pending, h1.flow.reopened⟩, .same rfl rfl rfl⟩
      exact Holds.bind (Good.onCheckComplete h2.flow i) fun r hr =>
        Holds.pure (h1.trans (h2.trans hr))
  | failed => exact Holds.pure h1

/-- A new check has no request under way. -/
theorem Flow.addCheck (h : Flow s) (c : Check) : Flow { s with clist := s.clist ++ [c] } := by
  refine ⟨h.ptr.frame rfl rfl rfl, fun r hr => ?_, h.reopened⟩
  rcases h.pending r hr with ⟨c', hc', hst, ht⟩
  refine ⟨c', ?_, hst, ht⟩
  dsimp only
  rw [List.getElem?_append_left (List.getElem?_eq_some_iff.mp hc').1]
  exact hc'

theorem Good.rcandFor {env : Env} {r : RxCheck} {s1 : Sess} {j : Nat} (h : Flow s)
    (hr : rcandFor env s r = some (s1, j)) : Good s s1 := by
  unfold Ice.rcandFor at hr
  split at hr
  · cases hr
    exact Good.refl h
  · split at hr
    · cases hr
    · cases hr
      exact ⟨h.frame rfl rfl rfl rfl rfl rfl, .same rfl rfl rfl⟩

theorem Good.handleIncomingCheck (env : Env) (h : Flow s) (r : RxCheck) :
    Holds (Good s) AnyFault (handleIncomingCheck env s r) := by
  unfold Ice.handleIncomingCheck
  refine Holds.bind (holds_findComp s _) fun _ _ => ?_
  split
  · exact Holds.pure (Good.refl h)
  · rename_i s1 rcand hr
    have h1 := Good.rcandFor h hr
    split
    · exact Holds.pure h1
    · rename_i lcand _
      split
      · exact (Good.triggeredCheck env h1.flow _ r).mono fun s' hs' => h1.trans hs'
      · refine Holds.ite (fun _ => ?_) fun _ => Holds.pure h1
        dsimp only
        have h2 : Good s { s1 with clist := s1.clist ++
            [s1.newCheck lcand rcand .waiting r.useCandidate] } :=
          h1.trans ⟨h1.flow.addCheck _, .same rfl rfl rfl⟩
        refine Holds.bind (Good.performCheck env h2.flow (fun c hc => ?_) _) fun r' hr' =>
          Holds.pure (h2.trans hr')
        dsimp only at hc
        rw [List.length_append, List.length_singleton, Nat.add_sub_cancel,
          List.getElem?_append_right (Nat.le_refl _), Nat.sub_self] at hc
        cases hc
        rfl

theorem Good.earlyChecks (env : Env) (l : List RxCheck) :
    ∀ s, Flow s → Holds (Good s) AnyFault (earlyChecks env l s) := by
  induction l with
  | nil => exact fun s h => Good.refl h
  | cons r l ih =>
      intro s h
      refine Holds.bind (Good.handleIncomingCheck env h r) fun s' hs' => ?_
      exact (ih s' hs'.flow).mono fun s'' hs'' => hs'.trans hs''

/-! ## The checklist -/

/-- A request under way is for a check in progress, which does not wait. -/
theorem getElem?_startWaiting (s : Sess) (compId : Nat) (l : List Check) :
    ∀ (flist : List (List UInt8)) (k : Nat) (c : Check), l[k]? = some c → c.state = .inProgress →
      (startWaiting s compId flist l)[k]? = some c := by
  induction l with
  | nil => exact fun _ _ _ hc _ => absurd hc nofun
  | cons d l ih =>
      intro flist k c hc hst
      rw [startWaiting]
      cases k with
      | zero =>
          cases hc
          split
          · rw [if_neg (by rw [hst]; exact nofun)]
            rfl
          · rfl
      | succ k =>
          split
          · exact ih _ k c hc hst
          · exact ih _ k c hc hst

theorem Good.startCheck (env : Env) (h : Flow s) :
    Holds (Good s) AnyFault (startCheck env s) := by
  unfold Ice.startCheck
  refine Holds.ite (fun _ => Good.refl h) fun _ => ?_
  dsimp only
  have h1 : Good s (if s.aggressive then { s with isNominating := true } else s) := by
    split
    · exact ⟨h.frame rfl rfl rfl rfl rfl rfl, .same rfl rfl rfl⟩
    · exact Good.refl h
  generalize (if s.aggressive then { s with isNominating := true } else s) = s1 at h1 ⊢
  split
  · exact h1
  · rename_i i _
    have h2 : Good s { s1 with
        clist := s1.clist.take i ++ startWaiting s1 1 [] (s1.clist.drop i) } := by
      refine h1.trans ⟨⟨h1.flow.ptr.frame rfl rfl rfl, fun r hr => ?_, h1.flow.reopened⟩,
        .same rfl rfl rfl⟩
      rcases h1.flow.pending r hr with ⟨c, hc, hst, ht⟩
      refine ⟨c, ?_, hst, ht⟩
      dsimp only
      rw [← List.take_append_drop i s1.clist, List.getElem?_append] at hc
      rw [List.getElem?_append]
      split at hc
      · rw [if_pos (by assumption)]
        exact hc
      · rw [if_neg (by assumption)]
        exact getElem?_startWaiting s1 1 _ _ _ c hc hst
    refine Holds.bind (Good.earlyChecks env _ _ h2.flow) fun s' hs' => Holds.pure (h2.trans ?_)
    exact hs'.trans ⟨hs'.flow.frame rfl rfl rfl rfl rfl rfl, .same rfl rfl rfl⟩

/-- Without requests under way nothing is asked of the checklist. -/
theorem Flow.of_pending_nil (hptr : PtrInv s) (hp : s.pending = []) (hr : s.reopened = false) :
    Flow s := by
  refine ⟨hptr, ?_, hr⟩
  rw [hp]
  exact nofun

theorem Good.withClist (h : Flow s) (hp : s.pending = []) (clist : List Check) :
    Good s (s.withClist clist) :=
  ⟨Flow.of_pending_nil (h.ptr.frame rfl rfl rfl) hp h.reopened, .same rfl rfl rfl⟩

theorem Good.pruned (h : Flow s) (hp : s.pending = []) (highest : Nat) :
    Good s (s.pruned highest) := by
  unfold Sess.pruned
  dsimp only
  split
  · exact Good.withClist h hp _
  · refine ⟨Flow.of_pending_nil ?_ ?_ h.reopened, .same rfl rfl rfl⟩
    · exact (h.ptr.takeComp highest).frame rfl rfl rfl
    · show s.pending.filter _ = []
      rw [hp]
      rfl

theorem Good.createCheckList (h : Flow s) (hempty : s.clist = []) (rcand : List Cand) :
    Good s (createCheckList s rcand) := by
  have hpending : s.pending = [] := by
    refine List.eq_nil_iff_forall_not_mem.mpr fun r hr => ?_
    rcases h.pending r hr with ⟨c, hc, _⟩
    rw [hempty] at hc
    cases hc
  have h1 : Good s (s.saveRcand rcand) :=
    ⟨h.frame rfl rfl rfl rfl rfl rfl, .same rfl rfl rfl⟩
  have hp1 : (s.saveRcand rcand).pending = [] := hpending
  rw [createCheckList_eq]
  split
  · exact Good.refl h
  · dsimp only
    generalize s.saveRcand rcand = s1 at h1 hp1 ⊢
    have h2 : Good s1 (s1.withClist s1.allPairs.1) := Good.withClist h1.flow hp1 _
    split
    · exact h1.trans h2
    · have h3 : Good s1 (s1.withClist s1.allPairs.1).sortClist :=
        h2.trans (Good.withClist h2.flow hp1 _)
      exact h1.trans (h3.trans (Good.pruned h3.flow hp1 _))

/-! ## Responses -/

/-- The check of the request that is answered has no other one under way. -/
theorem Flow.received (h : Flow s) {req : Request} (hreq : req ∈ s.pending) :
    Flow (s.received req) ∧ (∀ r ∈ (s.received req).pending, r.ckid ≠ req.ckid) ∧
      ((s.received req).clist.getD req.ckid default).state.done = false := by
  rcases h.pending req hreq with ⟨c, hc, hst, ht⟩
  have hne : ∀ r ∈ (s.received req).pending, r ∈ s.pending ∧ r.ckid ≠ req.ckid := by
    intro r hr
    rcases List.mem_filter.mp hr with ⟨hr, hid⟩
    refine ⟨hr, fun hk => ?_⟩
    rcases h.pending r hr with ⟨c', hc', _, ht'⟩
    rw [hk, hc] at hc'
    cases hc'
    rw [ht] at ht'
    exact bne_iff_ne.mp hid (Option.some.inj ht').symm
  refine ⟨⟨h.ptr.frame rfl rfl rfl, fun r hr => ?_, h.reopened⟩, fun r hr => (hne r hr).2, ?_⟩
  · exact (h.pending r (hne r hr).1).modify_ne (hne r hr).2 _
  · show ((s.clist.modify req.ckid _).getD req.ckid default).state.done = false
    rw [getD_modify_self (List.getElem?_eq_some_iff.mp hc).1, List.getD_eq_getElem?_getD, hc]
    show c.state.done = false
    rw [hst]
    rfl

theorem Good.failCheck (h : Flow s) {ckid : Nat} (hne : ∀ r ∈ s.pending, r.ckid ≠ ckid)
    (hst : (s.clist.getD ckid default).state.done = false) (err : IceStatus) :
    Holds (Good s) AnyFault (failCheck s ckid err) := by
  have h1 : Good s (s.checkSetState ckid .failed err) :=
    ⟨h.checkSetState hne hst _ _, .same rfl rfl rfl⟩
  exact Holds.bind (Good.onCheckComplete h1.flow ckid) fun r hr => Holds.pure (h1.trans hr)

theorem Good.checkSucceeded (h : Flow s) {ckid : Nat} (hne : ∀ r ∈ s.pending, r.ckid ≠ ckid)
    (hst : (s.clist.getD ckid default).state.done = false) {check : Check} {lcand : Nat}
    (hl : lcand < s.lcand.length) (hstays : s.staysNominated check lcand = true) :
    Holds (Good s) AnyFault (checkSucceeded s ckid check lcand) := by
  rw [checkSucceeded_eq]
  refine Holds.bind (validate_spec h.ptr hl hstays) fun s1 hv => ?_
  have h1 : Good s (s1.checkSetState ckid .succeeded .success) := by
    rcases hv.eq with ⟨l, comp, heq⟩
    have hptr := hv.ptr
    rw [heq] at hptr ⊢
    have h0 : Flow { s with validList := l, comp := comp } := ⟨hptr, h.pending, h.reopened⟩
    exact ⟨h0.checkSetState hne hst _ _, .same rfl rfl rfl⟩
  exact Holds.bind (Good.onCheckComplete h1.flow ckid) fun r hr => Holds.pure (h1.trans hr)

theorem Flow.lcandForMapped (env : Env) (h : Flow s) (check : Check) (transportId : Nat)
    (mapped : Addr) : Good s (lcandForMapped env s check transportId mapped).1 ∧
      (lcandForMapped env s check transportId mapped).1.pending = s.pending := by
  have hptr := h.ptr.lcandForMapped env check transportId mapped
  unfold Ice.lcandForMapped at hptr ⊢
  split
  · exact ⟨Good.refl h, rfl⟩
  · rename_i hnone
    rw [hnone] at hptr
    dsimp only at hptr ⊢
    unfold Ice.addCand at hptr ⊢
    split
    · exact ⟨Good.refl h, rfl⟩
    · split
      · exact ⟨Good.refl h, rfl⟩
      · refine ⟨⟨⟨h.ptr.addLcand _, h.pending, h.reopened⟩, .same rfl rfl rfl⟩, rfl⟩

theorem Good.onStunRequestComplete (env : Env) (h : Flow s) {req : Request}
    (hreq : req ∈ s.pending) {result : TsxResult}
    (hok : ∀ srcAddr mapped check, result = .response srcAddr (some mapped) →
      s.clist[req.ckid]? = some check → (s.rcandOf check).addr = srcAddr →
      ∀ j, s.lcand.findIdx? (fun c => mapped == c.addr) = some j →
        s.staysNominated check j = true) :
    Holds (Good s) AnyFault (onStunRequestComplete env s req result) := by
  rcases h.received hreq with ⟨h1, hne, hst⟩
  have hs1 : Completes s (s.received req) := .same rfl rfl rfl
  have hgood : ∀ {s'}, Good (s.received req) s' → Good s s' := fun hg =>
    ⟨hg.flow, hs1.trans hg.completes⟩
  have hadd : ∀ check mapped, Flow (Ice.lcandForMapped env (s.received req) check req.transportId
      mapped).1 ∧ (∀ r ∈ (Ice.lcandForMapped env (s.received req) check req.transportId
        mapped).1.pending, r.ckid ≠ req.ckid) ∧ ((Ice.lcandForMapped env (s.received req) check
          req.transportId mapped).1.clist.getD req.ckid default).state.done = false := by
    intro check mapped
    rcases h1.lcandForMapped env check req.transportId mapped with ⟨hl, hp⟩
    refine ⟨hl.flow, ?_, ?_⟩
    · rw [hp]
      exact hne
    · rw [lcandForMapped_clist]
      exact hst
  apply holds_onStunRequestComplete
  · intro check hcheck
    have hrole : Flow { s.received req with role := conflictRole req.roleAttr } :=
      h1.frame rfl rfl rfl rfl rfl rfl
    have h2 := hrole.checkSetState hne hst .waiting .success
    have hc2 : Completes s (Sess.checkSetState { s.received req with
        role := conflictRole req.roleAttr } req.ckid .waiting .success) := .same rfl rfl rfl
    refine (Good.performCheck env h2 (fun c hc => ?_) _).mono fun r hr =>
      ⟨hr.flow, hc2.trans hr.completes⟩
    have hc : ((s.received req).clist.modify req.ckid _)[req.ckid]? = some c := hc
    rw [List.getElem?_modify_eq, hcheck] at hc
    cases hc
    rfl
  · exact fun err => (Good.failCheck h1 hne hst err).mono fun s' hs' => hgood hs'
  · intro check mapped err _
    rcases hadd check mapped with ⟨h2, hne2, hst2⟩
    refine (Good.failCheck h2 hne2 hst2 err).mono fun s' hs' => hgood ⟨hs'.flow, ?_⟩
    exact (h1.lcandForMapped env check req.transportId mapped).1.completes.trans hs'.completes
  · intro srcAddr mapped check lcand hr hcheck haddr hl
    rcases hadd check mapped with ⟨h2, hne2, hst2⟩
    rcases getElem?_received hcheck with ⟨check0, hcheck0, hceq⟩
    have hstays := h1.ptr.staysNominated_lcandForMapped env hl fun j hj => by
      rw [hceq] at haddr ⊢
      exact hok srcAddr mapped check0 hr hcheck0 haddr j hj
    refine (Good.checkSucceeded h2 hne2 hst2 (lt_lcandForMapped env hl) hstays).mono fun s' hs' =>
      hgood ⟨hs'.flow, ?_⟩
    exact (h1.lcandForMapped env check req.transportId mapped).1.completes.trans hs'.completes

/-! ## Runs -/

theorem good_step (env : Env) (s : Sess) (op : Op) (h : Flow s) (hok : completesOk s op = true) :
    Holds (Good s) AnyFault (step env s op) := by
  cases op with
  | addCand compId transportId type localPref foundation addr baseAddr =>
      show Good s (addCand s compId transportId type localPref foundation addr baseAddr).1
      unfold addCand
      split
      · exact Good.refl h
      · split
        · exact Good.refl h
        · exact ⟨⟨h.ptr.addLcand _, h.pending, h.reopened⟩, .same rfl rfl rfl⟩
  | createCheckList rcand => exact Good.createCheckList h (List.isEmpty_iff.mp hok) rcand
  | startCheck => exact Good.startCheck env h
  | timer =>
      refine Holds.ite (fun _ => Good.onTimer h fun hid => ?_) fun _ => Good.refl h
      rw [completesOk, hid, bne_self_eq_false, Bool.false_or] at hok
      exact targetsIdle_iff.mp hok
  | periodicTimer =>
      refine Holds.ite (fun _ => ?_) fun _ => Good.refl h
      unfold startPeriodicCheck
      dsimp only
      have h1 : Good s { s with clistTimer := { s.clistTimer.fired with id := 0 } } :=
        ⟨h.frame rfl rfl rfl rfl rfl rfl, .same rfl rfl rfl⟩
      split
      · exact h1
      · rename_i i hi
        refine Holds.bind (Good.performCheck env h1.flow (fun c hc => ?_) _) fun r hr =>
          Holds.pure ?_
        · -- The check that is chosen waits or is frozen.
          have hmem : ∀ st, s.clist.findIdx? (·.state == st) = some i → c.state = st := by
            intro st hst
            rcases List.findIdx?_eq_some_iff_getElem.mp hst with ⟨hlt, hp, _⟩
            rw [List.getElem?_eq_getElem hlt] at hc
            cases hc
            exact beq_iff_eq.mp hp
          rcases Option.or_eq_some_iff.mp hi with hi | ⟨_, hi⟩
          · rw [hmem _ hi]
            rfl
          · rw [hmem _ hi]
            rfl
        · split
          · exact h1.trans (hr.trans ⟨hr.flow.frame rfl rfl rfl rfl rfl rfl, .same rfl rfl rfl⟩)
          · exact h1.trans hr
  | rxRequest rq =>
      show Holds (Good s) AnyFault (onStunRxRequest env s rq)
      unfold onStunRxRequest
      split
      · exact Good.refl h
      · split
        · exact ⟨h.frame rfl rfl rfl rfl rfl rfl, .same rfl rfl rfl⟩
        · rename_i _ priority _ _ role _
          have h1 : Good s { s with role := role } :=
            ⟨h.frame rfl rfl rfl rfl rfl rfl, .same rfl rfl rfl⟩
          refine Holds.ite (fun _ => ⟨h.frame rfl rfl rfl rfl rfl rfl, .same rfl rfl rfl⟩) fun _ => ?_
          exact (Good.handleIncomingCheck env h1.flow ⟨rq.compId, rq.transportId, rq.srcAddr,
            rq.useCandidate, priority⟩).mono fun s' hs' => h1.trans hs'
  | response id result =>
      show Holds (Good s) AnyFault (match s.pending.find? fun r => r.id == id with
        | none => _
        | some req => _)
      cases hfind : s.pending.find? fun r => r.id == id with
      | none => exact Good.refl h
      | some req =>
          refine Good.onStunRequestComplete env h (List.mem_of_find?_eq_some hfind)
            fun srcAddr mapped check hr hc haddr j hj => ?_
          rw [hr, completesOk, hfind] at hok
          dsimp only at hok
          rw [hc] at hok
          dsimp only at hok
          rw [hj, haddr, bne_self_eq_false, Bool.false_or] at hok
          exact hok

/-- What has been completed so far, and the invariant. -/
structure CompletionInv (s : Sess) : Prop where
  flow : Flow s
  once : s.completions.length ≤ 1
  iff : s.isComplete = true ↔ s.completions ≠ []
  justified : ∀ p ∈ s.completions, p.Justified ∧ p.status = s.iceStatus

theorem CompletionInv.completes (h : CompletionInv s) (hg : Good s s') : CompletionInv s' := by
  cases hg.completes with
  | same h1 h2 h3 =>
      refine ⟨hg.flow, ?_, ?_, ?_⟩
      · rw [h3]
        exact h.once
      · rw [h1, h3]
        exact h.iff
      · rw [h2, h3]
        exact h.justified
  | now p h0 h1 h2 h3 hj =>
      have hnil : s.completions = [] := by
        by_contra hne
        rw [h.iff.mpr hne] at h0
        cases h0
      rw [hnil, List.nil_append] at h3
      refine ⟨hg.flow, ?_, ?_, fun q hq => ?_⟩
      · rw [h3]
        exact Nat.le_refl 1
      · rw [h1, h3]
        exact ⟨fun _ => List.cons_ne_nil _ _, fun _ => rfl⟩
      · rw [h3] at hq
        rw [List.mem_singleton.mp hq]
        exact ⟨hj, h2.symm⟩

theorem completionInv_sessCreate (role : Role) (tb n : Nat) (aggressive wantNom : Bool) :
    CompletionInv (sessCreate role tb n aggressive wantNom) :=
  ⟨⟨ptrInv_sessCreate role tb n aggressive wantNom, nofun, rfl⟩, Nat.zero_le 1,
    ⟨nofun, fun h => absurd rfl h⟩, nofun⟩

/-- **Completion.** In a run whose operations meet `completesOk` ICE is completed at most once and
for a reason, checks that are done change their state in `start_nominated_check` only, and what is
complete stays as it is. -/
theorem ice_completion (env : Env) (role : Role) (tb n : Nat) (aggressive wantNom : Bool)
    (ops : List Op)
    (hm : Meets (step env) (fun s op => completesOk s op = true)
      (sessCreate role tb n aggressive wantNom) ops) :
    Holds (fun s => CompletedOnce s ∧ ∀ more,
        Meets (step env) (fun s op => completesOk s op = true) s more →
          Holds (Stable s) AnyFault (run (step env) s more))
      AnyFault (run (step env) (sessCreate role tb n aggressive wantNom) ops) := by
  refine (run_holds (fun s op h hok => (good_step env s op h.flow hok).mono fun s' hg =>
    h.completes hg) ops _ (completionInv_sessCreate role tb n aggressive wantNom) hm).mono
      fun s h => ⟨⟨h.once, h.iff, h.justified, h.flow.reopened⟩, fun more hmore => ?_⟩
  have hstep : ∀ s1 op, Flow s1 ∧ Stable s s1 → completesOk s1 op = true →
      Holds (fun s2 => Flow s2 ∧ Stable s s2) AnyFault (step env s1 op) := fun s1 op h1 hok =>
    (good_step env s1 op h1.1 hok).mono fun s2 hg => ⟨hg.flow, h1.2.trans hg.completes.stable⟩
  exact (run_holds hstep more s ⟨h.flow, fun hs => ⟨hs, rfl, rfl⟩⟩ hmore).mono fun s' h' => h'.2

/-- A controlling session with one component nominates the pair that is valid. -/
def nominatedRun : List Op :=
  [.addCand 1 0 .host 65535 [72] ⟨false, 1, 4000⟩ ⟨false, 1, 4000⟩,
   .createCheckList [plainCand 1 5000], .startCheck, .periodicTimer,
   .response 0 (.response ⟨false, 1, 5000⟩ (some ⟨false, 1, 4000⟩)), .periodicTimer,
   .response 1 (.response ⟨false, 1, 5000⟩ (some ⟨false, 1, 4000⟩)), .timer]

theorem ice_completion_nominated :
    ∃ s, run (step plainEnv) (sessCreate .controlling 5 1 false true) nominatedRun = .ok s ∧
      s.isComplete = true ∧ CompletedOnce s ∧ ∀ more,
        Meets (step plainEnv) (fun s op => completesOk s op = true) s more →
          Holds (Stable s) AnyFault (run (step plainEnv) s more) := by
  have h : checkRun (step plainEnv) completesOk (·.isComplete)
      (sessCreate .controlling 5 1 false true) nominatedRun = true := by
    decide
  rcases checkRun_sound _ _ _ _ _ h with ⟨hm, s, hs, hp⟩
  have hdone := ice_completion plainEnv .controlling 5 1 false true nominatedRun hm
  rw [hs] at hdone
  exact ⟨s, hs, hp, hdone⟩

/-- Two checks lead from the transport 0 to the only remote candidate. The second one succeeds, and
`start_nominated_check` starts the first one again while its request is under way. -/
def restartedRun : List Op :=
  [.addCand 1 0 .host 65535 [72] ⟨false, 1, 4000⟩ ⟨false, 1, 4000⟩,
   .addCand 1 0 .host 65534 [73] ⟨false, 2, 4000⟩ ⟨false, 2, 4000⟩,
   .createCheckList [plainCand 1 5000], .startCheck, .periodicTimer, .periodicTimer,
   .response 1 (.response ⟨false, 1, 5000⟩ (some ⟨false, 2, 4000⟩)), .timer, .periodicTimer,
   .response 0 (.response ⟨false, 1, 5000⟩ (some ⟨false, 1, 4000⟩))]

/-- The second request of the check fails after the first one has succeeded. -/
theorem second_response :
    ∃ s s', run (step plainEnv) (sessCreate .controlling 5 1 false true) restartedRun = .ok s ∧
      s.clist.map (·.state) = [.succeeded, .succeeded] ∧ s.isComplete = true ∧
      step plainEnv s (.response 2 .failed) = .ok s' ∧
      s'.clist.map (·.state) = [.failed, .succeeded] ∧ ¬ CompletedOnce s' := by
  have h : checkRun (step plainEnv) (fun _ _ => true)
      (fun s => decide (s.clist.map (·.state) = [.succeeded, .succeeded]) && s.isComplete &&
        match step plainEnv s (.response 2 .failed) with
        | .error _ => false
        | .ok s' => decide (s'.clist.map (·.state) = [.failed, .succeeded]) && s'.reopened)
      (sessCreate .controlling 5 1 false true) restartedRun = true := by
    decide
  rcases checkRun_sound _ _ _ _ _ h with ⟨-, s, hs, hp⟩
  rw [Bool.and_eq_true, Bool.and_eq_true, decide_eq_true_iff] at hp
  rcases hp with ⟨⟨hst, hc⟩, hp⟩
  cases hs' : step plainEnv s (.response 2 .failed) with
  | error e =>
      rw [hs'] at hp
      cases hp
  | ok s' =>
      rw [hs'] at hp
      dsimp only at hp
      rw [Bool.and_eq_true, decide_eq_true_iff] at hp
      refine ⟨s, s', hs, hst, hc, hs', hp.1, fun hdone => ?_⟩
      rw [hdone.reopened] at hp
      cases hp.2

end Ice
