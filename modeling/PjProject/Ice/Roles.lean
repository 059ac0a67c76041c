import PjProject.Ice.Frame

set_option autoImplicit false

/-! # Role conflicts

Two sessions with different tie-breakers exchange Binding requests. A request carries the role its
sender had when it was sent; it may be lost, delayed and delivered more than once, and so may the
487 responses to it. `roles_settle`: in every run each side changes its role at most once, the
roles stay complementary once they are, and if both sides start in the same role the only
complementary outcome is that the one with the larger tie-breaker is controlling.

The side with the larger tie-breaker never gives up the controlling role, and the other one never
the controlled role (`Settling`). Everything else follows from this.
-/

namespace Ice

open Machine Outcome

/-! ## What a session sends -/

/-- The role attribute of the requests that a session in the given role sends. -/
def attrOf (role : Role) (tieBreaker : Nat) : RoleAttr := ⟨decide (role = .controlling), tieBreaker⟩

/-- The session `s` has the role and the tie-breaker, has answered the requests `conflicts` with 487,
and has sent the requests `base` and others with its role attribute. Its requests are numbered. -/
structure Speaks (role : Role) (tieBreaker : Nat) (conflicts : List Nat) (base : List Request)
    (s : Sess) : Prop where
  role_eq : s.role = role
  tieBreaker_eq : s.tieBreaker = tieBreaker
  conflicts_eq : s.conflicts = conflicts
  base_mem : ∀ r ∈ base, r ∈ s.sent
  sent : ∀ r ∈ s.sent, r ∈ base ∨ r.roleAttr = attrOf role tieBreaker
  ids : ∀ r ∈ s.sent, r.id < s.nextId
  inj : ∀ r ∈ s.sent, ∀ r' ∈ s.sent, r.id = r'.id → r = r'
  pending : ∀ r ∈ s.pending, r ∈ s.sent

section Sending

variable {role : Role} {tb : Nat} {conflicts : List Nat} {base : List Request} {s s' : Sess}

/-- The fields that `Speaks` looks at are the same, but for transactions that have ended. -/
structure Quiet (s s' : Sess) : Prop where
  role : s'.role = s.role
  tieBreaker : s'.tieBreaker = s.tieBreaker
  conflicts : s'.conflicts = s.conflicts
  sent : s'.sent = s.sent
  nextId : s'.nextId = s.nextId
  pending : ∀ r ∈ s'.pending, r ∈ s.pending

theorem Quiet.refl (s : Sess) : Quiet s s := ⟨rfl, rfl, rfl, rfl, rfl, fun _ h => h⟩

theorem Quiet.trans {s'' : Sess} (h : Quiet s s') (h' : Quiet s' s'') : Quiet s s'' :=
  ⟨h'.role.trans h.role, h'.tieBreaker.trans h.tieBreaker, h'.conflicts.trans h.conflicts,
    h'.sent.trans h.sent, h'.nextId.trans h.nextId, fun r hr => h.pending r (h'.pending r hr)⟩

theorem Speaks.quiet (h : Speaks role tb conflicts base s) (hq : Quiet s s') :
    Speaks role tb conflicts base s' :=
  ⟨hq.role.trans h.role_eq, hq.tieBreaker.trans h.tieBreaker_eq,
    hq.conflicts.trans h.conflicts_eq, by rw [hq.sent]; exact h.base_mem, by rw [hq.sent]; exact h.sent,
    by rw [hq.sent, hq.nextId]; exact h.ids,
    by rw [hq.sent]; exact h.inj, by rw [hq.sent]; exact fun r hr => h.pending r (hq.pending r hr)⟩

theorem Touch.quiet (h : Touch s s') : Quiet s s' :=
  ⟨h.role, h.tieBreaker, h.conflicts, h.sent, h.nextId, h.pending⟩

theorem quiet_modifyCheck (s : Sess) (ckid : Nat) (f : Check → Check) :
    Quiet s (s.modifyCheck ckid f) :=
  ⟨rfl, rfl, rfl, rfl, rfl, fun _ h => h⟩

theorem quiet_updateCompCheck (s : Sess) (compId k : Nat) :
    Holds (Quiet s) AnyFault (updateCompCheck s compId k) := by
  refine Holds.bind (holds_findComp s compId) fun _ _ => ?_
  exact Holds.pure ⟨rfl, rfl, rfl, rfl, rfl, fun _ h => h⟩

/-- A request gets the next number and the role attribute of its sender. -/
theorem Speaks.performCheck (env : Env) (h : Speaks role tb conflicts base s) (ckid : Nat)
    (nominate : Bool) :
    Holds (fun r => Speaks role tb conflicts base r.1) AnyFault (performCheck env s ckid nominate) := by
  unfold Ice.performCheck
  split
  · trivial
  · rename_i check _
    refine Holds.bind (Q := fun _ => True) ?_ fun _ _ => ?_
    · cases s.findComp (s.lcandOf check).compId <;> trivial
    · dsimp only
      have hnext : Speaks role tb conflicts base { s with nextId := s.nextId + 1 } :=
        { h with ids := fun r hr => Nat.lt_succ_of_lt (h.ids r hr) }
      refine Holds.ite (fun _ => Holds.pure hnext) fun _ => Holds.ite (fun _ => Holds.pure ?_)
        fun _ => Holds.pure ?_
      · exact hnext.quiet ((quiet_modifyCheck _ _ _).trans (quiet_modifyCheck _ _ _))
      · -- The new request has a number of its own.
        have hfresh : ∀ r ∈ s.sent, r.id ≠ s.nextId := fun r hr => Nat.ne_of_lt (h.ids r hr)
        refine ⟨h.role_eq, h.tieBreaker_eq, h.conflicts_eq,
          fun r hr => List.mem_append_left _ (h.base_mem r hr), fun r hr => ?_, fun r hr => ?_,
          fun r hr r' hr' hid => ?_, fun r hr => ?_⟩
        · rcases List.mem_append.mp hr with hr | hr
          · exact h.sent r hr
          · rw [List.mem_singleton.mp hr]
            right
            show RoleAttr.mk (decide (s.role = .controlling)) s.tieBreaker = _
            rw [h.role_eq, h.tieBreaker_eq]
            rfl
        · rcases List.mem_append.mp hr with hr | hr
          · exact Nat.lt_succ_of_lt (h.ids r hr)
          · rw [List.mem_singleton.mp hr]
            exact Nat.lt_succ_self _
        · rcases List.mem_append.mp hr with hr | hr
          · rcases List.mem_append.mp hr' with hr' | hr'
            · exact h.inj r hr r' hr' hid
            · rw [List.mem_singleton.mp hr'] at hid
              exact absurd hid (hfresh r hr)
          · rcases List.mem_append.mp hr' with hr' | hr'
            · rw [List.mem_singleton.mp hr] at hid
              exact absurd hid.symm (hfresh r' hr')
            · rw [List.mem_singleton.mp hr, List.mem_singleton.mp hr']
        · rcases List.mem_append.mp hr with hr | hr
          · exact List.mem_append_left _ (h.pending r hr)
          · exact List.mem_append_right _ hr

theorem quiet_nominateValid (c : Check) (fuel : Nat) :
    ∀ j s, Holds (Quiet s) AnyFault (nominateValid c fuel j s) := by
  induction fuel with
  | zero => exact fun j s => Quiet.refl s
  | succ fuel ih =>
      intro j s
      rw [nominateValid]
      dsimp only
      split
      · refine Holds.bind (quiet_updateCompCheck _ _ j) fun s1 h1 => ?_
        refine (ih (j + 1) s1).mono fun s2 h2 => Quiet.trans ?_ (h1.trans h2)
        exact ⟨rfl, rfl, rfl, rfl, rfl, fun _ h => h⟩
      · exact ih (j + 1) s

theorem Speaks.triggeredCheck (env : Env) (h : Speaks role tb conflicts base s) (i : Nat)
    (rcheck : RxCheck) :
    Holds (Speaks role tb conflicts base) AnyFault (triggeredCheck env s i rcheck) := by
  unfold Ice.triggeredCheck
  dsimp only
  have h1 := h.quiet (quiet_modifyCheck s i fun c =>
    { c with nominated := rcheck.useCandidate || c.nominated })
  split
  · exact Holds.bind (h1.performCheck env i _) fun r hr => Holds.pure hr
  · exact Holds.bind (h1.performCheck env i _) fun r hr => Holds.pure hr
  · exact Holds.pure h1
  · refine Holds.bind (Q := Speaks role tb conflicts base) ?_ fun s2 h2 => ?_
    · unfold nominatePairs
      refine Holds.ite (fun _ => ?_) fun _ => h1
      exact (quiet_nominateValid _ _ 0 _).mono fun s' hq => h1.quiet hq
    · exact Holds.bind (touch_onCheckComplete s2 i) fun r hr => Holds.pure (h2.quiet hr.quiet)
  · exact Holds.pure h1

theorem quiet_rcandFor {env : Env} {rcheck : RxCheck} {r : Sess × Nat}
    (h : rcandFor env s rcheck = some r) : Quiet s r.1 := by
  unfold rcandFor at h
  split at h
  · cases h
    exact Quiet.refl s
  · split at h
    · cases h
    · cases h
      exact ⟨rfl, rfl, rfl, rfl, rfl, fun _ h => h⟩

theorem Speaks.handleIncomingCheck (env : Env) (h : Speaks role tb conflicts base s)
    (rcheck : RxCheck) :
    Holds (Speaks role tb conflicts base) AnyFault (handleIncomingCheck env s rcheck) := by
  unfold Ice.handleIncomingCheck
  refine Holds.bind (Q := fun _ => True) ?_ fun _ _ => ?_
  · cases s.findComp rcheck.compId <;> trivial
  · split
    · exact Holds.pure h
    · rename_i s1 rcand hr
      have h1 := h.quiet (quiet_rcandFor hr)
      split
      · exact Holds.pure h1
      · rename_i lcand _
        split
        · exact h1.triggeredCheck env _ rcheck
        · dsimp only
          refine Holds.ite (fun _ => ?_) fun _ => Holds.pure h1
          have h2 : Speaks role tb conflicts base { s1 with clist := s1.clist ++
              [s1.newCheck lcand rcand .waiting rcheck.useCandidate] } :=
            h1.quiet ⟨rfl, rfl, rfl, rfl, rfl, fun _ h => h⟩
          exact Holds.bind (h2.performCheck env _ _) fun r hr => Holds.pure hr

theorem Speaks.earlyChecks (env : Env) (l : List RxCheck) :
    ∀ s, Speaks role tb conflicts base s →
      Holds (Speaks role tb conflicts base) AnyFault (earlyChecks env l s) := by
  induction l with
  | nil => exact fun s h => h
  | cons r l ih => exact fun s h => Holds.bind (h.handleIncomingCheck env r) fun s' h' => ih s' h'

theorem Speaks.startCheck (env : Env) (h : Speaks role tb conflicts base s) :
    Holds (Speaks role tb conflicts base) AnyFault (startCheck env s) := by
  unfold Ice.startCheck
  refine Holds.ite (fun _ => h) fun _ => ?_
  dsimp only
  have h1 : Speaks role tb conflicts base
      (if s.aggressive then { s with isNominating := true } else s) := by
    split
    · exact h.quiet ⟨rfl, rfl, rfl, rfl, rfl, fun _ h => h⟩
    · exact h
  split
  · exact h1
  · refine Holds.bind (Speaks.earlyChecks env _ _ (h1.quiet ⟨rfl, rfl, rfl, rfl, rfl, fun _ h => h⟩))
      fun s' h' => Holds.pure (h'.quiet ⟨rfl, rfl, rfl, rfl, rfl, fun _ h => h⟩)

theorem Speaks.startPeriodicCheck (env : Env) (h : Speaks role tb conflicts base s) :
    Holds (Speaks role tb conflicts base) AnyFault (startPeriodicCheck env s) := by
  unfold Ice.startPeriodicCheck
  dsimp only
  split
  · exact h.quiet ⟨rfl, rfl, rfl, rfl, rfl, fun _ h => h⟩
  · have h1 : Speaks role tb conflicts base { s with clistTimer := { s.clistTimer with id := 0 } } :=
      h.quiet ⟨rfl, rfl, rfl, rfl, rfl, fun _ h => h⟩
    refine Holds.bind (h1.performCheck env _ _) fun r hr => Holds.pure ?_
    split
    · exact hr.quiet ⟨rfl, rfl, rfl, rfl, rfl, fun _ h => h⟩
    · exact hr

theorem quiet_createCheckList (s : Sess) (rcand : List Cand) : Quiet s (createCheckList s rcand) := by
  unfold createCheckList
  dsimp only
  split
  · exact Quiet.refl s
  · split
    · exact ⟨rfl, rfl, rfl, rfl, rfl, fun _ h => h⟩
    · split
      · exact ⟨rfl, rfl, rfl, rfl, rfl, fun _ h => h⟩
      · exact ⟨rfl, rfl, rfl, rfl, rfl, fun r hr => (List.mem_filter.mp hr).1⟩

theorem quiet_addCand (s : Sess) (compId transportId : Nat) (type : CandType) (localPref : Nat)
    (foundation : List UInt8) (addr baseAddr : Addr) :
    Quiet s (addCand s compId transportId type localPref foundation addr baseAddr).1 := by
  unfold addCand
  split
  · exact Quiet.refl s
  · split
    · exact Quiet.refl s
    · exact ⟨rfl, rfl, rfl, rfl, rfl, fun _ h => h⟩

theorem quiet_checkSucceeded (s : Sess) (ckid : Nat) (check : Check) (lcand : Nat) :
    Holds (Quiet s) AnyFault (checkSucceeded s ckid check lcand) := by
  unfold checkSucceeded
  refine Holds.bind (Q := fun r => Quiet s r.1) ?_ fun r hr => ?_
  · unfold addValid
    split
    · exact ⟨rfl, rfl, rfl, rfl, rfl, fun _ h => h⟩
    · refine Holds.ite (fun _ => trivial) fun _ => ?_
      exact ⟨rfl, rfl, rfl, rfl, rfl, fun _ h => h⟩
  · refine Holds.bind (quiet_updateCompCheck r.1 _ r.2) fun s2 h2 => ?_
    refine Holds.bind (touch_onCheckComplete _ ckid) fun r3 h3 => Holds.pure ?_
    refine hr.trans (h2.trans (Quiet.trans ?_ h3.quiet))
    exact ⟨rfl, rfl, rfl, rfl, rfl, fun _ h => h⟩

/-- A response that is not a role conflict leaves the role alone. -/
theorem Speaks.onStunRequestComplete (env : Env) (h : Speaks role tb conflicts base s)
    (req : Request) {result : TsxResult} (hr : result ≠ .roleConflict) :
    Holds (Speaks role tb conflicts base) AnyFault (onStunRequestComplete env s req result) := by
  have h1 : Speaks role tb conflicts base ({ s with pending := s.pending.filter fun r =>
      r.id != req.id }.modifyCheck req.ckid fun c => { c with tdata := none }) :=
    h.quiet ⟨rfl, rfl, rfl, rfl, rfl, fun r hr => (List.mem_filter.mp hr).1⟩
  unfold Ice.onStunRequestComplete
  dsimp only
  split
  · trivial
  · rename_i check _
    split
    · exact absurd rfl hr
    · exact (touch_failCheck _ _ _).mono fun s' ht => h1.quiet ht.quiet
    · refine Holds.ite (fun _ => (touch_failCheck _ _ _).mono fun s' ht => h1.quiet ht.quiet) fun _ => ?_
      split
      · exact (touch_failCheck _ _ _).mono fun s' ht => h1.quiet ht.quiet
      · rename_i mapped
        generalize hs1 : ({ s with pending := _ } : Sess).modifyCheck _ _ = s1 at h1 ⊢
        have hq : Quiet s1 (lcandForMapped env s1 check req.transportId mapped).1 := by
          unfold lcandForMapped
          split
          · exact Quiet.refl _
          · exact quiet_addCand _ _ _ _ _ _ _ _
        split
        · exact (touch_failCheck _ _ _).mono fun s' ht => h1.quiet (hq.trans ht.quiet)
        · exact (quiet_checkSucceeded _ _ _ _).mono fun s' hq' => h1.quiet (hq.trans hq')

/-- From here on the requests sent so far are the base. -/
theorem Speaks.rebase (h : Speaks role tb conflicts base s) (role' : Role) (conflicts' : List Nat) :
    Speaks role' tb conflicts' s.sent { s with role := role', conflicts := conflicts' } :=
  ⟨rfl, h.tieBreaker_eq, rfl, fun _ hr => hr, fun _ hr => Or.inl hr, h.ids, h.inj, h.pending⟩

end Sending

/-! ## Two sides -/

/-- The requests of a session are numbered, and its transactions are among them. -/
def Numbered (s : Sess) : Prop := Speaks s.role s.tieBreaker s.conflicts s.sent s

/-- An operation that waits for a message of the other side. -/
def Op.isNetwork : Op → Bool
  | .rxRequest _ => true
  | .response _ .roleConflict => true
  | _ => false

/-- What can happen at one side of a pair of sessions: something of its own, such as a timer or a
response that is no conflict, one of the other side's requests is delivered, or one of the other
side's 487 responses. -/
inductive NetOp where
  | own (op : Op)
  | deliver (i compId transportId : Nat) (srcAddr : Addr) (priority : Nat) (useCandidate : Bool)
  | conflict (j : Nat)
  deriving DecidableEq

/-- One step of the session `me` with the other session `peer`. -/
def sideStep (env : Env) (me peer : Sess) : NetOp → Except Fault Sess
  | .own op => if op.isNetwork then .ok me else step env me op
  | .deliver i compId transportId srcAddr priority useCandidate =>
      match peer.sent[i]? with
      | none => .ok me
      | some r =>
          step env me (.rxRequest ⟨r.id, compId, transportId, srcAddr, some priority, useCandidate,
            some r.roleAttr⟩)
  | .conflict j =>
      match peer.conflicts[j]? with
      | none => .ok me
      | some id => step env me (.response id .roleConflict)

/-- Two sessions, and how often each has changed its role. -/
structure Net where
  a : Sess
  b : Sess
  changesA : Nat
  changesB : Nat

/-- One step of the first side (`true`) or of the second one. -/
def netStep (envA envB : Env) (n : Net) (op : Bool × NetOp) : Except Fault Net :=
  if op.1 then do
    let a ← sideStep envA n.a n.b op.2
    return { n with a := a, changesA := n.changesA + if a.role = n.a.role then 0 else 1 }
  else do
    let b ← sideStep envB n.b n.a op.2
    return { n with b := b, changesB := n.changesB + if b.role = n.b.role then 0 else 1 }

/-- One side is controlling and the other one is controlled. -/
def Complementary (n : Net) : Prop :=
  (n.a.role = .controlling ∧ n.b.role = .controlled) ∨
    (n.a.role = .controlled ∧ n.b.role = .controlling)

/-- The invariant of two sessions, of which the first has the larger tie-breaker: it may only have
become controlling, and the second one controlled. -/
structure Settling (roleA roleB : Role) (n : Net) : Prop where
  tie : n.b.tieBreaker < n.a.tieBreaker
  roleA : (n.changesA = 0 ∧ n.a.role = roleA) ∨ (n.changesA = 1 ∧ n.a.role = .controlling)
  roleB : (n.changesB = 0 ∧ n.b.role = roleB) ∨ (n.changesB = 1 ∧ n.b.role = .controlled)
  numA : Numbered n.a
  numB : Numbered n.b
  attrA : ∀ r ∈ n.a.sent, r.roleAttr.tieBreaker = n.a.tieBreaker ∧
    (n.a.role ≠ .controlling → r.roleAttr.controlling = false)
  attrB : ∀ r ∈ n.b.sent, r.roleAttr.tieBreaker = n.b.tieBreaker ∧
    (n.b.role = .controlling → r.roleAttr.controlling = true)
  conflictsA : ∀ id ∈ n.a.conflicts, n.a.role = .controlling ∧
    ∃ r ∈ n.b.sent, r.id = id ∧ r.roleAttr.controlling = true
  conflictsB : ∀ id ∈ n.b.conflicts, n.b.role = .controlled ∧
    ∃ r ∈ n.a.sent, r.id = id ∧ r.roleAttr.controlling = false

variable {env : Env} {s peer : Sess}

/-- An operation that waits for no message keeps the role. -/
theorem own_speaks (h : Numbered s) {op : Op} (hop : op.isNetwork = false) :
    Holds (Speaks s.role s.tieBreaker s.conflicts s.sent) AnyFault (step env s op) := by
  cases op with
  | addCand compId transportId type localPref foundation addr baseAddr =>
      exact Speaks.quiet h (quiet_addCand _ _ _ _ _ _ _ _)
  | createCheckList rcand => exact Speaks.quiet h (quiet_createCheckList s rcand)
  | startCheck => exact Speaks.startCheck env h
  | timer => exact Holds.ite (fun _ => (touch_onTimer s).mono fun _ ht => Speaks.quiet h ht.quiet) fun _ => h
  | periodicTimer =>
      refine Holds.ite (fun _ => ?_) fun _ => h
      exact Speaks.startPeriodicCheck env (Speaks.quiet h ⟨rfl, rfl, rfl, rfl, rfl, fun _ h => h⟩)
  | rxRequest rq => cases hop
  | response id result =>
      rw [step]
      split
      · exact h
      · refine Speaks.onStunRequestComplete env h _ fun hr => ?_
        rw [hr] at hop
        cases hop

/-- A request that is delivered. -/
theorem deliver_speaks (h : Numbered s) (rq : RxRequest) (attr : RoleAttr)
    (hp : rq.priority.isSome = true) (ha : rq.roleAttr = some attr) :
    Holds (fun s' =>
      (resolveConflict s.role s.tieBreaker (some attr) = none ∧
        Speaks s.role s.tieBreaker (s.conflicts ++ [rq.id]) s.sent s') ∨
      ∃ role, resolveConflict s.role s.tieBreaker (some attr) = some role ∧
        Speaks role s.tieBreaker s.conflicts s.sent s') AnyFault (step env s (.rxRequest rq)) := by
  show Holds _ _ (onStunRxRequest env s rq)
  unfold onStunRxRequest
  cases hpr : rq.priority with
  | none =>
      rw [hpr] at hp
      cases hp
  | some priority =>
      dsimp only
      rw [ha]
      cases hres : resolveConflict s.role s.tieBreaker (some attr) with
      | none =>
          refine Holds.ok (Or.inl ⟨rfl, ?_⟩)
          exact h.rebase s.role (s.conflicts ++ [rq.id])
      | some role =>
          have h1 : Speaks role s.tieBreaker s.conflicts s.sent { s with role := role } :=
            h.rebase role s.conflicts
          dsimp only
          refine Holds.ite (fun _ => ?_) fun _ => ?_
          · exact Holds.ok (Or.inr ⟨role, rfl, h1.quiet ⟨rfl, rfl, rfl, rfl, rfl, fun _ h => h⟩⟩)
          · exact (h1.handleIncomingCheck env _).mono fun s' hs' => Or.inr ⟨role, rfl, hs'⟩

/-- A 487 response that is delivered. -/
theorem conflict_speaks (h : Numbered s) (id : Nat) :
    Holds (fun s' => Speaks s.role s.tieBreaker s.conflicts s.sent s' ∨
      ∃ r ∈ s.sent, r.id = id ∧ Speaks (conflictRole r.roleAttr) s.tieBreaker s.conflicts s.sent s')
      AnyFault (step env s (.response id .roleConflict)) := by
  rw [step]
  split
  · exact Holds.ok (Or.inl h)
  · rename_i req hreq
    have hmem : req ∈ s.sent := h.pending req (List.mem_of_find?_eq_some hreq)
    have hid : req.id = id := by simpa using List.find?_some hreq
    unfold onStunRequestComplete
    dsimp only
    split
    · trivial
    · have h1 : Speaks (conflictRole req.roleAttr) s.tieBreaker s.conflicts s.sent
          { s with role := conflictRole req.roleAttr } := h.rebase _ s.conflicts
      refine Holds.bind (Speaks.performCheck env (h1.quiet ?_) _ _) fun r hr => Holds.pure ?_
      · exact ⟨rfl, rfl, rfl, rfl, rfl, fun r hr => (List.mem_filter.mp hr).1⟩
      exact Or.inr ⟨req, hmem, hid, hr⟩

/-- The new requests of a session have its role attribute. -/
theorem Speaks.numbered {role : Role} {tb : Nat} {conflicts : List Nat} {base : List Request}
    (h : Speaks role tb conflicts base s) : Numbered s :=
  ⟨rfl, rfl, rfl, fun _ hr => hr, fun _ hr => Or.inl hr, h.ids, h.inj, h.pending⟩

variable {roleA roleB : Role} {n : Net}

/-- The role of one side after a step: it is the same, or the one that the side settles for, which it
keeps. -/
theorem role_settles {role role' start goal : Role} {changes : Nat}
    (hrole : role' = role ∨ (role' = goal ∧ role ≠ goal))
    (h : (changes = 0 ∧ role = start) ∨ (changes = 1 ∧ role = goal)) :
    ((changes + (if role' = role then 0 else 1) = 0 ∧ role' = start) ∨
      (changes + (if role' = role then 0 else 1) = 1 ∧ role' = goal)) ∧ (role = goal → role' = goal) := by
  rcases hrole with rfl | ⟨rfl, hne⟩
  · rw [if_pos rfl]
    exact ⟨h, id⟩
  · rcases h with ⟨rfl, hstart⟩ | ⟨-, hgoal⟩
    · rw [if_neg (Ne.symm hne)]
      exact ⟨Or.inr ⟨rfl, rfl⟩, fun _ => rfl⟩
    · exact absurd hgoal hne

/-- The first side after a step: its role is the same, or it has become controlling while the other
side is not. -/
theorem Settling.of_speaksA (h : Settling roleA roleB n) {a' : Sess} {role : Role}
    {conflicts : List Nat} (hs : Speaks role n.a.tieBreaker conflicts n.a.sent a')
    (hrole : role = n.a.role ∨ (role = .controlling ∧ n.a.role ≠ .controlling))
    (hconf : ∀ id ∈ conflicts, id ∈ n.a.conflicts ∨ (n.a.role = .controlling ∧
      ∃ r ∈ n.b.sent, r.id = id ∧ r.roleAttr.controlling = true)) :
    Settling roleA roleB
      { n with a := a', changesA := n.changesA + if a'.role = n.a.role then 0 else 1 } := by
  have hr := hs.role_eq
  have ht := hs.tieBreaker_eq
  obtain ⟨hsettled, hkeep⟩ := role_settles (hr ▸ hrole) h.roleA
  refine ⟨by rw [ht]; exact h.tie, hsettled, h.roleB, hs.numbered, h.numB, fun r hmem => ?_, h.attrB,
    fun id hid => ?_, fun id hid => ?_⟩
  · rw [ht]
    rcases hs.sent r hmem with hb | hattr
    · refine ⟨(h.attrA r hb).1, fun hne => (h.attrA r hb).2 fun hc => hne (hkeep hc)⟩
    · rw [hattr]
      refine ⟨rfl, fun hne => ?_⟩
      rw [hr] at hne
      exact decide_eq_false hne
  · rw [hs.conflicts_eq] at hid
    rcases hconf id hid with hold | hnew
    · exact ⟨hkeep (h.conflictsA id hold).1, (h.conflictsA id hold).2⟩
    · exact ⟨hkeep hnew.1, hnew.2⟩
  · rcases h.conflictsB id hid with ⟨h1, r, hmem, h2⟩
    exact ⟨h1, r, hs.base_mem r hmem, h2⟩

/-- The second side after a step: its role is the same, or it has become controlled. -/
theorem Settling.of_speaksB (h : Settling roleA roleB n) {b' : Sess} {role : Role}
    {conflicts : List Nat} (hs : Speaks role n.b.tieBreaker conflicts n.b.sent b')
    (hrole : role = n.b.role ∨ (role = .controlled ∧ n.b.role ≠ .controlled))
    (hconf : ∀ id ∈ conflicts, id ∈ n.b.conflicts ∨ (n.b.role = .controlled ∧
      ∃ r ∈ n.a.sent, r.id = id ∧ r.roleAttr.controlling = false)) :
    Settling roleA roleB
      { n with b := b', changesB := n.changesB + if b'.role = n.b.role then 0 else 1 } := by
  have hr := hs.role_eq
  have ht := hs.tieBreaker_eq
  obtain ⟨hsettled, hkeep⟩ := role_settles (hr ▸ hrole) h.roleB
  refine ⟨by rw [ht]; exact h.tie, h.roleA, hsettled, h.numA, hs.numbered, h.attrA, fun r hmem => ?_,
    fun id hid => ?_, fun id hid => ?_⟩
  · rw [ht]
    rcases hs.sent r hmem with hb | hattr
    · refine ⟨(h.attrB r hb).1, fun hc => (h.attrB r hb).2 ?_⟩
      -- It has not just become controlling.
      rcases hrole with h1 | h1
      · rw [hr, h1] at hc
        exact hc
      · rw [hr, h1.1] at hc
        cases hc
    · rw [hattr]
      refine ⟨rfl, fun hc => ?_⟩
      rw [hr] at hc
      exact decide_eq_true hc
  · rcases h.conflictsA id hid with ⟨h1, r, hmem, h2⟩
    exact ⟨h1, r, hs.base_mem r hmem, h2⟩
  · rw [hs.conflicts_eq] at hid
    rcases hconf id hid with hold | hnew
    · exact ⟨hkeep (h.conflictsB id hold).1, (h.conflictsB id hold).2⟩
    · exact ⟨hkeep hnew.1, hnew.2⟩

/-- The side with the larger tie-breaker refuses another controlling side, and takes over from another
controlled one. -/
theorem resolveConflict_winner {role : Role} {tb : Nat} {attr : RoleAttr} (ht : ¬ tb < attr.tieBreaker) :
    (resolveConflict role tb (some attr) = none → role = .controlling ∧ attr.controlling = true) ∧
      ∀ role', resolveConflict role tb (some attr) = some role' →
        role' = role ∨ (role' = .controlling ∧ role = .controlled ∧ attr.controlling = false) := by
  refine ⟨fun h => ?_, fun role' h => ?_⟩
  · cases role <;> cases hc : attr.controlling <;> simp [resolveConflict, hc, ht] at h ⊢
  · cases role <;> cases hc : attr.controlling <;> simp [resolveConflict, hc, ht] at h ⊢ <;>
      simp [h]

/-- The side with the smaller tie-breaker refuses another controlled side, and gives way to another
controlling one. -/
theorem resolveConflict_loser {role : Role} {tb : Nat} {attr : RoleAttr} (ht : tb < attr.tieBreaker) :
    (resolveConflict role tb (some attr) = none → role = .controlled ∧ attr.controlling = false) ∧
      ∀ role', resolveConflict role tb (some attr) = some role' →
        role' = role ∨ (role' = .controlled ∧ role = .controlling ∧ attr.controlling = true) := by
  refine ⟨fun h => ?_, fun role' h => ?_⟩
  · cases role <;> cases hc : attr.controlling <;> simp [resolveConflict, hc, ht] at h ⊢
  · cases role <;> cases hc : attr.controlling <;> simp [resolveConflict, hc, ht] at h ⊢ <;>
      simp [h]

/-- A step of the first side. -/
theorem Settling.stepA (h : Settling roleA roleB n) (op : NetOp) :
    Holds (fun a' => Settling roleA roleB
        { n with a := a', changesA := n.changesA + if a'.role = n.a.role then 0 else 1 } ∧
      (a'.role = n.a.role ∨ (n.a.role ≠ .controlling ∧ n.b.role ≠ .controlling)))
      AnyFault (sideStep env n.a n.b op) := by
  -- Nothing of its own changes the role.
  have hsame : ∀ a', Speaks n.a.role n.a.tieBreaker n.a.conflicts n.a.sent a' → Settling roleA roleB
      { n with a := a', changesA := n.changesA + if a'.role = n.a.role then 0 else 1 } ∧
      (a'.role = n.a.role ∨ (n.a.role ≠ .controlling ∧ n.b.role ≠ .controlling)) := fun a' hs =>
    ⟨h.of_speaksA hs (Or.inl rfl) fun id hid => Or.inl hid, Or.inl hs.role_eq⟩
  have hswitch : ∀ a', Speaks .controlling n.a.tieBreaker n.a.conflicts n.a.sent a' →
      n.b.role ≠ .controlling → Settling roleA roleB
        { n with a := a', changesA := n.changesA + if a'.role = n.a.role then 0 else 1 } ∧
      (a'.role = n.a.role ∨ (n.a.role ≠ .controlling ∧ n.b.role ≠ .controlling)) := by
    intro a' hs hb
    by_cases hc : n.a.role = .controlling
    · rw [← hc] at hs
      exact hsame a' hs
    · exact ⟨h.of_speaksA hs (Or.inr ⟨rfl, hc⟩) fun id hid => Or.inl hid, Or.inr ⟨hc, hb⟩⟩
  cases op with
  | own op =>
      refine Holds.ite (fun _ => hsame _ h.numA) fun hop => ?_
      exact (own_speaks h.numA (by simpa using hop)).mono hsame
  | deliver i compId transportId srcAddr priority useCandidate =>
      rw [sideStep]
      cases hr : n.b.sent[i]? with
      | none => exact hsame _ h.numA
      | some r =>
          have hmem := List.mem_of_getElem? hr
          have hattr := h.attrB r hmem
          refine (deliver_speaks h.numA _ r.roleAttr rfl rfl).mono fun a' hs => ?_
          have htie : ¬ n.a.tieBreaker < r.roleAttr.tieBreaker := by
            rw [hattr.1]
            exact Nat.not_lt.mpr h.tie.le
          rcases hs with ⟨hres, hs⟩ | ⟨role, hres, hs⟩
          · -- The conflict is the other side's.
            rcases (resolveConflict_winner htie).1 hres with ⟨hra, hc⟩
            refine ⟨h.of_speaksA hs (Or.inl rfl) fun id hid => ?_, Or.inl hs.role_eq⟩
            rcases List.mem_append.mp hid with hid | hid
            · exact Or.inl hid
            · exact Or.inr ⟨hra, r, hmem, (List.mem_singleton.mp hid).symm, hc⟩
          · rcases (resolveConflict_winner htie).2 _ hres with rfl | ⟨rfl, -, hc⟩
            · exact hsame a' hs
            · refine hswitch a' hs fun hb => ?_
              rw [hattr.2 hb] at hc
              cases hc
  | conflict j =>
      rw [sideStep]
      cases hid : n.b.conflicts[j]? with
      | none => exact hsame _ h.numA
      | some id =>
          rcases h.conflictsB id (List.mem_of_getElem? hid) with ⟨hb, r, hmem, hrid, hc⟩
          refine (conflict_speaks h.numA id).mono fun a' hs => ?_
          rcases hs with hs | ⟨r', hmem', hrid', hs⟩
          · exact hsame a' hs
          · -- The numbers say which request it was.
            have heq : r' = r := h.numA.inj r' hmem' r hmem (hrid'.trans hrid.symm)
            rw [heq, conflictRole, hc, if_neg (by simp)] at hs
            refine hswitch a' hs ?_
            rw [hb]
            exact fun hne => by cases hne

/-- A step of the second side. -/
theorem Settling.stepB (h : Settling roleA roleB n) (op : NetOp) :
    Holds (fun b' => Settling roleA roleB
        { n with b := b', changesB := n.changesB + if b'.role = n.b.role then 0 else 1 } ∧
      (b'.role = n.b.role ∨ (n.b.role ≠ .controlled ∧ n.a.role = .controlling)))
      AnyFault (sideStep env n.b n.a op) := by
  have hsame : ∀ b', Speaks n.b.role n.b.tieBreaker n.b.conflicts n.b.sent b' → Settling roleA roleB
      { n with b := b', changesB := n.changesB + if b'.role = n.b.role then 0 else 1 } ∧
      (b'.role = n.b.role ∨ (n.b.role ≠ .controlled ∧ n.a.role = .controlling)) := fun b' hs =>
    ⟨h.of_speaksB hs (Or.inl rfl) fun id hid => Or.inl hid, Or.inl hs.role_eq⟩
  have hswitch : ∀ b', Speaks .controlled n.b.tieBreaker n.b.conflicts n.b.sent b' →
      n.a.role = .controlling → Settling roleA roleB
        { n with b := b', changesB := n.changesB + if b'.role = n.b.role then 0 else 1 } ∧
      (b'.role = n.b.role ∨ (n.b.role ≠ .controlled ∧ n.a.role = .controlling)) := by
    intro b' hs ha
    by_cases hc : n.b.role = .controlled
    · rw [← hc] at hs
      exact hsame b' hs
    · exact ⟨h.of_speaksB hs (Or.inr ⟨rfl, hc⟩) fun id hid => Or.inl hid, Or.inr ⟨hc, ha⟩⟩
  cases op with
  | own op =>
      refine Holds.ite (fun _ => hsame _ h.numB) fun hop => ?_
      exact (own_speaks h.numB (by simpa using hop)).mono hsame
  | deliver i compId transportId srcAddr priority useCandidate =>
      rw [sideStep]
      cases hr : n.a.sent[i]? with
      | none => exact hsame _ h.numB
      | some r =>
          have hmem := List.mem_of_getElem? hr
          have hattr := h.attrA r hmem
          refine (deliver_speaks h.numB _ r.roleAttr rfl rfl).mono fun b' hs => ?_
          have htie : n.b.tieBreaker < r.roleAttr.tieBreaker := by
            rw [hattr.1]
            exact h.tie
          rcases hs with ⟨hres, hs⟩ | ⟨role, hres, hs⟩
          · rcases (resolveConflict_loser htie).1 hres with ⟨hrb, hc⟩
            refine ⟨h.of_speaksB hs (Or.inl rfl) fun id hid => ?_, Or.inl hs.role_eq⟩
            rcases List.mem_append.mp hid with hid | hid
            · exact Or.inl hid
            · exact Or.inr ⟨hrb, r, hmem, (List.mem_singleton.mp hid).symm, hc⟩
          · rcases (resolveConflict_loser htie).2 _ hres with rfl | ⟨rfl, -, hc⟩
            · exact hsame b' hs
            · refine hswitch b' hs ?_
              by_contra ha
              rw [hattr.2 ha] at hc
              cases hc
  | conflict j =>
      rw [sideStep]
      cases hid : n.a.conflicts[j]? with
      | none => exact hsame _ h.numB
      | some id =>
          rcases h.conflictsA id (List.mem_of_getElem? hid) with ⟨ha, r, hmem, hrid, hc⟩
          refine (conflict_speaks h.numB id).mono fun b' hs => ?_
          rcases hs with hs | ⟨r', hmem', hrid', hs⟩
          · exact hsame b' hs
          · have heq : r' = r := h.numB.inj r' hmem' r hmem (hrid'.trans hrid.symm)
            rw [heq, conflictRole, hc, if_pos rfl] at hs
            exact hswitch b' hs ha

/-- **The step lemma.** -/
theorem Settling.step {envA envB : Env} (h : Settling roleA roleB n) (op : Bool × NetOp) :
    Holds (fun n' => Settling roleA roleB n' ∧ (Complementary n → Complementary n')) AnyFault
      (netStep envA envB n op) := by
  refine Holds.ite (fun _ => ?_) fun _ => ?_
  · refine Holds.bind (h.stepA op.2) fun a' ha => Holds.pure ⟨ha.1, fun hc => ?_⟩
    rcases ha.2 with h1 | h1
    · exact hc.imp (fun hc => ⟨h1.trans hc.1, hc.2⟩) fun hc => ⟨h1.trans hc.1, hc.2⟩
    · -- One of the two sides would be controlling.
      exact absurd hc (not_or.mpr ⟨fun hc => h1.1 hc.1, fun hc => h1.2 hc.2⟩)
  · refine Holds.bind (h.stepB op.2) fun b' hb => Holds.pure ⟨hb.1, fun hc => ?_⟩
    rcases hb.2 with h1 | h1
    · exact hc.imp (fun hc => ⟨hc.1, h1.trans hc.2⟩) fun hc => ⟨hc.1, h1.trans hc.2⟩
    · rcases hc with hc | hc
      · exact absurd hc.2 h1.1
      · rw [h1.2] at hc
        exact absurd hc.1 (by decide)

/-! ## Runs -/

/-- The two sessions in the other order. -/
def Net.swap (n : Net) : Net := ⟨n.b, n.a, n.changesB, n.changesA⟩

theorem complementary_swap {n : Net} : Complementary n.swap ↔ Complementary n := by
  unfold Complementary Net.swap
  constructor
  · exact fun h => h.symm.imp (fun h => ⟨h.2, h.1⟩) fun h => ⟨h.2, h.1⟩
  · exact fun h => h.symm.imp (fun h => ⟨h.2, h.1⟩) fun h => ⟨h.2, h.1⟩

/-- A step is the same in the other order. -/
theorem netStep_swap (envA envB : Env) (n : Net) (op : Bool × NetOp) :
    netStep envA envB n op = (netStep envB envA n.swap (!op.1, op.2)).map Net.swap := by
  rcases op with ⟨side, op⟩
  cases side with
  | true =>
      show (sideStep envA n.a n.b op >>= _) = (sideStep envA n.a n.b op >>= _).map Net.swap
      cases sideStep envA n.a n.b op <;> rfl
  | false =>
      show (sideStep envB n.b n.a op >>= _) = (sideStep envB n.b n.a op >>= _).map Net.swap
      cases sideStep envB n.b n.a op <;> rfl

/-- Two sessions on their way to complementary roles, whichever has the larger tie-breaker. -/
def Settles (roleA roleB : Role) (n : Net) : Prop :=
  Settling roleA roleB n ∨ Settling roleB roleA n.swap

theorem Settles.step {envA envB : Env} (h : Settles roleA roleB n) (op : Bool × NetOp) :
    Holds (fun n' => Settles roleA roleB n' ∧ (Complementary n → Complementary n')) AnyFault
      (netStep envA envB n op) := by
  rcases h with h | h
  · exact (h.step op).mono fun n' hn' => ⟨Or.inl hn'.1, hn'.2⟩
  · have hs : Holds (fun n' => Settling roleB roleA n' ∧ (Complementary n.swap → Complementary n'))
        AnyFault (netStep envB envA n.swap (!op.1, op.2)) := h.step (!op.1, op.2)
    rw [netStep_swap]
    cases hr : netStep envB envA n.swap (!op.1, op.2) with
    | error f => trivial
    | ok n' =>
        rw [hr] at hs
        exact ⟨Or.inr hs.1, fun hc => complementary_swap.mpr (hs.2 (complementary_swap.mpr hc))⟩

/-- Two new sessions. -/
def Net.create (a b : Sess) : Net := ⟨a, b, 0, 0⟩

/-- A session that has just been created has sent nothing. -/
theorem numbered_create (role : Role) (tieBreaker compCnt : Nat) (aggressive wantNom : Bool) :
    Numbered (sessCreate role tieBreaker compCnt aggressive wantNom) :=
  ⟨rfl, rfl, rfl, nofun, nofun, nofun, nofun, nofun⟩

theorem settling_create {roleA roleB : Role} {tieA tieB compA compB : Nat} {aggA aggB nomA nomB : Bool}
    (h : tieB < tieA) : Settling roleA roleB (Net.create (sessCreate roleA tieA compA aggA nomA)
      (sessCreate roleB tieB compB aggB nomB)) :=
  ⟨h, Or.inl ⟨rfl, rfl⟩, Or.inl ⟨rfl, rfl⟩, numbered_create _ _ _ _ _, numbered_create _ _ _ _ _,
    nofun, nofun, nofun, nofun⟩

/-- What is wanted of two sessions that have started in the roles `roleA` and `roleB`. -/
structure RolesSettle (envA envB : Env) (roleA roleB : Role) (n : Net) : Prop where
  onceA : n.changesA ≤ 1
  onceB : n.changesB ≤ 1
  stays : Complementary n → ∀ l, Holds Complementary AnyFault (run (netStep envA envB) n l)
  larger : roleA = roleB → Complementary n →
    if n.b.tieBreaker < n.a.tieBreaker then n.a.role = .controlling else n.b.role = .controlling

theorem Settling.once (h : Settling roleA roleB n) : n.changesA ≤ 1 ∧ n.changesB ≤ 1 := by
  rcases h.roleA with h1 | h1 <;> rcases h.roleB with h2 | h2 <;> omega

/-- If both have started in the same role, only the larger tie-breaker can have won. -/
theorem Settling.winner (h : Settling roleA roleB n) (heq : roleA = roleB) (hc : Complementary n) :
    n.a.role = .controlling := by
  rcases hc with hc | hc
  · exact hc.1
  · rcases h.roleA with h1 | h1
    · rcases h.roleB with h2 | h2
      · have hsame : n.a.role = n.b.role := h1.2.trans (heq.trans h2.2.symm)
        rw [hc.1, hc.2] at hsame
        cases hsame
      · rw [h2.2] at hc
        cases hc.2
    · exact h1.2

theorem Settles.rolesSettle {envA envB : Env} (h : Settles roleA roleB n) :
    RolesSettle envA envB roleA roleB n := by
  have hstays : Complementary n → ∀ l, Holds Complementary AnyFault (run (netStep envA envB) n l) := by
    intro hc l
    have hstep : ∀ n op, Settles roleA roleB n ∧ Complementary n →
        Holds (fun n => Settles roleA roleB n ∧ Complementary n) AnyFault (netStep envA envB n op) :=
      fun n op hn => (hn.1.step op).mono fun _ h2 => ⟨h2.1, h2.2 hn.2⟩
    exact (run_holds_all hstep l n ⟨h, hc⟩).mono fun _ h2 => h2.2
  rcases h with h | h
  · refine ⟨h.once.1, h.once.2, hstays, fun heq hc => ?_⟩
    rw [if_pos h.tie]
    exact h.winner heq hc
  · refine ⟨h.once.2, h.once.1, hstays, fun heq hc => ?_⟩
    have htie : n.a.tieBreaker < n.b.tieBreaker := h.tie
    rw [if_neg (by omega)]
    exact h.winner heq.symm (complementary_swap.mpr hc)

/-- **Role conflicts are resolved.** Two sessions with different tie-breakers start in any roles. In
every run, however their requests and 487 responses are ordered, lost, delayed or repeated, each
changes its role at most once, complementary roles stay, and from equal roles only the session with
the larger tie-breaker becomes the controlling one. -/
theorem roles_settle (envA envB : Env) (roleA roleB : Role) (tieA tieB compA compB : Nat)
    (aggA aggB nomA nomB : Bool) (hne : tieA ≠ tieB) (l : List (Bool × NetOp)) :
    Holds (RolesSettle envA envB roleA roleB) AnyFault
      (run (netStep envA envB) (Net.create (sessCreate roleA tieA compA aggA nomA)
        (sessCreate roleB tieB compB aggB nomB)) l) := by
  have hinit : Settles roleA roleB (Net.create (sessCreate roleA tieA compA aggA nomA)
      (sessCreate roleB tieB compB aggB nomB)) := by
    rcases Nat.lt_or_gt_of_ne hne with hlt | hlt
    · exact Or.inr (settling_create hlt)
    · exact Or.inl (settling_create hlt)
  exact (run_holds_all (fun n op h => (Settles.step h op).mono fun _ h2 => h2.1) l _ hinit).mono
    fun _ h => h.rolesSettle

/-- The first side sends a check, which the second side receives twice. -/
def conflictRun : List (Bool × NetOp) :=
  [(true, .own (.addCand 1 0 .host 65535 [72] ⟨false, 1, 4000⟩ ⟨false, 1, 4000⟩)),
   (true, .own (.createCheckList [plainCand 1 5000])), (true, .own .startCheck),
   (true, .own .periodicTimer), (false, .deliver 0 1 0 ⟨false, 1, 4000⟩ 100 false),
   (false, .deliver 0 1 0 ⟨false, 1, 4000⟩ 100 false)]

theorem roles_settle_conflict :
    ∃ n, run (netStep plainEnv plainEnv) (Net.create (sessCreate .controlling 5 1 true true)
        (sessCreate .controlling 3 1 true true)) conflictRun = .ok n ∧
      n.a.role = .controlling ∧ n.b.role = .controlled ∧
      RolesSettle plainEnv plainEnv .controlling .controlling n := by
  have h : checkRun (netStep plainEnv plainEnv) (fun _ _ => true)
      (fun n => n.a.role == .controlling && n.b.role == .controlled)
      (Net.create (sessCreate .controlling 5 1 true true) (sessCreate .controlling 3 1 true true))
      conflictRun = true := by
    decide
  rcases checkRun_sound _ _ _ _ _ h with ⟨-, n, hn, hp⟩
  have hsettle := roles_settle plainEnv plainEnv .controlling .controlling 5 3 1 1 true true true true
    (by decide) conflictRun
  rw [hn] at hsettle
  simp only [Bool.and_eq_true, beq_iff_eq] at hp
  exact ⟨n, hn, hp.1, hp.2, hsettle⟩

end Ice
