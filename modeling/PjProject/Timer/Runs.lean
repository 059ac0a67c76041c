import PjProject.Timer.Calls

set_option autoImplicit false

/-! # Polls and whole runs of the timer heap

`pj_timer_heap_poll` takes the first entry out of the heap while it is due, and invokes its
callback with the heap unlocked: the callback may schedule and cancel. The loop keeps the invariant
while the schedules of the callbacks find room (`PollFits`, `pollLoop_spec`), so every run from
`pj_timer_heap_create` whose schedules do keeps it (`timerHeap_run_inv`), and the service a program
gets from the heap follows (`timerHeap_run_service`). Neither needs the clock to be monotone: an
entry fires when a poll reads a clock that has reached its expiry.
-/

namespace Timer

open HeapOrder Machine

/-! ## The poll -/

/-- The expiry times of the callbacks invoked, in order. -/
def firedOf (log : List Event) : List PjTimeVal := log.filterMap Event.firedAt

/-- What the loop of a poll has done when it ends: `evs` are the events of the poll, and `quiet`
says that no callback schedules anything. -/
structure PollDone (now : Tick) (quiet : Bool) (s : TimerSys) (count : Nat) (s' : TimerSys)
    (count' : Nat) (evs : List Event) : Prop where
  inv : SysInv s'
  perPoll : s'.ht.maxEntriesPerPoll = s.ht.maxEntriesPerPoll
  log : s'.log = s.log ++ evs
  count : count' = count + (firedOf evs).length
  done : count' < s'.ht.maxEntriesPerPoll → ∀ e, s'.ht.InHeap e → now.val.key < s'.ht.keyOf e
  sorted : quiet = true → (firedOf evs).Pairwise fun t1 t2 => t1.key ≤ t2.key
  bounded : quiet = true → ∀ b, (∀ e, s.ht.InHeap e → b ≤ s.ht.keyOf e) →
    ∀ t ∈ firedOf evs, b ≤ t.key

/-- The loop ends here: nothing is left to do. -/
theorem PollDone.stop {now : Tick} {quiet : Bool} {s : TimerSys} {count : Nat} (hs : SysInv s)
    (hdone : count < s.ht.maxEntriesPerPoll → ∀ e, s.ht.InHeap e → now.val.key < s.ht.keyOf e) :
    PollDone now quiet s count s count [] :=
  ⟨hs, rfl, by simp, rfl, hdone, fun _ => List.Pairwise.nil, fun _ _ _ t ht => by
    simp [firedOf] at ht⟩

/-- The system when the callback of `node` is invoked: `ht` is the heap without the node. -/
def TimerSys.invoke (s : TimerSys) (now : Tick) (ht : PjTimerHeap) (node : Nat) : TimerSys :=
  ⟨ht.setEntry node { ht.entries node with grpLock := none },
    s.log ++ [.fired node (ht.entries node).timerValue now.val]⟩

/-- Every schedule that a callback of the loop makes finds room. -/
def PollFits (now : Tick) : Nat → TimerSys → Nat → List (List TimerCall) → Prop
  | 0, _, _, _ => True
  | fuel + 1, s, count, cbs =>
      (s.ht.curSize ≠ 0 ∧ (s.ht.entries (s.ht.heap 0)).timerValue.lte now.val = true ∧
        count < s.ht.maxEntriesPerPoll) →
      match removeNode s.ht 0 with
      | .error _ => True
      | .ok (ht, node) =>
          Meets timerCall CallFits (s.invoke now ht node) (cbs.headD []) ∧
          match timerCalls (s.invoke now ht node) (cbs.headD []) with
          | .error _ => True
          | .ok s' =>
              PollFits now fuel ⟨decRef s'.ht (ht.entries node).grpLock, s'.log⟩ (count + 1)
                cbs.tail

instance PollFits.decidable (now : Tick) : ∀ (fuel : Nat) (s : TimerSys) (count : Nat)
    (cbs : List (List TimerCall)), Decidable (PollFits now fuel s count cbs)
  | 0, _, _, _ => isTrue trivial
  | fuel + 1, s, count, cbs => by
      have next := PollFits.decidable now fuel
      unfold PollFits
      refine @instDecidableForall _ _ inferInstance ?_
      cases removeNode s.ht 0 with
      | error _ => exact isTrue trivial
      | ok r =>
          refine @instDecidableAnd _ _ inferInstance ?_
          cases timerCalls (s.invoke now r.1 r.2) (cbs.headD []) with
          | error _ => exact isTrue trivial
          | ok s' => exact next _ _ _

/-- One turn of the loop: the first entry is out, its callback has run, and the entries that were
there before and are still there have not moved. -/
theorem pollTurn {now : Tick} {s : TimerSys} (hs : SysInv s) (hne : s.ht.curSize ≠ 0)
    (hdue : (s.ht.entries (s.ht.heap 0)).timerValue.lte now.val = true) (calls : List TimerCall)
    (hfits : ∀ ht node, removeNode s.ht 0 = .ok (ht, node) →
      Meets timerCall CallFits (s.invoke now ht node) calls) :
    ∃ ht1 s1, removeNode s.ht 0 = .ok (ht1, s.ht.heap 0) ∧
      (ht1.entries (s.ht.heap 0)).cb = true ∧
      timerCalls (s.invoke now ht1 (s.ht.heap 0)) calls = .ok s1 ∧
      SysInv s1 ∧ s1.ht.maxEntriesPerPoll = s.ht.maxEntriesPerPoll ∧
      (∃ evs, s1.log = s.log ++
        .fired (s.ht.heap 0) (s.ht.entries (s.ht.heap 0)).timerValue now.val :: evs ∧
        firedOf evs = []) ∧
      (calls.all TimerCall.quiet = true → Shrinks s.ht s1.ht) := by
  obtain ⟨free, hi⟩ := hs.heap
  have h0 : 0 < s.ht.curSize := by omega
  obtain ⟨ht1, hrun, hinv, hrm⟩ := removeNode_spec hi h0
  have hin : s.ht.InHeap (s.ht.heap 0) := ⟨0, h0, rfl⟩
  have hout : ¬ ht1.InHeap (s.ht.heap 0) := fun h => ((hrm.mem _).1 h).2 rfl
  have hself : ht1.entries (s.ht.heap 0) =
      { s.ht.entries (s.ht.heap 0) with timerId := -1 } := by
    rw [hrm.entries, Function.update_self]
  have hcb : (ht1.entries (s.ht.heap 0)).cb = true := by
    rw [hself]
    exact hi.accounted.cb _ ((hi.active _).2 hin)
  have hval : (ht1.entries (s.ht.heap 0)).timerValue =
      (s.ht.entries (s.ht.heap 0)).timerValue := by rw [hself]
  -- the state the callback starts in
  have hstart : SysInv (s.invoke now ht1 (s.ht.heap 0)) := by
    refine ⟨⟨_, hinv.setEntry_same rfl rfl rfl⟩, fun x => ?_, fun ev hev => ?_⟩
    · rw [TimerSys.invoke, historyOf_snoc, hs.history x]
      show _ = some (decide (ht1.InHeap x))
      by_cases hx : s.ht.heap 0 = x
      · subst hx
        simp [Event.entry, Event.track, hin, hout]
      · have hiff : ht1.InHeap x ↔ s.ht.InHeap x := by
          rw [hrm.mem x]
          exact ⟨fun h => h.1, fun h => ⟨h, Ne.symm hx⟩⟩
        simp [Event.entry, hx, hiff]
    · rcases List.mem_append.1 hev with h | h
      · exact hs.onTime ev h
      · rw [List.mem_singleton.1 h]
        show (ht1.entries (s.ht.heap 0)).timerValue.lte now.val = true
        rw [hval]
        exact hdue
  obtain ⟨s1, hcalls, hcalled⟩ := timerCalls_spec calls _ hstart (hfits ht1 _ hrun)
  obtain ⟨evs, hevs, hfired⟩ := hcalled.log
  refine ⟨ht1, s1, hrun, hcb, hcalls, hcalled.inv, hcalled.perPoll.trans hrm.perPoll,
    ⟨evs, by rw [hevs, TimerSys.invoke, hval, List.append_assoc]; rfl, hfired⟩, fun hq x hx => ?_⟩
  obtain ⟨h1, h2⟩ := hcalled.shrinks hq x hx
  obtain ⟨h3, h4⟩ := (hrm.mem x).1 h1
  refine ⟨h3, h2.trans ?_⟩
  show (Function.update ht1.entries (s.ht.heap 0) _ x).timerValue.key = _
  rw [Function.update_of_ne h4, hrm.entries, Function.update_of_ne h4]
  rfl

theorem SysInv.of_refs {s : TimerSys} {ht' : PjTimerHeap} (hs : SysInv s)
    (hc : ht' = { s.ht with
      grpRefs := ht'.grpRefs, maxEntriesPerPoll := ht'.maxEntriesPerPoll }) :
    SysInv ⟨ht', s.log⟩ := by
  obtain ⟨free, hi⟩ := hs.heap
  refine ⟨⟨free, hi.of_refs hc⟩, fun e => ?_, hs.onTime⟩
  have hin : ht'.InHeap e ↔ s.ht.InHeap e := by rw [hc]; rfl
  rw [hs.history e]
  simp [hin]

/-- The events of a turn come before those of the turns after it. -/
theorem PollDone.turn {now : Tick} {quiet quiet1 : Bool} {s s1 s' : TimerSys} {count count' : Nat}
    {e : Nat} {evs1 evs2 : List Event} (hd : PollDone now quiet s1 (count + 1) s' count' evs2)
    (he : s.ht.InHeap e)
    (hmin : ∀ x, s.ht.InHeap x → s.ht.keyOf e ≤ s.ht.keyOf x)
    (hper : s1.ht.maxEntriesPerPoll = s.ht.maxEntriesPerPoll)
    (hlog : s1.log = s.log ++ .fired e (s.ht.entries e).timerValue now.val :: evs1)
    (hevs1 : firedOf evs1 = [])
    (hshr : quiet1 = true → Shrinks s.ht s1.ht) :
    PollDone now (quiet1 && quiet) s count s' count'
      (.fired e (s.ht.entries e).timerValue now.val :: evs1 ++ evs2) := by
  have hfired : firedOf (.fired e (s.ht.entries e).timerValue now.val :: evs1 ++ evs2) =
      (s.ht.entries e).timerValue :: firedOf evs2 := by
    unfold firedOf at hevs1 ⊢
    rw [List.cons_append, List.filterMap_cons, List.filterMap_append, hevs1]
    rfl
  have hlow : quiet1 = true → ∀ b, (∀ x, s.ht.InHeap x → b ≤ s.ht.keyOf x) →
      ∀ x, s1.ht.InHeap x → b ≤ s1.ht.keyOf x := by
    intro hq b hb x hx
    obtain ⟨h1, h2⟩ := hshr hq x hx
    rw [h2]
    exact hb x h1
  constructor
  · exact hd.inv
  · exact hd.perPoll.trans hper
  · rw [hd.log, hlog, List.append_assoc]
  · rw [hfired, hd.count, List.length_cons]
    omega
  · exact hd.done
  · intro hq
    rw [Bool.and_eq_true] at hq
    rw [hfired]
    exact List.Pairwise.cons (hd.bounded hq.2 _ (hlow hq.1 _ hmin)) (hd.sorted hq.2)
  · intro hq b hb t ht
    rw [Bool.and_eq_true] at hq
    rw [hfired, List.mem_cons] at ht
    rcases ht with rfl | ht
    · exact hb e he
    · exact hd.bounded hq.2 b (hlow hq.1 b hb) t ht

theorem all_headD_tail (cbs : List (List TimerCall)) :
    (cbs.all fun l => l.all TimerCall.quiet) =
      ((cbs.headD []).all TimerCall.quiet && cbs.tail.all fun l => l.all TimerCall.quiet) := by
  cases cbs <;> simp

/-- **The loop of `pj_timer_heap_poll`** ends within its fuel. -/
theorem pollLoop_spec (now : Tick) : ∀ (fuel : Nat) (s : TimerSys) (count : Nat)
    (cbs : List (List TimerCall)), SysInv s → count ≤ s.ht.maxEntriesPerPoll →
    s.ht.maxEntriesPerPoll < fuel + count → PollFits now fuel s count cbs →
    ∃ s' count' evs, pollLoop now fuel s count cbs = .ok (s', count') ∧
      PollDone now (cbs.all fun l => l.all TimerCall.quiet) s count s' count' evs
  | 0, s, count, cbs, hs, hc, hf, _ => absurd hc (by omega)
  | fuel + 1, s, count, cbs, hs, hc, hf, hfits => by
      obtain ⟨free, hi⟩ := hs.heap
      have hroom := hi.room
      rw [pollLoop]
      by_cases hne : s.ht.curSize ≠ 0
      -- The root is the earliest, so the loop stops with nothing left that is due.
      · have hmin : ∀ x, s.ht.InHeap x → s.ht.keyOf (s.ht.heap 0) ≤ s.ht.keyOf x := by
          rintro x ⟨i, hin, rfl⟩
          exact hi.ordered.root_le i hin
        rw [if_pos hne, valueAt_ok hi.small (by omega)]
        simp only [bind, Except.bind]
        by_cases hdue : (s.ht.entries (s.ht.heap 0)).timerValue.lte now.val = true ∧
            count < s.ht.maxEntriesPerPoll
        · rw [PollFits] at hfits
          have hturns := hfits ⟨hne, hdue⟩
          obtain ⟨ht1, s1, hrun, hcb, hcalls, hs1, hper, ⟨evs1, hlog, hevs1⟩, hshr⟩ :=
            pollTurn hs hne hdue.1 (cbs.headD []) fun ht node h => by
              rw [h] at hturns
              exact hturns.1
          simp only [hrun, hcalls] at hturns
          have hcalls' := hcalls
          rw [TimerSys.invoke] at hcalls'
          simp only [if_pos hdue, hrun, if_pos hcb, hcalls']
          set g := (ht1.entries (s.ht.heap 0)).grpLock
          have hs2 : SysInv ⟨decRef s1.ht g, s1.log⟩ := hs1.of_refs (by cases g <;> rfl)
          have hper2 : (decRef s1.ht g).maxEntriesPerPoll = s.ht.maxEntriesPerPoll := by
            rw [decRef_eq]
            exact hper
          obtain ⟨s', count', evs2, hloop, hd⟩ := pollLoop_spec now fuel ⟨decRef s1.ht g, s1.log⟩
            (count + 1) cbs.tail hs2 (by simp only [hper2]; omega) (by simp only [hper2]; omega)
            hturns.2
          have hshr2 : (cbs.headD []).all TimerCall.quiet = true →
              Shrinks s.ht (decRef s1.ht g) := by
            rw [decRef_eq]
            exact hshr
          have hturn := hd.turn ⟨0, by omega, rfl⟩ hmin hper2 hlog hevs1 hshr2
          rw [← all_headD_tail] at hturn
          exact ⟨s', count', _, hloop, hturn⟩
        · rw [if_neg hdue]
          refine ⟨s, count, [], rfl, PollDone.stop hs fun hlt e he => ?_⟩
          have hlater : ¬ (s.ht.entries (s.ht.heap 0)).timerValue.lte now.val = true :=
            fun h => hdue ⟨h, hlt⟩
          rw [PjTimeVal.lte_iff, not_le] at hlater
          exact lt_of_lt_of_le hlater (hmin e he)
      · rw [if_neg hne]
        refine ⟨s, count, [], rfl, PollDone.stop hs fun _ e he => ?_⟩
        obtain ⟨i, hin, -⟩ := he
        omega

/-- What a poll promises its caller. -/
structure PollService (s : TimerSys) (now : Tick) (wantDelay : Bool)
    (cbs : List (List TimerCall)) (s' : TimerSys) (count : Nat) (delay : Option PjTimeVal)
    (evs : List Event) : Prop where
  log : s'.log = s.log ++ evs
  counted : count = (firedOf evs).length
  sorted : (∀ l ∈ cbs, ∀ c ∈ l, c.quiet = true) →
    (firedOf evs).Pairwise fun t1 t2 => t1.lte t2 = true
  nothing_due : count < s.ht.maxEntriesPerPoll →
    ∀ e, s'.ht.InHeap e → (s'.ht.entries e).timerValue.gt now.val = true
  delay_none : wantDelay = false → delay = none
  delay_empty : wantDelay = true → s'.ht.curSize = 0 → delay = some PjTimeVal.maxDelay
  delay_exact : wantDelay = true → count < s.ht.maxEntriesPerPoll → s'.ht.curSize ≠ 0 →
    ∃ d e, delay = some d ∧ s'.ht.InHeap e ∧
      (∀ x, s'.ht.InHeap x →
        (s'.ht.entries e).timerValue.toMsec ≤ (s'.ht.entries x).timerValue.toMsec) ∧
      d.toMsec = max 0 ((s'.ht.entries e).timerValue.toMsec - now.val.toMsec)

/-- The delay of a poll that has left nothing due is the time until the first entry. -/
theorem nextDelay_spec {s : TimerSys} (hs : SysInv s) (now : Tick) :
    ∃ d, nextDelay s.ht now = .ok d ∧
      (s.ht.curSize = 0 → d = PjTimeVal.maxDelay) ∧
      (s.ht.curSize ≠ 0 → (∀ e, s.ht.InHeap e → now.val.key < s.ht.keyOf e) →
        ∃ e, s.ht.InHeap e ∧
          (∀ x, s.ht.InHeap x →
            (s.ht.entries e).timerValue.toMsec ≤ (s.ht.entries x).timerValue.toMsec) ∧
          d.toMsec = max 0 ((s.ht.entries e).timerValue.toMsec - now.val.toMsec)) := by
  obtain ⟨free, hi⟩ := hs.heap
  have hroom := hi.room
  unfold nextDelay
  by_cases hne : s.ht.curSize ≠ 0
  · rw [if_pos hne, valueAt_ok hi.small (by omega)]
    refine ⟨_, rfl, fun h => absurd h hne, fun _ hlater => ?_⟩
    have h0 : s.ht.InHeap (s.ht.heap 0) := ⟨0, by omega, rfl⟩
    have hnormal : ∀ x, s.ht.InHeap x → (s.ht.entries x).timerValue.Normal :=
      fun x hx => hi.accounted.normal x ((hi.active x).2 hx)
    obtain ⟨hsec, hmsec, hexact⟩ :=
      PjTimeVal.sub_spec (hnormal _ h0) now (hlater _ h0)
    refine ⟨s.ht.heap 0, h0, ?_, ?_⟩
    · rintro x ⟨i, hin, rfl⟩
      rw [← (hnormal _ h0).key_le_iff_toMsec (hnormal _ ⟨i, hin, rfl⟩)]
      exact hi.ordered.root_le i hin
    · rw [if_neg (by omega), ← hexact]
      unfold PjTimeVal.toMsec
      rw [max_eq_right (by omega)]
  · rw [if_neg hne]
    exact ⟨_, rfl, fun _ => rfl, fun h => absurd h hne⟩

/-- **`pj_timer_heap_poll`** keeps the invariant and its promises. -/
theorem pjTimerHeapPoll_spec {s : TimerSys} (hs : SysInv s) (now : Tick) (wantDelay : Bool)
    (cbs : List (List TimerCall))
    (hfits : PollFits now (s.ht.maxEntriesPerPoll + 1) s 0 cbs) :
    ∃ s' count delay evs, pjTimerHeapPoll s now wantDelay cbs = .ok (s', count, delay) ∧
      SysInv s' ∧ PollService s now wantDelay cbs s' count delay evs := by
  unfold pjTimerHeapPoll
  by_cases hempty : s.ht.curSize = 0 ∧ wantDelay = true
  · rw [if_pos hempty]
    refine ⟨s, 0, _, [], rfl, hs, by simp, rfl, fun _ => List.Pairwise.nil,
      fun _ e he => ?_, fun h => ?_, fun _ _ => rfl, fun _ _ h => absurd hempty.1 h⟩
    · obtain ⟨i, hin, -⟩ := he
      omega
    · rw [hempty.2] at h
      cases h
  · rw [if_neg hempty]
    obtain ⟨s', count', evs, hloop, hd⟩ := pollLoop_spec now (s.ht.maxEntriesPerPoll + 1) s 0 cbs
      hs (by omega) (by omega) hfits
    obtain ⟨d, hdelay, hd0, hd1⟩ := nextDelay_spec hd.inv now
    have hsorted : (∀ l ∈ cbs, ∀ c ∈ l, TimerCall.quiet c = true) →
        (firedOf evs).Pairwise fun t1 t2 => t1.lte t2 = true := by
      intro hq
      refine (hd.sorted ?_).imp fun {t1 t2} h => (PjTimeVal.lte_iff t1 t2).2 h
      rw [List.all_eq_true]
      exact fun l hl => List.all_eq_true.2 (hq l hl)
    have hcount : count' = (firedOf evs).length := by rw [hd.count, Nat.zero_add]
    have hdue : count' < s.ht.maxEntriesPerPoll →
        ∀ e, s'.ht.InHeap e → now.val.key < s'.ht.keyOf e := by
      rw [← hd.perPoll]
      exact hd.done
    have hgt : count' < s.ht.maxEntriesPerPoll →
        ∀ e, s'.ht.InHeap e → (s'.ht.entries e).timerValue.gt now.val = true :=
      fun hlt e he => (PjTimeVal.gt_iff _ _).2 (hdue hlt e he)
    simp only [hloop, bind, Except.bind]
    cases wantDelay with
    | false =>
        exact ⟨s', count', none, evs, rfl, hd.inv, hd.log, hcount, hsorted, hgt,
          fun _ => rfl, fun h => by simp at h, fun h => by simp at h⟩
    | true =>
        simp only [if_true, hdelay]
        refine ⟨s', count', some d, evs, rfl, hd.inv, hd.log, hcount, hsorted, hgt,
          fun h => by simp at h, fun _ h => by rw [hd0 h], fun _ hlt hne => ?_⟩
        obtain ⟨e, he, hfirst, hexact⟩ := hd1 hne (hdue hlt)
        exact ⟨d, e, rfl, he, hfirst, hexact⟩

/-! ## Runs -/

/-- A run from `pj_timer_heap_create`. -/
def timerRun (size : Nat) (ids : Nat → Int) (cbs : Nat → Bool) (calls : List HeapCall) :
    Except Fault TimerSys := do
  let s ← timerSysCreate size ids cbs
  run heapStep s calls

/-- Every schedule of the step finds room. -/
def HeapFits (s : TimerSys) : HeapCall → Prop
  | .call c => CallFits s c
  | .setMaxTimedOutPerPoll _ => True
  | .poll now _ cbs => PollFits now (s.ht.maxEntriesPerPoll + 1) s 0 cbs

instance HeapFits.decidable (s : TimerSys) : ∀ c, Decidable (HeapFits s c)
  | .call c => inferInstanceAs (Decidable (CallFits s c))
  | .setMaxTimedOutPerPoll _ => isTrue trivial
  | .poll now _ cbs =>
      inferInstanceAs (Decidable (PollFits now (s.ht.maxEntriesPerPoll + 1) s 0 cbs))

/-- The numbers of the new heap are `int`s, and every schedule of the run finds room. -/
def RunFits (size : Nat) (ids : Nat → Int) (cbs : Nat → Bool) (calls : List HeapCall) : Prop :=
  size ≤ 2147483645 ∧
    ∀ s, timerSysCreate size ids cbs = .ok s → Meets heapStep HeapFits s calls

instance RunFits.decidable (size : Nat) (ids : Nat → Int) (cbs : Nat → Bool)
    (calls : List HeapCall) : Decidable (RunFits size ids cbs calls) :=
  match h : timerSysCreate size ids cbs with
  | .error _ => decidable_of_iff (size ≤ 2147483645) (by simp [RunFits, h])
  | .ok s => decidable_of_iff (size ≤ 2147483645 ∧ Meets heapStep HeapFits s calls)
      (by simp [RunFits, h])

theorem timerSysCreate_inv {size : Nat} (hsize : size ≤ 2147483645) (ids : Nat → Int)
    (cbs : Nat → Bool) : ∃ s, timerSysCreate size ids cbs = .ok s ∧ SysInv s := by
  obtain ⟨ht, hrun, hinv, hcur⟩ := pjTimerHeapCreate_inv hsize ids cbs
  refine ⟨⟨ht, []⟩, by rw [timerSysCreate, hrun]; rfl, ⟨_, hinv⟩, fun e => ?_, fun ev hev => by
    simp at hev⟩
  have hout : ¬ ht.InHeap e := by
    rintro ⟨i, hin, -⟩
    omega
  show _ = some (decide (ht.InHeap e))
  rw [decide_eq_false hout]
  rfl

/-- One step of a run keeps the invariant. -/
theorem heapStep_inv (s : TimerSys) (c : HeapCall) (hs : SysInv s) (hfits : HeapFits s c) :
    ∃ s', heapStep s c = .ok s' ∧ SysInv s' := by
  cases c with
  | call c =>
      obtain ⟨s', hrun, hc⟩ := timerCall_spec hs c hfits
      exact ⟨s', hrun, hc.inv⟩
  | setMaxTimedOutPerPoll count => exact ⟨_, rfl, hs.of_refs rfl⟩
  | poll now wantDelay cbs =>
      obtain ⟨s', count, delay, evs, hrun, hinv, -⟩ :=
        pjTimerHeapPoll_spec hs now wantDelay cbs hfits
      refine ⟨s', ?_, hinv⟩
      rw [heapStep, hrun]
      rfl

/-- A run whose schedules find room ends, without a fault, in the invariant. -/
theorem heapRun_inv {size : Nat} {ids : Nat → Int} {cbs : Nat → Bool} {calls : List HeapCall}
    (hfits : RunFits size ids cbs calls) :
    ∃ s, timerRun size ids cbs calls = .ok s ∧ SysInv s := by
  obtain ⟨hsize, hmeets⟩ := hfits
  obtain ⟨s0, hcreate, hs0⟩ := timerSysCreate_inv hsize ids cbs
  obtain ⟨s, hrun, hs⟩ := run_invariant heapStep_inv calls s0 hs0 (hmeets s0 hcreate)
  refine ⟨s, ?_, hs⟩
  rw [timerRun, hcreate]
  exact hrun

/-- The timer heap as a caller of `timer.c` would state its invariant. -/
structure TimerHeapInv (ht : PjTimerHeap) : Prop where
  minHeap : ∀ i, 0 < i → i < ht.curSize →
    (ht.entries (ht.heap (heapParent i))).timerValue.lte (ht.entries (ht.heap i)).timerValue = true
  inverse : ∀ i, i < ht.curSize → ht.timerIds (ht.entries (ht.heap i)).timerId = i
  inRange : ∀ i, i < ht.curSize → 1 ≤ (ht.entries (ht.heap i)).timerId ∧
    (ht.entries (ht.heap i)).timerId ≤ (ht.maxSize : Int) - 1
  distinct : ∀ i j, i < ht.curSize → j < ht.curSize → i ≠ j →
    (ht.entries (ht.heap i)).timerId ≠ (ht.entries (ht.heap j)).timerId
  freeIds : ∃ free : List Int, free ≠ [] ∧ free.Nodup ∧
    FreeList ht.timerIds ht.maxSize ht.timerIdsFreelist free ∧
    ∀ t, t ∈ free ↔ 1 ≤ t ∧ t < ht.maxSize ∧
      ∀ i, i < ht.curSize → (ht.entries (ht.heap i)).timerId ≠ t
  running : ∀ e, 1 ≤ (ht.entries e).timerId ↔ ht.InHeap e

theorem HeapInv.timerHeapInv {ht : PjTimerHeap} {free : List Int} (hi : HeapInv ht free) :
    TimerHeapInv ht := by
  have hnum := hi.accounted.numbered
  refine ⟨fun i h0 hin => ?_, hi.located, fun i hin => ⟨hnum.pos i hin, ?_⟩,
    fun i j hin hjn hij he => hij (hnum.inj i j hin hjn he), ⟨free, ?_, hi.accounted.nodup,
    hi.accounted.freelist, hi.accounted.mem_free⟩, hi.active⟩
  · rw [PjTimeVal.lte_iff]
    exact hi.ordered i h0 hin
  · have : (ht.entries (ht.heap i)).timerId < ht.maxSize := hnum.lt i hin
    omega
  · rintro rfl
    have := hi.count
    have := hi.room
    simp at *
    omega

/-- **The invariant of the timer heap over whole runs.** From `pj_timer_heap_create`, every sequence
of schedules, cancels and polls, with any callbacks, whose numbers stay `int`s (`RunFits`) runs
without an access beyond the arrays or a failed assertion, and leaves a heap that is ordered,
located, numbered and has every unused number in its free list. -/
theorem timerHeap_run_inv (size : Nat) (ids : Nat → Int) (cbs : Nat → Bool)
    (calls : List HeapCall) (hfits : RunFits size ids cbs calls) :
    ∃ s, timerRun size ids cbs calls = .ok s ∧ TimerHeapInv s.ht := by
  obtain ⟨s, hrun, hs⟩ := heapRun_inv hfits
  obtain ⟨free, hi⟩ := hs.heap
  exact ⟨s, hrun, hi.timerHeapInv⟩

/-- A reading of the clock, in seconds. -/
def Tick.ofSec (n : Fin 1000) : Tick where
  val := ⟨n, 0⟩
  sec_nonneg := Int.natCast_nonneg _
  sec_le := by
    show ((n : Nat) : Int) ≤ _
    omega
  msec_nonneg := le_rfl
  msec_lt := show (0 : Int) < 1000 from by decide

/-- Three entries are scheduled, so that the arrays grow twice, one is cancelled, and the callback
of the poll schedules two. -/
def grownRun : List HeapCall :=
  [.call (.schedule 0 (.ofSec 1) ⟨4, 0⟩), .call (.scheduleWGrpLock 1 (.ofSec 1) ⟨2, 0⟩ 7 (some 0)),
    .call (.schedule 2 (.ofSec 2) ⟨3, 0⟩), .call (.cancelIfActive 2 0), .call (.cancel 3),
    .poll (.ofSec 4) true [[.schedule 1 (.ofSec 4) ⟨1, 0⟩, .schedule 3 (.ofSec 4) ⟨2, 0⟩]]]

theorem timerHeap_run_inv_grown :
    RunFits 0 (fun _ => 0) (fun _ => true) grownRun ∧
      (timerRun 0 (fun _ => 0) (fun _ => true) grownRun).map (fun s => (s.ht.curSize, s.ht.maxSize)) =
        .ok (3, 8) ∧
      ∃ s, timerRun 0 (fun _ => 0) (fun _ => true) grownRun = .ok s ∧ TimerHeapInv s.ht :=
  ⟨by decide +kernel, by decide +kernel,
    timerHeap_run_inv 0 (fun _ => 0) (fun _ => true) grownRun (by decide +kernel)⟩

/-- With a size of `SIZE_MAX` the arrays have one cell each, and the first number is behind them. -/
theorem timerHeap_wrapped :
    (timerRun 18446744073709551615 (fun _ => 0) (fun _ => true)
      [.call (.schedule 0 (.ofSec 1) ⟨4, 0⟩)]).map TimerSys.log = .error .outOfBounds := by
  decide +kernel

/-- What a program has from the heap: each entry has been removed once for each time it was scheduled,
or is still in the heap; no callback was invoked before its time; and the next poll, if the schedules
of its callbacks find room, keeps the promises of `PollService`. -/
structure Serves (s : TimerSys) : Prop where
  history : ∀ e, historyOf e s.log = some (decide (s.ht.InHeap e))
  onTime : ∀ ev ∈ s.log, ev.onTime
  poll : ∀ (now : Tick) (wantDelay : Bool) (callbacks : List (List TimerCall)),
    HeapFits s (.poll now wantDelay callbacks) →
    ∃ s' count delay evs, pjTimerHeapPoll s now wantDelay callbacks = .ok (s', count, delay) ∧
      PollService s now wantDelay callbacks s' count delay evs

/-- **The service of the timer heap**, after every run whose numbers stay `int`s. -/
theorem timerHeap_run_service (size : Nat) (ids : Nat → Int) (cbs : Nat → Bool)
    (calls : List HeapCall) (hfits : RunFits size ids cbs calls) :
    ∃ s, timerRun size ids cbs calls = .ok s ∧ Serves s := by
  obtain ⟨s, hrun, hs⟩ := heapRun_inv hfits
  refine ⟨s, hrun, hs.history, hs.onTime, fun now wantDelay callbacks hnext => ?_⟩
  obtain ⟨s', count, delay, evs, hpoll, -, hservice⟩ :=
    pjTimerHeapPoll_spec hs now wantDelay callbacks hnext
  exact ⟨s', count, delay, evs, hpoll, hservice⟩

theorem timerHeap_run_service_grown :
    (timerRun 0 (fun _ => 0) (fun _ => true) grownRun).map TimerSys.log =
        .ok [.scheduled 0 ⟨5, 0⟩, .scheduled 1 ⟨3, 0⟩, .scheduled 2 ⟨5, 0⟩, .cancelled 2,
          .fired 1 ⟨3, 0⟩ ⟨4, 0⟩, .scheduled 1 ⟨5, 0⟩, .scheduled 3 ⟨6, 0⟩] ∧
      ∃ s, timerRun 0 (fun _ => 0) (fun _ => true) grownRun = .ok s ∧ Serves s :=
  ⟨by decide +kernel,
    timerHeap_run_service 0 (fun _ => 0) (fun _ => true) grownRun (by decide +kernel)⟩

/-- With a size of `SIZE_MAX` an entry is never served: no run gets past its schedule to the poll. -/
theorem timerHeap_unserved :
    (timerRun 18446744073709551615 (fun _ => 0) (fun _ => true)
      [.poll (.ofSec 1) true [], .call (.schedule 0 (.ofSec 1) ⟨4, 0⟩),
        .poll (.ofSec 6) true []]).map TimerSys.log = .error .outOfBounds := by
  decide +kernel

end Timer
