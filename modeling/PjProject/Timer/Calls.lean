import PjProject.Library.Run
import PjProject.Timer.Ops

set_option autoImplicit false

/-! # The calls of the timer heap

`pj_timer_heap_schedule` and its siblings, and `pj_timer_heap_cancel` and its sibling, as a caller
sees them. A schedule succeeds exactly for an entry with a callback that is not in the heap; a
cancel returns 1 exactly for an entry that is. So the events of one entry alternate: `historyOf`
follows them, and `SysInv` ties the result to the heap. A schedule that puts its entry into the
heap must find an `int` for every number (`PjTimerHeap.Fits`).
-/

namespace Timer

open Machine

variable {ht ht' : PjTimerHeap} {e : Nat} {free : List Int}

/-! ## Entries and references -/

/-- An entry outside the heap may be changed, as long as it stays without a number. -/
theorem HeapInv.setEntry_out (hi : HeapInv ht free) (he : ¬ ht.InHeap e) {x : PjTimerEntry}
    (hx : x.timerId < 1) : HeapInv (ht.setEntry e x) free := by
  refine hi.of_entries rfl (fun y hy => ?_) fun y hy => ?_
  · have hye : y ≠ e := fun h => he (h ▸ hy)
    simp [PjTimerHeap.setEntry, Function.update_of_ne hye]
  · by_cases hye : y = e
    · simpa [PjTimerHeap.setEntry, hye] using hx
    · have : ¬ 1 ≤ ht.idOf y := fun h => hy ((hi.active y).1 h)
      have hid : ht.idOf y = (ht.entries y).timerId := rfl
      simp only [PjTimerHeap.setEntry, Function.update_of_ne hye]
      omega

/-- The fields of an entry that the heap does not read may be changed. -/
theorem HeapInv.setEntry_same (hi : HeapInv ht free) {x : PjTimerEntry}
    (h1 : x.timerId = (ht.entries e).timerId) (h2 : x.timerValue = (ht.entries e).timerValue)
    (h3 : x.cb = (ht.entries e).cb) : HeapInv (ht.setEntry e x) free := by
  have heq : ∀ y, ((ht.setEntry e x).entries y).timerId = (ht.entries y).timerId ∧
      ((ht.setEntry e x).entries y).timerValue = (ht.entries y).timerValue ∧
      ((ht.setEntry e x).entries y).cb = (ht.entries y).cb := by
    intro y
    by_cases hye : y = e
    · simp [PjTimerHeap.setEntry, hye, h1, h2, h3]
    · simp [PjTimerHeap.setEntry, Function.update_of_ne hye]
  refine hi.of_entries rfl (fun y _ => heq y) fun y hy => ?_
  have : ¬ 1 ≤ ht.idOf y := fun h => hy ((hi.active y).1 h)
  have hid : ht.idOf y = (ht.entries y).timerId := rfl
  rw [(heq y).1]
  omega

theorem HeapInv.of_refs (hi : HeapInv ht free)
    (hc : ht' = { ht with grpRefs := ht'.grpRefs, maxEntriesPerPoll := ht'.maxEntriesPerPoll }) :
    HeapInv ht' free := by
  have hent : ht'.entries = ht.entries := by rw [hc]
  refine hi.of_entries (by rw [hc]) (fun y _ => by rw [hent]; exact ⟨rfl, rfl, rfl⟩) fun y hy => ?_
  have : ¬ 1 ≤ ht.idOf y := fun h => hy ((hi.active y).1 h)
  have hid : ht.idOf y = (ht.entries y).timerId := rfl
  rw [hent]
  omega

theorem addRef_eq (ht : PjTimerHeap) (g : Option Nat) :
    addRef ht g = { ht with grpRefs := (addRef ht g).grpRefs } := by
  cases g <;> rfl

theorem decRef_eq (ht : PjTimerHeap) (g : Option Nat) :
    decRef ht g = { ht with grpRefs := (decRef ht g).grpRefs } := by
  cases g <;> rfl

theorem HeapInv.addRef (hi : HeapInv ht free) (g : Option Nat) : HeapInv (addRef ht g) free :=
  hi.of_refs (by cases g <;> rfl)

theorem HeapInv.decRef (hi : HeapInv ht free) (g : Option Nat) : HeapInv (decRef ht g) free :=
  hi.of_refs (by cases g <;> rfl)

/-! ## Schedule and cancel -/

/-- A schedule that puts the entry into the heap finds room. It puts there what has a callback and is
not scheduled yet. -/
def PjTimerHeap.Fits (ht : PjTimerHeap) (e : Nat) : Prop :=
  (ht.entries e).cb = true → (ht.entries e).timerId < 1 → ht.CanGrow

instance PjTimerHeap.decidableFits (ht : PjTimerHeap) (e : Nat) : Decidable (ht.Fits e) :=
  inferInstanceAs (Decidable (_ → _ → _))

/-- **`schedule_w_grp_lock`**: an entry that is refused leaves the heap as it was. -/
theorem scheduleWGrpLock_spec (hi : HeapInv ht free) (e : Nat) (clock : Tick) (delay : PjTimeVal)
    (idVal : Option Int) (grpLock : Option Nat) (hfits : ht.Fits e) :
    ∃ ht' status, scheduleWGrpLock ht e clock delay idVal grpLock = .ok (ht', status) ∧
      ((status ≠ .success ∧ ht' = ht) ∨
        (status = .success ∧ ¬ ht.InHeap e ∧ (∃ free', HeapInv ht' free') ∧
          ScheduledEntry ht e (clock.val.add delay) ht')) := by
  unfold scheduleWGrpLock
  split_ifs with hcb hid
  · exact ⟨ht, .einval, rfl, Or.inl ⟨by simp, rfl⟩⟩
  · exact ⟨ht, .einvalidop, rfl, Or.inl ⟨by simp, rfl⟩⟩
  · have he : ¬ ht.InHeap e := fun h => hid ((hi.active e).2 h)
    have hcb : (ht.entries e).cb = true := by simpa using hcb
    obtain ⟨ht1, free1, hrun, hinv, hs⟩ := scheduleEntry_spec hi he hcb
      (PjTimeVal.add_normal clock.val delay) (hfits hcb (by omega))
    simp only [bind, Except.bind, hrun, if_true]
    refine ⟨_, .success, rfl, Or.inr ⟨rfl, he, ⟨free1, ?_⟩, ?_⟩⟩
    · exact (hinv.setEntry_same (by rfl) (by rfl) (by rfl)).addRef grpLock
    · rw [addRef_eq]
      refine ⟨?_, fun x hx => ?_, hs.perPoll, hs.mem⟩
      · simpa [PjTimerHeap.setEntry] using hs.self
      · simp only [PjTimerHeap.setEntry, Function.update_of_ne hx]
        exact hs.other x hx

/-- What a cancel makes of the heap. -/
structure CancelledEntry (ht : PjTimerHeap) (e : Nat) (ht' : PjTimerHeap) : Prop where
  inv : ∃ free', HeapInv ht' free'
  other : ∀ x, x ≠ e → ht'.entries x = ht.entries x
  perPoll : ht'.maxEntriesPerPoll = ht.maxEntriesPerPoll
  mem : ∀ x, ht'.InHeap x ↔ ht.InHeap x ∧ x ≠ e

/-- A cancel of an entry outside the heap takes its number away for good. -/
theorem CancelledEntry.of_out (hi : HeapInv ht free) (he : ¬ ht.InHeap e) :
    CancelledEntry ht e (ht.setEntry e { ht.entries e with timerId := -1 }) := by
  refine ⟨⟨free, hi.setEntry_out he (by simp)⟩, fun x hx => ?_, rfl, fun x => ?_⟩
  · simp [PjTimerHeap.setEntry, Function.update_of_ne hx]
  · show ht.InHeap x ↔ _
    exact ⟨fun h => ⟨h, fun hx => he (hx ▸ h)⟩, fun h => h.1⟩

/-- **`cancel`**: the number of an entry leads to the entry itself, so the assertion holds. -/
theorem cancel_spec (hi : HeapInv ht free) (e : Nat) (flags : CancelFlags)
    (hflags : flags.dontCall = true) :
    ∃ ht', cancel ht e flags = .ok (ht', if ht.InHeap e then 1 else 0) ∧
      CancelledEntry ht e ht' := by
  have hroom := hi.room
  by_cases he : ht.InHeap e
  · obtain ⟨slot, hs, rfl⟩ := he
    have hpos : 1 ≤ (ht.entries (ht.heap slot)).timerId := hi.accounted.numbered.pos slot hs
    have hlt : (ht.entries (ht.heap slot)).timerId < ht.maxSize :=
      hi.accounted.numbered.lt slot hs
    have hloc : ht.timerIds (ht.entries (ht.heap slot)).timerId = slot := hi.located slot hs
    obtain ⟨ht', hrun, hinv, hrm⟩ := removeNode_spec hi hs
    have hin : ht.InHeap (ht.heap slot) := ⟨slot, hs, rfl⟩
    have hb1 : ¬ ((ht.entries (ht.heap slot)).timerId < 0 ∨
        (ht.entries (ht.heap slot)).timerId > ht.maxSize) := by omega
    have hat := timerIdAt_ok hi.small (show 0 ≤ (ht.entries (ht.heap slot)).timerId by omega) hlt
    have hb3 : ¬ (slot : Int) < 0 := by omega
    refine ⟨ht', ?_, ⟨_, hinv⟩, fun x hx => ?_, hrm.perPoll, hrm.mem⟩
    · simp only [cancel, if_neg hb1, hat, hloc, bind, Except.bind, if_neg hb3,
        Int.toNat_natCast, heapAt_ok hi.small (show slot < ht.maxSize by omega), ne_eq,
        not_true_eq_false, if_false, hrun, hflags, Bool.true_eq_false, if_pos hin]
      rfl
    · rw [hrm.entries, Function.update_of_ne hx]
  · rw [if_neg he]
    have hnum : ¬ 1 ≤ (ht.entries e).timerId := fun h => he ((hi.active e).1 h)
    refine ⟨_, ?_, CancelledEntry.of_out hi he⟩
    by_cases hneg : (ht.entries e).timerId < 0
    · simp only [cancel, if_pos (Or.inl hneg)]
    · have h0 : (ht.entries e).timerId = 0 := by omega
      have hb1 : ¬ ((ht.entries e).timerId < 0 ∨ (ht.entries e).timerId > ht.maxSize) := by omega
      have hat := timerIdAt_ok hi.small (show 0 ≤ (ht.entries e).timerId by omega)
        (show (ht.entries e).timerId < ht.maxSize by omega)
      have hb3 : ht.timerIds (ht.entries e).timerId < 0 := by
        rw [h0]
        exact hi.accounted.zero
      simp only [cancel, if_neg hb1, hat, bind, Except.bind, if_pos hb3]
      rfl

theorem cancelTimer_spec (hi : HeapInv ht free) (e : Nat) (flags : CancelFlags) (idVal : Int) :
    ∃ ht', cancelTimer ht e flags idVal = .ok (ht', if ht.InHeap e then 1 else 0) ∧
      CancelledEntry ht e ht' := by
  obtain ⟨ht1, hrun, ⟨free1, hinv⟩, hother, hper, hmem⟩ :=
    cancel_spec hi e { flags with dontCall := true } rfl
  -- the writes after `cancel` are to fields of `e` that the heap does not read
  have fields : ∀ ht2 : PjTimerHeap, (∃ free2, HeapInv ht2 free2) →
      (∀ x, x ≠ e → ht2.entries x = ht.entries x) →
      ht2.maxEntriesPerPoll = ht.maxEntriesPerPoll →
      (∀ x, ht2.InHeap x ↔ ht.InHeap x ∧ x ≠ e) → ∀ g : Option Nat,
      CancelledEntry ht e (decRef (ht2.setEntry e { ht2.entries e with grpLock := none }) g) := by
    intro ht2 hf2 hother2 hper2 hmem2 g
    obtain ⟨free2, hi2⟩ := hf2
    have hinv2 := (hi2.setEntry_same (e := e) (x := { ht2.entries e with grpLock := none })
      rfl rfl rfl).decRef g
    refine ⟨⟨free2, hinv2⟩, fun x hx => ?_, ?_, fun x => ?_⟩
    · rw [decRef_eq]
      simp only [PjTimerHeap.setEntry, Function.update_of_ne hx]
      exact hother2 x hx
    · rw [decRef_eq]
      exact hper2
    · rw [decRef_eq]
      exact hmem2 x
  simp only [cancelTimer, hrun, bind, Except.bind]
  refine ⟨_, rfl, ?_⟩
  cases flags.setId
  · exact fields ht1 ⟨free1, hinv⟩ hother hper hmem _
  · refine fields (ht1.setEntry e { ht1.entries e with id := idVal })
      ⟨free1, hinv.setEntry_same rfl rfl rfl⟩ (fun x hx => ?_) hper hmem _
    simp only [PjTimerHeap.setEntry, Function.update_of_ne hx]
    exact hother x hx

/-! ## The history of an entry -/

/-- The entry an event is about. -/
def Event.entry : Event → Nat
  | .scheduled e _ => e
  | .cancelled e => e
  | .fired e _ _ => e

/-- Follow the events of one entry: `some true` while it is scheduled, `some false` while it is
not, and `none` from the first event on that does not fit: a second schedule, or a removal of an
entry that is not scheduled. -/
def Event.track : Option Bool → Event → Option Bool
  | some false, .scheduled _ _ => some true
  | some true, .cancelled _ => some false
  | some true, .fired _ _ _ => some false
  | _, _ => none

/-- What the events so far make of the entry `e`. -/
def historyOf (e : Nat) (log : List Event) : Option Bool :=
  (log.filter fun ev => ev.entry = e).foldl Event.track (some false)

theorem historyOf_snoc (e : Nat) (log : List Event) (ev : Event) :
    historyOf e (log ++ [ev]) =
      if ev.entry = e then ev.track (historyOf e log) else historyOf e log := by
  unfold historyOf
  rw [List.filter_append, List.foldl_append]
  by_cases he : ev.entry = e
  · simp [he]
  · simp [he]

/-- The expiry of a callback that was invoked. -/
def Event.firedAt : Event → Option PjTimeVal
  | .fired _ expires _ => some expires
  | _ => none

/-- The callback was not invoked before its time. -/
def Event.onTime : Event → Prop
  | .fired _ expires now => expires.lte now = true
  | _ => True

/-- The invariant of a timer heap together with the events so far. -/
structure SysInv (s : TimerSys) : Prop where
  heap : ∃ free, HeapInv s.ht free
  history : ∀ e, historyOf e s.log = some (decide (s.ht.InHeap e))
  onTime : ∀ ev ∈ s.log, ev.onTime

/-- What a call may do to the entries already there: take one out. -/
def Shrinks (ht ht' : PjTimerHeap) : Prop :=
  ∀ x, ht'.InHeap x → ht.InHeap x ∧ ht'.keyOf x = ht.keyOf x

theorem Shrinks.refl (ht : PjTimerHeap) : Shrinks ht ht := fun _ hx => ⟨hx, rfl⟩

theorem Shrinks.trans {ht'' : PjTimerHeap} (h1 : Shrinks ht ht') (h2 : Shrinks ht' ht'') :
    Shrinks ht ht'' := fun x hx =>
  ⟨(h1 x (h2 x hx).1).1, (h2 x hx).2.trans (h1 x (h2 x hx).1).2⟩

/-- What a call of a callback, or of a program, leaves. -/
structure Called (s s' : TimerSys) (quiet : Bool) : Prop where
  inv : SysInv s'
  perPoll : s'.ht.maxEntriesPerPoll = s.ht.maxEntriesPerPoll
  log : ∃ evs, s'.log = s.log ++ evs ∧ evs.filterMap Event.firedAt = []
  shrinks : quiet = true → Shrinks s.ht s'.ht

/-- The call schedules nothing. -/
def TimerCall.quiet : TimerCall → Bool
  | .schedule _ _ _ => false
  | .scheduleWGrpLock _ _ _ _ _ => false
  | .cancel _ => true
  | .cancelIfActive _ _ => true

theorem scheduleLogged_spec {s : TimerSys} (hs : SysInv s) (e : Nat) (clock : Tick)
    (delay : PjTimeVal) (idVal : Option Int) (grpLock : Option Nat) (hfits : s.ht.Fits e) :
    ∃ s', scheduleLogged s e clock delay idVal grpLock = .ok s' ∧ Called s s' false := by
  obtain ⟨free, hi⟩ := hs.heap
  obtain ⟨ht', status, hrun, h | ⟨hst, he, hinv, hsch⟩⟩ :=
    scheduleWGrpLock_spec hi e clock delay idVal grpLock hfits
  · refine ⟨s, ?_, hs, rfl, ⟨[], by simp, rfl⟩, fun h => by simp at h⟩
    simp only [scheduleLogged, hrun, bind, Except.bind, if_neg h.1, h.2]
    rfl
  · have hlog : scheduleLogged s e clock delay idVal grpLock =
        .ok ⟨ht', s.log ++ [.scheduled e (ht'.entries e).timerValue]⟩ := by
      simp only [scheduleLogged, hrun, bind, Except.bind, if_pos hst]
      rfl
    refine ⟨_, hlog, ⟨hinv, fun x => ?_, fun ev hev => ?_⟩, hsch.perPoll, ⟨_, rfl, rfl⟩,
      fun h => by simp at h⟩
    · rw [historyOf_snoc, hs.history x]
      by_cases hx : e = x
      · subst hx
        have hin : ht'.InHeap e := (hsch.mem e).2 (Or.inr rfl)
        simp [Event.entry, Event.track, he, hin]
      · have hiff : ht'.InHeap x ↔ s.ht.InHeap x := by
          rw [hsch.mem x]
          exact ⟨fun h => h.resolve_right fun h' => hx h'.symm, Or.inl⟩
        simp [Event.entry, hx, hiff]
    · rcases List.mem_append.1 hev with h | h
      · exact hs.onTime ev h
      · rw [List.mem_singleton.1 h]
        trivial

theorem cancelLogged_spec {s : TimerSys} (hs : SysInv s) (e : Nat) (flags : CancelFlags)
    (idVal : Int) :
    ∃ s', cancelLogged s e (cancelTimer s.ht e flags idVal) = .ok s' ∧ Called s s' true := by
  obtain ⟨free, hi⟩ := hs.heap
  obtain ⟨ht', hrun, hc⟩ := cancelTimer_spec hi e flags idVal
  have hshr : Shrinks s.ht ht' := by
    intro x hx
    obtain ⟨h1, h2⟩ := (hc.mem x).1 hx
    exact ⟨h1, by rw [PjTimerHeap.keyOf, hc.other x h2]; rfl⟩
  have hiff : ∀ x, x ≠ e → (ht'.InHeap x ↔ s.ht.InHeap x) := by
    intro x hx
    rw [hc.mem x]
    exact ⟨fun h => h.1, fun h => ⟨h, hx⟩⟩
  have hout : ¬ ht'.InHeap e := fun h => ((hc.mem e).1 h).2 rfl
  rw [hrun]
  by_cases he : s.ht.InHeap e
  · have hlog : cancelLogged s e (.ok (ht', if s.ht.InHeap e then 1 else 0)) =
        .ok ⟨ht', s.log ++ [.cancelled e]⟩ := by
      simp only [cancelLogged, bind, Except.bind, if_pos he, if_true]
      rfl
    refine ⟨_, hlog, ⟨hc.inv, fun x => ?_, fun ev hev => ?_⟩, hc.perPoll, ⟨_, rfl, rfl⟩,
      fun _ => hshr⟩
    · rw [historyOf_snoc, hs.history x]
      by_cases hx : e = x
      · subst hx
        simp [Event.entry, Event.track, he, hout]
      · simp [Event.entry, hx, hiff x (Ne.symm hx)]
    · rcases List.mem_append.1 hev with h | h
      · exact hs.onTime ev h
      · rw [List.mem_singleton.1 h]
        trivial
  · have hlog : cancelLogged s e (.ok (ht', if s.ht.InHeap e then 1 else 0)) =
        .ok ⟨ht', s.log⟩ := by
      simp only [cancelLogged, bind, Except.bind, if_neg he]
      rfl
    refine ⟨_, hlog, ⟨hc.inv, fun x => ?_, hs.onTime⟩, hc.perPoll, ⟨[], by simp, rfl⟩,
      fun _ => hshr⟩
    rw [hs.history x]
    by_cases hx : x = e
    · subst hx
      simp [he, hout]
    · simp [hiff x hx]

/-- The entry of a call, if the call is a schedule, finds room. -/
def CallFits (s : TimerSys) : TimerCall → Prop
  | .schedule entry _ _ => s.ht.Fits entry
  | .scheduleWGrpLock entry _ _ _ _ => s.ht.Fits entry
  | .cancel _ => True
  | .cancelIfActive _ _ => True

instance CallFits.decidable (s : TimerSys) : ∀ c, Decidable (CallFits s c)
  | .schedule entry _ _ => inferInstanceAs (Decidable (s.ht.Fits entry))
  | .scheduleWGrpLock entry _ _ _ _ => inferInstanceAs (Decidable (s.ht.Fits entry))
  | .cancel _ => isTrue trivial
  | .cancelIfActive _ _ => isTrue trivial

/-- **One call** keeps the invariant. -/
theorem timerCall_spec {s : TimerSys} (hs : SysInv s) (c : TimerCall) (hfits : CallFits s c) :
    ∃ s', timerCall s c = .ok s' ∧ Called s s' c.quiet := by
  cases c with
  | schedule entry clock delay => exact scheduleLogged_spec hs entry clock delay none none hfits
  | scheduleWGrpLock entry clock delay idVal grpLock =>
      exact scheduleLogged_spec hs entry clock delay (some idVal) grpLock hfits
  | cancel entry => exact cancelLogged_spec hs entry _ _
  | cancelIfActive entry idVal => exact cancelLogged_spec hs entry _ _

/-- The calls of a callback keep the invariant. -/
theorem timerCalls_spec : ∀ (l : List TimerCall) (s : TimerSys), SysInv s →
    Meets timerCall CallFits s l →
    ∃ s', timerCalls s l = .ok s' ∧ Called s s' (l.all TimerCall.quiet)
  | [], s, hs, _ => ⟨s, rfl, hs, rfl, ⟨[], by simp, rfl⟩, fun _ => Shrinks.refl _⟩
  | c :: l, s, hs, hm => by
      obtain ⟨s1, hrun1, h1⟩ := timerCall_spec hs c hm.1
      obtain ⟨s2, hrun2, h2⟩ := timerCalls_spec l s1 h1.inv (hm.2 s1 hrun1)
      obtain ⟨evs1, hevs1, hf1⟩ := h1.log
      obtain ⟨evs2, hevs2, hf2⟩ := h2.log
      refine ⟨s2, ?_, h2.inv, h2.perPoll.trans h1.perPoll, ⟨evs1 ++ evs2, ?_, ?_⟩, fun hq => ?_⟩
      · rw [timerCalls, hrun1]
        exact hrun2
      · rw [hevs2, hevs1, List.append_assoc]
      · rw [List.filterMap_append, hf1, hf2, List.append_nil]
      · rw [List.all_cons, Bool.and_eq_true] at hq
        exact (h1.shrinks hq.1).trans (h2.shrinks hq.2)

end Timer

/-! ## A timer entry as its owner sees it

The owner of a `pj_timer_entry` knows its `id`, which it is free to use, and whether the entry is
scheduled. `Entry` is this view. The operations on it are those of the timer heap:
`entryOf_schedule` and `entryOf_cancelIfActive` say so.
-/

namespace Timer

/-- A timer entry: its `id` and `pj_timer_entry_running`. -/
@[ext] structure Entry where
  id : Int
  running : Bool
  deriving DecidableEq

/-- An entry that has not been scheduled. -/
def Entry.idle (id : Int) : Entry := ⟨id, false⟩

/-- `pj_timer_heap_schedule_w_grp_lock`: an entry that is scheduled already is refused. -/
def Entry.schedule (e : Entry) (id : Int) : Entry × Bool :=
  if e.running then (e, false) else (⟨id, true⟩, true)

/-- `pj_timer_heap_cancel_if_active`. -/
def Entry.cancelIfActive (_ : Entry) (id : Int) : Entry := ⟨id, false⟩

/-- `pj_timer_heap_poll` takes the entry out of the heap before its callback is called. -/
def Entry.fired (e : Entry) : Entry := { e with running := false }

@[simp] theorem Entry.schedule_idle (e : Entry) (id : Int) (h : e.running = false) :
    e.schedule id = (⟨id, true⟩, true) := by
  simp [Entry.schedule, h]

/-! ## The entries of a heap -/

variable {ht : PjTimerHeap} {free : List Int}

/-- The view of an entry of the heap. -/
def entryOf (ht : PjTimerHeap) (e : Nat) : Entry :=
  ⟨(ht.entries e).id, decide (1 ≤ (ht.entries e).timerId)⟩

theorem running_entryOf (hi : HeapInv ht free) (e : Nat) :
    (entryOf ht e).running = true ↔ ht.InHeap e := by
  rw [← hi.active e]
  exact decide_eq_true_iff

/-- A schedule that succeeds sets the `id`. -/
theorem id_of_schedule {ht' : PjTimerHeap} {e : Nat} {clock : Tick} {delay : PjTimeVal} {id : Int}
    {grpLock : Option Nat}
    (h : scheduleWGrpLock ht e clock delay (some id) grpLock = .ok (ht', .success)) :
    (ht'.entries e).id = id := by
  unfold scheduleWGrpLock at h
  split_ifs at h with hcb hid
  · cases h
  · cases h
  · simp only [bind, Except.bind] at h
    cases hr : scheduleEntry ht e (clock.val.add delay) with
    | error f =>
        rw [hr] at h
        cases h
    | ok r =>
        rcases r with ⟨ht1, st⟩
        simp only [hr] at h
        split_ifs at h with hst
        · cases h
          rw [addRef_eq]
          simp [PjTimerHeap.setEntry]
        · cases h
          exact absurd rfl hst

/-- A cancel sets the `id`. -/
theorem id_of_cancel {ht' : PjTimerHeap} {e count : Nat} {id : Int}
    (h : pjTimerHeapCancelIfActive ht e id = .ok (ht', count)) : (ht'.entries e).id = id := by
  unfold pjTimerHeapCancelIfActive cancelTimer at h
  cases hr : cancel ht e { dontCall := true, dontAssert := true, setId := true } with
  | error f =>
      rw [hr] at h
      cases h
  | ok r =>
      rw [hr] at h
      cases h
      rw [decRef_eq]
      simp [PjTimerHeap.setEntry]

/-- A schedule of an entry with a callback. -/
theorem entryOf_schedule (hi : HeapInv ht free) (e : Nat) (clock : Tick) (delay : PjTimeVal)
    (id : Int) (grpLock : Option Nat) (hcb : (ht.entries e).cb = true) (hfits : ht.Fits e) :
    ∃ ht' status, scheduleWGrpLock ht e clock delay (some id) grpLock = .ok (ht', status) ∧
      ((entryOf ht e).schedule id).1 = entryOf ht' e ∧
      (((entryOf ht e).schedule id).2 = true ↔ status = .success) := by
  rcases scheduleWGrpLock_spec hi e clock delay (some id) grpLock hfits with ⟨ht', status, hrun, hres⟩
  refine ⟨ht', status, hrun, ?_⟩
  rcases hres with ⟨hne, rfl⟩ | ⟨rfl, hout, ⟨free', hinv⟩, hs⟩
  · -- The call is refused, so the entry is scheduled already.
    have hid : 1 ≤ (ht'.entries e).timerId := by
      by_contra hid
      apply hne
      unfold scheduleWGrpLock at hrun
      have he : ¬ ht'.InHeap e := fun h => hid ((hi.active e).2 h)
      rcases scheduleEntry_spec hi he hcb (PjTimeVal.add_normal clock.val delay)
        (hfits hcb (by omega)) with ⟨ht1, free1, hrun1, -, -⟩
      rw [if_neg (by simp [hcb]), if_neg hid] at hrun
      simp only [bind, Except.bind, hrun1, if_true] at hrun
      cases hrun
      rfl
    have hrunning : (entryOf ht' e).running = true := decide_eq_true hid
    unfold Entry.schedule
    rw [if_pos hrunning]
    exact ⟨rfl, by simp [hne]⟩
  · have hidle : (entryOf ht e).running = false := by
      rw [Bool.eq_false_iff]
      exact fun h => hout ((running_entryOf hi e).mp h)
    have hin : (entryOf ht' e).running = true := (running_entryOf hinv e).mpr ((hs.mem e).mpr (Or.inr rfl))
    rw [Entry.schedule_idle _ id hidle]
    refine ⟨?_, by simp⟩
    unfold entryOf at hin ⊢
    rw [id_of_schedule hrun]
    exact congrArg (Entry.mk id) hin.symm

/-- A cancel. -/
theorem entryOf_cancelIfActive (hi : HeapInv ht free) (e : Nat) (id : Int) :
    ∃ ht' count, pjTimerHeapCancelIfActive ht e id = .ok (ht', count) ∧
      (entryOf ht e).cancelIfActive id = entryOf ht' e := by
  rcases cancelTimer_spec hi e { dontCall := false, dontAssert := true, setId := true } id with
    ⟨ht', hrun, ⟨free', hinv⟩, -, -, hmem⟩
  refine ⟨ht', _, hrun, ?_⟩
  have hout : (entryOf ht' e).running = false := by
    rw [Bool.eq_false_iff]
    exact fun h => ((hmem e).mp ((running_entryOf hinv e).mp h)).2 rfl
  unfold entryOf at hout ⊢
  rw [id_of_cancel hrun]
  exact congrArg (Entry.mk id) hout.symm

end Timer
