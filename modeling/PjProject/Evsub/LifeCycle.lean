import PjProject.Evsub.Subscription

set_option autoImplicit false

/-! # The life of a subscription

`life_cycle`: in a run whose steps are all `Orderly`, a subscription that has terminated stays so,
`pending_tsx` counts the attached transactions that have not terminated, `evsub_destroy` runs once and
only at the end, and no timer fires behind the termination. `Orderly` is what the code takes for
granted: a transaction does not end while a report of it is being handled, the last one does not end
while the application is told of the termination, and nothing that is still under way when the
subscription terminates sets the state or the timer again.
-/

namespace Evsub

open Reentry (Frame Conf)

/-! ## What is under way -/

/-- The transaction whose report is being handled. -/
def Frame.tsx : Frame Task → Option Nat
  | .code (.handle r) => some r.tsx
  | .code (.reportEnd t) => some t
  | _ => none

/-- The subscription has just terminated, and the application is told so. -/
def Frame.cleans : Frame Task → Bool
  | .code (.stateDone prev state) => state = .terminated && prev ≠ .terminated
  | _ => false

/-- The state that a request to refresh may be answered back to. -/
def Frame.old : Frame Task → Option State
  | .code (.uasRefreshCode old _) => some old
  | .code (.uasRefreshAnswered old _ _) => some old
  | _ => none

/-- The transactions whose reports are being handled. -/
def busy (stack : List (Frame Task)) : List Nat := stack.filterMap Frame.tsx

/-- The termination is not complete: timer and subscription are still to be disposed of. -/
def cleanings (stack : List (Frame Task)) : Nat := stack.countP Frame.cleans

/-- The attached transactions that have not terminated, or whose termination is being handled. -/
def live (w : World) (stack : List (Frame Task)) : List Nat :=
  w.attached.filter fun t => decide ((w.tsx t).state ≠ .terminated ∨ t ∈ busy stack)

/-- A frame that says nothing of these. -/
structure Plain (f : Frame Task) : Prop where
  tsx : Frame.tsx f = none
  cleans : Frame.cleans f = false
  old : Frame.old f = none

theorem plain_outside : Plain .outside := ⟨rfl, rfl, rfl⟩

section

variable {f : Frame Task} {stack : List (Frame Task)}

theorem busy_cons_plain (h : Plain f) : busy (f :: stack) = busy stack :=
  List.filterMap_cons_none h.tsx

theorem cleanings_cons_plain (h : Plain f) : cleanings (f :: stack) = cleanings stack :=
  List.countP_cons_of_neg (by simp [h.cleans])

theorem live_cons_plain (h : Plain f) (w : World) : live w (f :: stack) = live w stack := by
  unfold live
  rw [busy_cons_plain h]

end

/-! ## The invariant -/

/-- What holds all along. -/
structure Inv (w : World) (stack : List (Frame Task)) : Prop where
  counted : w.sub.pendingTsx = (live w stack).length
  /-- A transaction that has terminated reports no more. -/
  once : ∀ t, (w.tsx t).state = .terminated → (busy stack).count t ≤ 1
  busy_attached : ∀ t ∈ busy stack, t ∈ w.attached
  nodup : w.attached.Nodup
  one_cleaning : cleanings stack ≤ 1
  cleaning : 0 < cleanings stack → w.sub.state = .terminated ∧ w.destroyed = 0
  destroyed : w.destroyed = 0 ∨
    w.destroyed = 1 ∧ w.sub.state = .terminated ∧ w.sub.pendingTsx = 0
  /-- The timer is stopped with the termination. -/
  timer : w.sub.state = .terminated → w.sub.timerId ≠ .none → 0 < cleanings stack
  ended : w.sub.state = .terminated → w.sub.pendingTsx = 0 →
    w.destroyed = 1 ∨ 0 < cleanings stack
  old : ∀ f ∈ stack, Frame.old f = some .terminated → w.sub.state = .terminated
  entry : TimerOk w
  fired : ∀ f ∈ w.fired, f.2 ≠ .terminated

/-- Two worlds that do not differ in what the invariant speaks of. -/
structure Alike (w w' : World) : Prop where
  state : w'.sub.state = w.sub.state
  timer : w'.sub.timerId = w.sub.timerId
  pending : w'.sub.pendingTsx = w.sub.pendingTsx
  heap : w'.heap = w.heap
  tsx : w'.tsx = w.tsx
  attached : w'.attached = w.attached
  destroyed : w'.destroyed = w.destroyed
  fired : w'.fired = w.fired

variable {w w' : World} {stack rest : List (Frame Task)}

theorem Inv.alike (h : Inv w stack) (ha : Alike w w') : Inv w' stack := by
  rcases ha with ⟨hs, ht, hp, hh, hx, hat, hd, hf⟩
  have hlive : live w' stack = live w stack := by
    unfold live
    rw [hx, hat]
  constructor
  · rw [hp, hlive]
    exact h.counted
  · rw [hx]
    exact h.once
  · rw [hat]
    exact h.busy_attached
  · rw [hat]
    exact h.nodup
  · exact h.one_cleaning
  · rw [hs, hd]
    exact h.cleaning
  · rw [hs, hd, hp]
    exact h.destroyed
  · rw [hs, ht]
    exact h.timer
  · rw [hs, hd, hp]
    exact h.ended
  · rw [hs]
    exact h.old
  · constructor
    · rw [hh]
      exact h.entry.once
    · rw [hh, ht]
      exact h.entry.pending
  · rw [hf]
    exact h.fired

/-- A frame that says nothing can be put on the stack, and taken off. -/
theorem inv_cons_plain {f : Frame Task} (hf : Plain f) : Inv w (f :: stack) ↔ Inv w stack := by
  have hb : busy (f :: stack) = busy stack := busy_cons_plain hf
  have hc : cleanings (f :: stack) = cleanings stack := cleanings_cons_plain hf
  have hl : live w (f :: stack) = live w stack := live_cons_plain hf w
  constructor
  · intro h
    exact ⟨hl ▸ h.counted, hb ▸ h.once, hb ▸ h.busy_attached, h.nodup, hc ▸ h.one_cleaning,
      hc ▸ h.cleaning, h.destroyed, hc ▸ h.timer, hc ▸ h.ended,
      fun g hg => h.old g (List.mem_cons_of_mem f hg), h.entry, h.fired⟩
  · intro h
    refine ⟨hl.symm ▸ h.counted, hb.symm ▸ h.once, hb.symm ▸ h.busy_attached, h.nodup,
      hc.symm ▸ h.one_cleaning, hc.symm ▸ h.cleaning, h.destroyed, hc.symm ▸ h.timer,
      hc.symm ▸ h.ended, ?_, h.entry, h.fired⟩
    intro g hg hold
    rcases List.mem_cons.mp hg with rfl | hg
    · rw [hf.old] at hold
      cases hold
    · exact h.old g hg hold

/-! ## What one piece of code leaves -/

/-- A piece of code that is taken in `w` over `rest` keeps the invariant, and a termination. -/
structure Safe (w : World) (rest : List (Frame Task)) (o : Out) : Prop where
  inv : Inv o.1 (o.2 ++ rest)
  stays : w.sub.state = .terminated → o.1.sub.state = .terminated

variable {o : Out}

theorem Inv.safe_done (h : Inv w rest) : Safe w rest (done w) := ⟨h, id⟩

/-- The piece is taken in a world in which the termination is kept. -/
theorem Safe.from (h : Safe w' rest o) (hs : w'.sub.state = w.sub.state) : Safe w rest o :=
  ⟨h.inv, fun ht => h.stays (hs.trans ht)⟩

theorem Safe.andThen {t : Task} (h : Safe w (.code t :: rest) o) : Safe w rest (o.andThen t) := by
  refine ⟨?_, h.stays⟩
  have hinv := h.inv
  rw [List.append_cons] at hinv
  exact hinv

theorem Inv.safe_callOut {t : Task} (h : Inv w (.code t :: rest)) : Safe w rest (callOut t w) :=
  ⟨(inv_cons_plain plain_outside).mpr h, id⟩

theorem Inv.safe_callIf {t : Task} (c : Bool) (h : Inv w (.code t :: rest)) :
    Safe w rest (callIf c t w) := by
  cases c with
  | true => exact h.safe_callOut
  | false => exact ⟨h, id⟩

/-- A call out behind which nothing is said. -/
theorem Inv.safe_plain {t : Task} (h : Inv w rest) (ht : Plain (.code t)) :
    Safe w rest (callOut t w) :=
  Inv.safe_callOut ((inv_cons_plain ht).mpr h)

/-! ### The timer -/

/-- The timer is not set behind the termination. -/
theorem Inv.keep_setTimer (h : Inv w stack) {id : TimerId} (hid : w.sub.state = .terminated → id = .none)
    (seconds : Int) : Inv (setTimer id seconds w) stack := by
  have hentry := h.entry.setTimer id seconds
  have htimer := (setTimer_heap h.entry id seconds).2
  rcases setTimer_frame id seconds w with ⟨heap, id', asked, heq⟩
  rw [heq] at hentry htimer ⊢
  refine ⟨h.counted, h.once, h.busy_attached, h.nodup, h.one_cleaning, h.cleaning, h.destroyed, ?_,
    h.ended, h.old, hentry, h.fired⟩
  intro hs hne
  refine absurd ?_ hne
  dsimp only at htimer ⊢
  rw [htimer, if_neg]
  exact fun hc => hc.1 (hid hs)

theorem setTimer_state (id : TimerId) (seconds : Int) (w : World) :
    (setTimer id seconds w).sub.state = w.sub.state := by
  rcases setTimer_frame id seconds w with ⟨heap, id', asked, heq⟩
  rw [heq]

theorem Inv.safe_setTimer (h : Inv w rest) {id : TimerId} (hs : w.sub.state ≠ .terminated)
    (seconds : Int) : Safe w rest (done (setTimer id seconds w)) :=
  (h.keep_setTimer (fun hc => absurd hc hs) seconds).safe_done.from (setTimer_state id seconds w)

/-! ### The state -/

theorem cleanings_cons (f : Frame Task) (stack : List (Frame Task)) :
    cleanings (f :: stack) = cleanings stack + if Frame.cleans f then 1 else 0 := List.countP_cons

theorem old_stateDone (prev state : State) : Frame.old (.code (.stateDone prev state)) = none := rfl

/-- **Setting the state** keeps the invariant, unless it brings the subscription back. -/
theorem Inv.safe_setState (h : Inv w rest) {state : State}
    (hstate : w.sub.state = .terminated → state = .terminated) :
    Safe w rest (setState state w) := by
  refine ⟨?_, fun ht => ?_⟩
  · -- The callback makes no difference.
    suffices hinv : Inv (w.setSub fun s => { s with state := state })
        (.code (.stateDone w.sub.state state) :: rest) from (hinv.safe_callIf _).inv
    by_cases ht : w.sub.state = .terminated
    · have hplain : Plain (.code (.stateDone w.sub.state state)) := by
        refine ⟨rfl, ?_, rfl⟩
        simp [Frame.cleans, ht]
      refine (inv_cons_plain hplain).mpr (h.alike ⟨?_, rfl, rfl, rfl, rfl, rfl, rfl, rfl⟩)
      exact (hstate ht).trans ht.symm
    · have hnone : cleanings rest = 0 := by
        by_contra hc
        exact ht (h.cleaning (Nat.pos_of_ne_zero hc)).1
      have hdestroyed : w.destroyed = 0 := by
        rcases h.destroyed with h0 | h1
        · exact h0
        · exact absurd h1.2.1 ht
      have hcount : cleanings (.code (.stateDone w.sub.state state) :: rest) =
          if state = .terminated then 1 else 0 := by
        rw [cleanings_cons, hnone]
        simp [Frame.cleans, ht]
      refine ⟨h.counted, h.once, h.busy_attached, h.nodup, ?_, ?_, Or.inl hdestroyed, ?_, ?_, ?_,
        ⟨h.entry.once, h.entry.pending⟩, h.fired⟩
      · rw [hcount]
        split <;> omega
      · rw [hcount]
        intro hpos
        by_cases hs : state = .terminated
        · exact ⟨hs, hdestroyed⟩
        · rw [if_neg hs] at hpos
          cases hpos
      · intro hs _
        rw [hcount, if_pos (show state = .terminated from hs)]
        exact Nat.one_pos
      · intro hs _
        rw [hcount, if_pos (show state = .terminated from hs)]
        exact Or.inr Nat.one_pos
      · intro f hf hold
        rcases List.mem_cons.mp hf with rfl | hf
        · rw [old_stateDone] at hold
          cases hold
        · exact absurd (h.old f hf hold) ht
  · have hs : (setState state w).1.sub.state = state := by
      unfold setState callIf
      dsimp only
      split <;> rfl
    exact hs.trans (hstate ht)

/-- The subscription can always be terminated. -/
theorem Inv.safe_terminate (h : Inv w rest) : Safe w rest (setState .terminated w) :=
  h.safe_setState fun _ => rfl

/-- `evsub_destroy` runs at the end, for the first time. It does what was still to be done. -/
theorem inv_evsubDestroy (hs : w.sub.state = .terminated) (hp : w.sub.pendingTsx = 0)
    (hd : w.destroyed = 0) (hc : cleanings stack = 0) (hlive : (live w stack).length = 0)
    (honce : ∀ t, (w.tsx t).state = .terminated → (busy stack).count t ≤ 1)
    (hattached : ∀ t ∈ busy stack, t ∈ w.attached) (hnodup : w.attached.Nodup)
    (hentry : TimerOk w) (hfired : ∀ f ∈ w.fired, f.2 ≠ .terminated) :
    Inv (evsubDestroy w) stack := by
  have hset := hentry.setTimer .none 0
  have hid := (setTimer_heap hentry .none 0).2
  rcases setTimer_frame .none 0 w with ⟨heap, id, asked, heq⟩
  unfold evsubDestroy
  rw [heq] at hset hid ⊢
  constructor
  · show w.sub.pendingTsx = ((live w stack).length : Int)
    rw [hp, hlive]
    rfl
  · exact honce
  · exact hattached
  · exact hnodup
  · omega
  · intro hpos
    omega
  · refine Or.inr ⟨?_, hs, hp⟩
    show w.destroyed + 1 = 1
    omega
  · intro _ hne
    exact absurd hid hne
  · intro _ _
    refine Or.inl ?_
    show w.destroyed + 1 = 1
    omega
  · exact fun _ _ _ => hs
  · exact ⟨hset.once, hset.pending⟩
  · exact hfired

theorem evsubDestroy_state (w : World) : (evsubDestroy w).sub.state = w.sub.state :=
  setTimer_state .none 0 w

theorem cleanings_tail {f : Frame Task} (h : Inv w (f :: rest)) (hf : Frame.cleans f = true) :
    cleanings rest = 0 := by
  have hone := h.one_cleaning
  rw [cleanings_cons, if_pos hf] at hone
  omega

/-- A frame without a transaction can be taken off when nothing is cleaned up for it any more. -/
theorem Inv.drop {f : Frame Task} (h : Inv w (f :: rest)) (htsx : Frame.tsx f = none)
    (htimer : w.sub.state = .terminated → w.sub.timerId ≠ .none → 0 < cleanings rest)
    (hended : w.sub.state = .terminated → w.sub.pendingTsx = 0 →
      w.destroyed = 1 ∨ 0 < cleanings rest) : Inv w rest := by
  have hbusy : busy (f :: rest) = busy rest := List.filterMap_cons_none htsx
  have hlive : live w (f :: rest) = live w rest := by
    unfold live
    rw [hbusy]
  have hle : cleanings rest ≤ cleanings (f :: rest) := by
    rw [cleanings_cons]
    omega
  exact ⟨hlive ▸ h.counted, hbusy ▸ h.once, hbusy ▸ h.busy_attached, h.nodup,
    hle.trans h.one_cleaning, fun hpos => h.cleaning (hpos.trans_le hle), h.destroyed, htimer, hended,
    fun g hg => h.old g (List.mem_cons_of_mem f hg), h.entry, h.fired⟩

/-- Behind the callback of a termination, the timer is stopped and the subscription is destroyed if
no transaction is pending. -/
theorem Inv.safe_stateDone {prev state : State}
    (h : Inv w (.code (.stateDone prev state) :: rest)) : Safe w rest (stateDone prev state w) := by
  unfold stateDone
  by_cases hc : state = .terminated ∧ prev ≠ .terminated
  · have hcleans : Frame.cleans (.code (.stateDone prev state)) = true := by
      simp [Frame.cleans, hc.1, hc.2]
    have hpos : 0 < cleanings (.code (.stateDone prev state) :: rest) := by
      rw [cleanings_cons, if_pos hcleans]
      omega
    have hrest := cleanings_tail h hcleans
    rcases h.cleaning hpos with ⟨hs, hd⟩
    have hset : Inv (setTimer .none 0 w) (.code (.stateDone prev state) :: rest) :=
      h.keep_setTimer (fun _ => rfl) 0
    have hnone : (setTimer .none 0 w).sub.timerId = .none := (setTimer_heap h.entry .none 0).2
    rw [if_pos hc]
    dsimp only
    split
    · rename_i hp
      have hdestroy : Inv (evsubDestroy (setTimer .none 0 w)) rest := by
        have hlive : (live (setTimer .none 0 w) rest).length = 0 := by
          have hcounted := hset.counted
          rw [hp] at hcounted
          exact Int.ofNat.inj hcounted.symm
        have hd' : (setTimer .none 0 w).destroyed = 0 := by
          rcases setTimer_frame .none 0 w with ⟨heap, id, asked, heq⟩
          rw [heq]
          exact hd
        exact inv_evsubDestroy ((setTimer_state .none 0 w).trans hs) hp hd' hrest hlive hset.once
          hset.busy_attached hset.nodup hset.entry hset.fired
      exact hdestroy.safe_done.from ((evsubDestroy_state _).trans (setTimer_state _ _ _))
    · rename_i hp
      have hdrop : Inv (setTimer .none 0 w) rest :=
        hset.drop rfl (fun _ hne => absurd hnone hne) fun _ h0 => absurd h0 hp
      exact hdrop.safe_done.from (setTimer_state _ _ _)
  · have hplain : Plain (.code (.stateDone prev state)) := by
      refine ⟨rfl, ?_, rfl⟩
      simp only [Frame.cleans, Bool.and_eq_false_iff, decide_eq_false_iff_not]
      by_cases hst : state = .terminated
      · exact Or.inr fun hprev => hc ⟨hst, hprev⟩
      · exact Or.inl hst
    rw [if_neg hc]
    exact ((inv_cons_plain hplain).mp h).safe_done

/-! ### Reports -/

theorem length_filter_erase {p q : Nat → Bool} {t : Nat} {l : List Nat} (hnodup : l.Nodup)
    (hmem : t ∈ l) (hp : p t = true) (hq : q t = false) (hother : ∀ u, u ≠ t → p u = q u) :
    (l.filter p).length = (l.filter q).length + 1 := by
  induction l with
  | nil => cases hmem
  | cons u l ih =>
      rw [List.nodup_cons] at hnodup
      by_cases hu : u = t
      · rw [hu, List.filter_cons_of_pos hp, List.filter_cons_of_neg (by simp [hq]), List.length_cons]
        have hsame : l.filter p = l.filter q := by
          refine List.filter_congr fun v hv => hother v ?_
          rintro rfl
          exact hnodup.1 (hu ▸ hv)
        rw [hsame]
      · have hmem' : t ∈ l := (List.mem_cons.mp hmem).resolve_left (Ne.symm hu)
        have hrec := ih hnodup.2 hmem'
        have hpq := hother u hu
        by_cases hpu : p u = true
        · rw [List.filter_cons_of_pos hpu, List.filter_cons_of_pos (hpq ▸ hpu), List.length_cons,
            List.length_cons, hrec]
        · rw [List.filter_cons_of_neg hpu, List.filter_cons_of_neg (hpq ▸ hpu), hrec]

/-- The handler is followed by the end of the report. -/
theorem Inv.handled {r : Report} (h : Inv w (.code (.handle r) :: rest)) :
    Inv w (.code (.reportEnd r.tsx) :: rest) := by
  refine ⟨h.counted, h.once, h.busy_attached, h.nodup, h.one_cleaning, h.cleaning, h.destroyed,
    h.timer, h.ended, ?_, h.entry, h.fired⟩
  intro f hf hold
  rcases List.mem_cons.mp hf with rfl | hf
  · cases hold
  · exact h.old f (List.mem_cons_of_mem _ hf) hold

theorem busy_reportEnd (t : Nat) : busy (.code (.reportEnd t) :: rest) = t :: busy rest := rfl

/-- The end of a report counts a transaction that has terminated, and destroys a subscription of
which that was the last one. -/
theorem Inv.safe_reportEnd {t : Nat} (h : Inv w (.code (.reportEnd t) :: rest))
    (hok : (w.tsx t).state = .terminated → 0 < cleanings rest → w.sub.pendingTsx ≠ 1) :
    Safe w rest (reportEnd t w) := by
  have hcleanings : cleanings (.code (.reportEnd t) :: rest) = cleanings rest := rfl
  have hmem : t ∈ w.attached := h.busy_attached t (by simp [busy_reportEnd])
  have hattached : ∀ u ∈ busy rest, u ∈ w.attached :=
    fun u hu => h.busy_attached u (List.mem_cons_of_mem t hu)
  have honce : ∀ u, (w.tsx u).state = .terminated → (busy rest).count u ≤ 1 := by
    intro u hu
    exact (List.count_le_count_cons).trans (h.once u hu)
  have hold : ∀ f ∈ rest, Frame.old f = some .terminated → w.sub.state = .terminated :=
    fun f hf => h.old f (List.mem_cons_of_mem _ hf)
  unfold reportEnd
  by_cases ht : (w.tsx t).state = .terminated
  · -- The frame is the only one of the transaction.
    have hnot : t ∉ busy rest := by
      intro hin
      have hcount := h.once t ht
      rw [busy_reportEnd, List.count_cons_self] at hcount
      have := List.count_pos_iff.mpr hin
      omega
    have hlive : (live w (.code (.reportEnd t) :: rest)).length = (live w rest).length + 1 := by
      refine length_filter_erase h.nodup hmem ?_ ?_ fun u hu => ?_
      · simp [busy_reportEnd]
      · simp [ht, hnot]
      · simp [busy_reportEnd, hu]
    have hcounted := h.counted
    rw [hlive] at hcounted
    have hd : w.destroyed = 0 := by
      rcases h.destroyed with h0 | h1
      · exact h0
      · have := h1.2.2
        omega
    rw [if_pos ht]
    dsimp only
    split
    · rename_i hend
      obtain ⟨hs, hp⟩ : w.sub.state = .terminated ∧ w.sub.pendingTsx - 1 = 0 := hend
      have hclean : cleanings rest = 0 := by
        by_contra hc
        exact hok ht (Nat.pos_of_ne_zero hc) (by omega)
      have hinv : Inv (evsubDestroy (w.setSub fun s => { s with pendingTsx := s.pendingTsx - 1 })) rest := by
        have hlive0 : (live w rest).length = 0 := by omega
        exact inv_evsubDestroy hs hp hd hclean hlive0 honce hattached h.nodup
          ⟨h.entry.once, h.entry.pending⟩ h.fired
      exact hinv.safe_done.from (evsubDestroy_state _)
    · rename_i hend
      have hinv : Inv (w.setSub fun s => { s with pendingTsx := s.pendingTsx - 1 }) rest := by
        refine ⟨?_, honce, hattached, h.nodup, h.one_cleaning, h.cleaning, Or.inl hd, h.timer, ?_, hold,
          ⟨h.entry.once, h.entry.pending⟩, h.fired⟩
        · show w.sub.pendingTsx - 1 = ((live w rest).length : Int)
          omega
        · intro hs hp
          exact absurd ⟨hs, hp⟩ hend
      exact hinv.safe_done.from rfl
  · have hlive : live w (.code (.reportEnd t) :: rest) = live w rest := by
      refine List.filter_congr fun u _ => ?_
      rw [busy_reportEnd]
      by_cases hu : u = t
      · simp [hu, ht]
      · simp [hu]
    rw [if_neg ht]
    have hinv : Inv w rest :=
      ⟨hlive ▸ h.counted, honce, hattached, h.nodup, h.one_cleaning, h.cleaning, h.destroyed, h.timer,
        h.ended, hold, h.entry, h.fired⟩
    exact hinv.safe_done

/-- The transaction has entered a state. -/
def enter (r : Report) (w : World) : World :=
  let t := w.tsx r.tsx
  { w with
    tsx := Function.update w.tsx r.tsx { t with state := r.state, statusCode := r.statusCode } }

theorem enter_self (r : Report) (w : World) : ((enter r w).tsx r.tsx).state = r.state := by
  simp [enter]

theorem enter_other {r : Report} {t : Nat} (h : t ≠ r.tsx) (w : World) :
    (enter r w).tsx t = w.tsx t := by
  simp [enter, h]

theorem busy_handle (r : Report) : busy (.code (.handle r) :: rest) = r.tsx :: busy rest := rfl

/-- A transaction does not terminate while a report of it is being handled. -/
theorem once_enter {r : Report} (h : Inv w stack) (hr : r.state = .terminated → r.tsx ∉ busy stack)
    (t : Nat) (ht : ((enter r w).tsx t).state = .terminated) :
    (busy (.code (.handle r) :: stack)).count t ≤ 1 := by
  rw [busy_handle]
  by_cases hu : t = r.tsx
  · rw [hu] at ht ⊢
    rw [enter_self] at ht
    rw [List.count_cons_self, List.count_eq_zero.mpr (hr ht)]
  · rw [enter_other hu] at ht
    rw [List.count_cons_of_ne (Ne.symm hu)]
    exact h.once t ht

/-- A report of an attached transaction. -/
theorem Inv.enter {r : Report} (h : Inv w stack) (ht : (w.tsx r.tsx).state ≠ .terminated)
    (hr : r.state = .terminated → r.tsx ∉ busy stack) (hat : r.tsx ∈ w.attached) :
    Inv (enter r w) (.code (.handle r) :: stack) := by
  have hlive : live (Evsub.enter r w) (.code (.handle r) :: stack) = live w stack := by
    refine List.filter_congr fun t _ => ?_
    rw [busy_handle]
    by_cases hu : t = r.tsx
    · simp [hu, ht]
    · rw [enter_other hu]
      simp [hu]
  refine ⟨hlive ▸ h.counted, once_enter h hr, ?_, h.nodup, h.one_cleaning, h.cleaning, h.destroyed,
    h.timer, h.ended, ?_, ⟨h.entry.once, h.entry.pending⟩, h.fired⟩
  · intro t hmem
    rcases List.mem_cons.mp hmem with rfl | hmem
    · exact hat
    · exact h.busy_attached t hmem
  · intro f hf hold
    rcases List.mem_cons.mp hf with rfl | hf
    · cases hold
    · exact h.old f hf hold

/-- A report of a transaction that is not attached. -/
theorem Inv.enter_stranger {r : Report} (h : Inv w stack) (hat : r.tsx ∉ w.attached) :
    Inv (Evsub.enter r w) stack := by
  have hbusy : r.tsx ∉ busy stack := fun hmem => hat (h.busy_attached _ hmem)
  have hlive : live (Evsub.enter r w) stack = live w stack := by
    refine List.filter_congr fun t ht => ?_
    have hu : t ≠ r.tsx := by
      rintro rfl
      exact hat ht
    rw [enter_other hu]
  refine ⟨hlive ▸ h.counted, ?_, h.busy_attached, h.nodup, h.one_cleaning, h.cleaning, h.destroyed,
    h.timer, h.ended, h.old, ⟨h.entry.once, h.entry.pending⟩, h.fired⟩
  intro t ht
  by_cases hu : t = r.tsx
  · rw [hu, List.count_eq_zero.mpr hbusy]
    exact Nat.zero_le 1
  · rw [enter_other hu] at ht
    exact h.once t ht

theorem attach_eq (t : Nat) (w : World) : ∃ pending, attach t w =
    { w with
      attached := w.attached ++ [t]
      sub := { w.sub with pendingTsx := w.sub.pendingTsx + 1, pendingSub := pending } } := by
  unfold attach
  dsimp only
  split
  · exact ⟨some t, rfl⟩
  · exact ⟨w.sub.pendingSub, rfl⟩

/-- A transaction that was not known is attached, and its report handled. -/
theorem Inv.attach {r : Report} (h : Inv w stack) (hat : r.tsx ∉ w.attached)
    (hs : w.sub.state ≠ .terminated) (hd : w.destroyed = 0)
    (honce : ∀ t, (w.tsx t).state = .terminated → (busy stack).count t ≤ 1) :
    Inv (attach r.tsx w) (.code (.handle r) :: stack) := by
  have hbusy : r.tsx ∉ busy stack := fun hmem => hat (h.busy_attached _ hmem)
  have hlive : ∀ w' : World, w'.tsx = w.tsx → w'.attached = w.attached ++ [r.tsx] →
      live w' (.code (.handle r) :: stack) = live w stack ++ [r.tsx] := by
    intro w' htsx hattached
    unfold live
    rw [htsx, hattached, List.filter_append, busy_handle]
    have hself : [r.tsx].filter (fun t => decide ((w.tsx t).state ≠ .terminated ∨
        t ∈ r.tsx :: busy stack)) = [r.tsx] := by
      simp
    rw [hself]
    refine congrArg (· ++ [r.tsx]) (List.filter_congr fun t ht => ?_)
    have hu : t ≠ r.tsx := by
      rintro rfl
      exact hat ht
    simp [hu]
  rcases attach_eq r.tsx w with ⟨pending, heq⟩
  rw [heq]
  constructor
  · show w.sub.pendingTsx + 1 = _
    rw [hlive, h.counted, List.length_append]
    · rfl
    · rfl
    · rfl
  · intro t ht
    rw [busy_handle]
    by_cases hu : t = r.tsx
    · rw [hu, List.count_cons_self, List.count_eq_zero.mpr hbusy]
    · rw [List.count_cons_of_ne (Ne.symm hu)]
      exact honce t ht
  · intro t hmem
    rcases List.mem_cons.mp hmem with rfl | hmem
    · simp
    · exact List.mem_append_left _ (h.busy_attached t hmem)
  · refine List.Nodup.append h.nodup (List.nodup_singleton _) ?_
    rw [List.disjoint_singleton]
    exact hat
  · exact h.one_cleaning
  · exact h.cleaning
  · exact Or.inl hd
  · exact h.timer
  · exact fun hc => absurd hc hs
  · intro f hf hold
    rcases List.mem_cons.mp hf with rfl | hf
    · cases hold
    · exact h.old f hf hold
  · exact ⟨h.entry.once, h.entry.pending⟩
  · exact h.fired

theorem Inv.safe_reported {r : Report} (h : Inv w (.code (.handle r) :: rest)) :
    Safe w rest (reported r w) := h.safe_callIf _

theorem Inv.safe_rejectNotify (h : Inv w rest) (t : Nat) (created : Bool) :
    Safe w rest (rejectNotify t created w) := by
  unfold rejectNotify
  split
  · exact h.safe_plain ⟨rfl, rfl, rfl⟩
  · exact h.safe_done

/-- **A report** keeps the invariant, unless the transaction ends while an earlier report of it is
being handled. -/
theorem Inv.safe_tsxReport {r : Report} (h : Inv w rest) (created : Bool)
    (hr : r.state = .terminated → r.tsx ∉ busy rest) : Safe w rest (tsxReport r created w) := by
  unfold tsxReport
  dsimp only
  split
  · exact h.safe_done
  · rename_i hgo
    rw [not_or] at hgo
    change Safe w rest (if r.tsx ∈ w.attached then reported r (Evsub.enter r w)
      else onNewTransaction r created (Evsub.enter r w))
    by_cases hat : r.tsx ∈ w.attached
    · rw [if_pos hat]
      exact (h.enter hgo.1 hr hat).safe_reported.from rfl
    · have hnew := h.enter_stranger hat
      rw [if_neg hat]
      unfold onNewTransaction
      dsimp only
      by_cases hfound : (r.isOurs && decide ((Evsub.enter r w).destroyed = 0) &&
          !((Evsub.enter r w).sub.noEventId &&
            decide ((Evsub.enter r w).sub.state = .terminated))) = true
      · rw [if_pos hfound]
        split
        · exact (hnew.safe_rejectNotify r.tsx created).from rfl
        · rename_i hs
          simp only [Bool.and_eq_true, decide_eq_true_eq] at hfound
          rcases attach_eq r.tsx (Evsub.enter r w) with ⟨pending, heq⟩
          refine Safe.from (hnew.attach hat hs hfound.1.2 hnew.once).safe_reported ?_
          rw [heq]
          rfl
      · rw [if_neg hfound]
        split
        · exact hnew.safe_done.from rfl
        · exact (hnew.safe_rejectNotify r.tsx created).from rfl

/-! ### A client subscription -/

theorem Alike.trans {w'' : World} (h : Alike w w') (h' : Alike w' w'') : Alike w w'' :=
  ⟨h'.state.trans h.state, h'.timer.trans h.timer, h'.pending.trans h.pending,
    h'.heap.trans h.heap, h'.tsx.trans h.tsx, h'.attached.trans h.attached,
    h'.destroyed.trans h.destroyed, h'.fired.trans h.fired⟩

theorem alike_updateExpires (interval : Int) (w : World) : Alike w (updateExpires interval w) :=
  ⟨rfl, rfl, rfl, rfl, rfl, rfl, rfl, rfl⟩

theorem alike_expires (r : Report) (w : World) : Alike w (if w.sub.expires ≠ 0 then
    w.setSub fun s => { s with expires := r.expires.getD s.expires } else w) := by
  split
  · exact ⟨rfl, rfl, rfl, rfl, rfl, rfl, rfl, rfl⟩
  · exact ⟨rfl, rfl, rfl, rfl, rfl, rfl, rfl, rfl⟩

/-- A 2xx response sets the timer. -/
theorem Inv.safe_uacAccepted (h : Inv w rest) (hs : w.sub.state ≠ .terminated) (r : Report) :
    Safe w rest (uacAccepted r w) := by
  have halike := (alike_expires r w).trans (alike_updateExpires
    (if w.sub.expires ≠ 0 then w.setSub fun s => { s with expires := r.expires.getD s.expires }
      else w).sub.expires _)
  have hinv := h.alike halike
  unfold uacAccepted
  dsimp only
  generalize updateExpires _ _ = w' at halike hinv ⊢
  have hs' : w'.sub.state ≠ .terminated := halike.state ▸ hs
  have htimed : ∀ id seconds, Safe w' rest
      (if (setTimer id seconds w').sub.state = .sent then setState .accepted (setTimer id seconds w')
        else done (setTimer id seconds w')) := by
    intro id seconds
    have hset : Safe w' rest (done (setTimer id seconds w')) := hinv.safe_setTimer hs' seconds
    have hstate := setTimer_state id seconds w'
    split
    · refine Safe.from (Inv.safe_setState hset.inv fun hc => ?_) hstate
      exact absurd (hstate.symm.trans hc) hs'
    · exact hset
  split
  · exact (htimed _ _).from halike.state
  · exact (htimed _ _).from halike.state

theorem Inv.safe_uacFailed (h : Inv w rest) (t : Nat) : Safe w rest (uacFailed t w) := by
  unfold uacFailed
  split
  · exact h.safe_done
  · split
    · exact h.safe_done
    · exact h.safe_terminate

theorem plain_uacAuthSent : Plain (.code .uacAuthSent) := ⟨rfl, rfl, rfl⟩

theorem Inv.safe_uacSubscribeDone {r : Report} (h : Inv w rest)
    (hok : (w.tsx r.tsx).state ≠ .terminated → (w.tsx r.tsx).statusCode / 100 = 2 →
      w.sub.state ≠ .terminated) (ret : Ret) : Safe w rest (uacSubscribeDone r ret w) := by
  unfold uacSubscribeDone
  dsimp only
  split
  · split
    · exact h.safe_done
    · split
      · exact h.safe_plain plain_uacAuthSent
      · exact h.safe_terminate
  · split
    · rename_i hcode
      split
      · exact h.safe_done
      · rename_i ht
        exact h.safe_uacAccepted (hok ht hcode) r
    · exact h.safe_uacFailed r.tsx

/-- The report is a 2xx response to SUBSCRIBE that is not put aside for a later request. -/
def Accepts (r : Report) (w : World) : Prop :=
  w.sub.role = .uac ∧ isSubscribe w r.tsx = true ∧ (w.tsx r.tsx).state = .completed ∧
    (w.tsx r.tsx).statusCode / 100 = 2 ∧
    (w.sub.pendingSub = none ∨ w.sub.pendingSub = some r.tsx)

theorem Inv.safe_uacSubscribe {r : Report} (h : Inv w rest) (hrole : w.sub.role = .uac)
    (hsub : isSubscribe w r.tsx = true) (hok : Accepts r w → w.sub.state ≠ .terminated) (ret : Ret) :
    Safe w rest (uacSubscribe r ret w) := by
  unfold uacSubscribe
  dsimp only
  split
  · rename_i hnull
    exact h.safe_setState fun hc => absurd (hnull.1.symm.trans hc) (by decide)
  · split
    · exact h.safe_done
    · rename_i hfinal
      have hcompleted : (w.tsx r.tsx).state ≠ .terminated → (w.tsx r.tsx).state = .completed := by
        intro ht
        by_contra hc
        exact hfinal ⟨hc, ht⟩
      split
      · rename_i hpending
        have halike : Alike w (w.setSub fun s => { s with pendingSub := none }) :=
          ⟨rfl, rfl, rfl, rfl, rfl, rfl, rfl, rfl⟩
        refine Safe.from ((h.alike halike).safe_uacSubscribeDone ?_ ret) rfl
        intro ht hcode
        exact hok ⟨hrole, hsub, hcompleted ht, hcode, Or.inr hpending⟩
      · split
        · exact h.safe_done
        · rename_i hnone
          refine h.safe_uacSubscribeDone ?_ ret
          intro ht hcode
          exact hok ⟨hrole, hsub, hcompleted ht, hcode, Or.inl (not_not.mp hnone)⟩

/-- An incoming NOTIFY sets the timer for the next refresh. -/
def SetsTimer (subState : State × Int) (w : World) : Prop :=
  w.sub.expires ≠ 0 ∧ 0 ≤ subState.2 ∧ (subState.1 = .active ∨ subState.1 = .pending)

theorem Inv.keep_notifyTimer {subState : State × Int} (h : Inv w stack)
    (hok : SetsTimer subState w → w.sub.state ≠ .terminated) :
    Inv (notifyTimer subState w) stack ∧ (notifyTimer subState w).sub.state = w.sub.state := by
  unfold notifyTimer
  split
  · rename_i hsets
    have hinv := h.alike (alike_updateExpires subState.2 w)
    refine ⟨hinv.keep_setTimer (fun hc => absurd hc (hok hsets)) _, ?_⟩
    exact setTimer_state _ _ _
  · exact ⟨h, rfl⟩

theorem Inv.safe_uacNotifyRespond {subState : State × Int} {stCode : Int} (h : Inv w rest)
    (hok : stCode < 300 → SetsTimer subState w → w.sub.state ≠ .terminated) (ret : Ret) :
    Safe w rest (uacNotifyRespond subState stCode ret w) := by
  unfold uacNotifyRespond
  split
  · split
    · exact h.safe_plain ⟨rfl, rfl, rfl⟩
    · exact h.safe_terminate
  · rename_i hcode
    rcases h.keep_notifyTimer (hok (by omega)) with ⟨hinv, hstate⟩
    dsimp only
    split
    · exact (hinv.safe_plain ⟨rfl, rfl, rfl⟩).from hstate
    · exact hinv.safe_terminate.from hstate

theorem Inv.safe_uacNotify (h : Inv w rest) (r : Report) (ret : Ret) :
    Safe w rest (uacNotify r ret w) := by
  unfold uacNotify
  split
  · exact h.safe_done
  · split
    · exact h.safe_uacNotifyRespond (fun hcode => absurd hcode (by decide)) ret
    · exact Inv.safe_callIf _ ((inv_cons_plain ⟨rfl, rfl, rfl⟩).mpr h)

/-! ### A server subscription -/

/-- The report is a request to end the subscription. -/
def Unsubscribes (r : Report) (w : World) : Prop :=
  w.sub.role = .uas ∧ isSubscribe w r.tsx = true ∧ (w.tsx r.tsx).state = .trying ∧
    refreshExpires r w.sub = 0

/-- The state of a request to end the subscription is set without its timer, which is not pending. -/
theorem Inv.safe_uasRefresh {r : Report} (h : Inv w (.code (.reportEnd r.tsx) :: rest))
    (hrole : w.sub.role = .uas) (hsub : isSubscribe w r.tsx = true)
    (hok : Unsubscribes r w → w.sub.state ≠ .terminated → w.sub.timerId = .none) :
    Safe w (.code (.reportEnd r.tsx) :: rest) (uasRefresh r w) := by
  unfold uasRefresh
  split
  · exact h.safe_done
  · rename_i htrying
    dsimp only
    have halike : Alike w (adoptExpires r w) := ⟨rfl, rfl, rfl, rfl, rfl, rfl, rfl, rfl⟩
    have hinv := h.alike halike
    have hexpires : (adoptExpires r w).sub.expires = refreshExpires r w.sub := rfl
    generalize adoptExpires r w = w' at halike hinv hexpires ⊢
    have hnew : w.sub.state = .terminated → refreshState w'.sub = .terminated := by
      intro hs
      unfold refreshState
      rw [halike.state, hs]
      split <;> rfl
    have hpending : 0 < w'.sub.pendingTsx := by
      have hmem : r.tsx ∈ live w' (.code (.reportEnd r.tsx) :: rest) := by
        refine List.mem_filter.mpr ⟨hinv.busy_attached _ (by simp [busy_reportEnd]), ?_⟩
        simp [busy_reportEnd]
      have := List.length_pos_of_mem hmem
      have := hinv.counted
      omega
    have hset : Inv (w'.setSub fun s => { s with state := refreshState s })
        (.code (.uasRefreshCode w'.sub.state (w'.sub.user.onRxRefresh && w'.sub.callCb)) ::
          .code (.reportEnd r.tsx) :: rest) := by
      by_cases hs : w.sub.state = .terminated
      · have hsame : Alike w' (w'.setSub fun s => { s with state := refreshState s }) :=
          ⟨(hnew hs).trans (halike.state.trans hs).symm, rfl, rfl, rfl, rfl, rfl, rfl, rfl⟩
        have hplain := hinv.alike hsame
        refine ⟨hplain.counted, hplain.once, hplain.busy_attached, hplain.nodup, hplain.one_cleaning,
          hplain.cleaning, hplain.destroyed, hplain.timer, hplain.ended, fun _ _ _ => hnew hs,
          hplain.entry, hplain.fired⟩
      · have hs' : w'.sub.state ≠ .terminated := halike.state ▸ hs
        have hclean : cleanings (.code (.reportEnd r.tsx) :: rest) = 0 := by
          by_contra hc
          exact hs' (hinv.cleaning (Nat.pos_of_ne_zero hc)).1
        have hd : w'.destroyed = 0 := by
          rcases hinv.destroyed with h0 | h1
          · exact h0
          · exact absurd h1.2.1 hs'
        have hcleanings : cleanings (.code (.uasRefreshCode w'.sub.state
            (w'.sub.user.onRxRefresh && w'.sub.callCb)) :: .code (.reportEnd r.tsx) :: rest) = 0 := hclean
        refine ⟨hinv.counted, hinv.once, hinv.busy_attached, hinv.nodup, by omega, ?_, Or.inl hd, ?_,
          ?_, ?_, ⟨hinv.entry.once, hinv.entry.pending⟩, hinv.fired⟩
        · intro hpos
          omega
        · -- Only a request to end the subscription terminates it here.
          intro hterm hne
          refine absurd ?_ hne
          have hzero : refreshExpires r w.sub = 0 := by
            by_contra hz
            change refreshState w'.sub = .terminated at hterm
            unfold refreshState at hterm
            rw [hexpires, if_neg hz] at hterm
            split at hterm
            · cases hterm
            · exact hs' hterm
          exact halike.timer.trans (hok ⟨hrole, hsub, not_not.mp htrying, hzero⟩ hs)
        · intro _ hp
          have : w'.sub.pendingTsx = 0 := hp
          omega
        · intro f hf hold
          rcases List.mem_cons.mp hf with rfl | hf
          · exact absurd (Option.some.inj hold) hs'
          · exact absurd (hinv.old f hf hold) hs'
    exact ⟨(hset.safe_callIf _).inv, fun hs => (hset.safe_callIf _).stays (hnew hs)⟩

/-- The state before a refused request is the state again, if that request has not been overtaken by
the termination. -/
theorem Inv.safe_revert {old : State} (h : Inv w rest) (hold : old = .terminated → w.sub.state = .terminated)
    (hok : w.sub.state = .terminated → old = .terminated) :
    Safe w rest (done (w.setSub fun s => { s with state := old })) := by
  by_cases hs : w.sub.state = .terminated
  · have hstate : old = w.sub.state := (hok hs).trans hs.symm
    have halike : Alike w (w.setSub fun s => { s with state := old }) :=
      ⟨hstate, rfl, rfl, rfl, rfl, rfl, rfl, rfl⟩
    exact (h.alike halike).safe_done.from hstate
  · have hne : old ≠ .terminated := fun hc => hs (hold hc)
    refine ⟨⟨h.counted, h.once, h.busy_attached, h.nodup, h.one_cleaning, ?_, ?_, ?_, ?_, ?_,
      ⟨h.entry.once, h.entry.pending⟩, h.fired⟩, fun hc => absurd hc hs⟩
    · exact fun hpos => absurd (h.cleaning hpos).1 hs
    · rcases h.destroyed with h0 | h1
      · exact Or.inl h0
      · exact absurd h1.2.1 hs
    · exact fun hc => absurd hc hne
    · exact fun hc => absurd hc hne
    · exact fun f hf hc => absurd (h.old f hf hc) hs

theorem Inv.safe_uasSetTimer (h : Inv w rest) (expires : Int) :
    Safe w rest (uasSetTimer expires w) := by
  unfold uasSetTimer
  split
  · rename_i hs
    have hgrant : Inv (grant expires w) rest := h.alike ⟨rfl, rfl, rfl, rfl, rfl, rfl, rfl, rfl⟩
    exact (hgrant.safe_setTimer hs _).from rfl
  · exact h.safe_done

theorem Inv.safe_uasRefreshAnswered {old : State} {stCode expires : Int} (h : Inv w rest)
    (hold : old = .terminated → w.sub.state = .terminated)
    (hok : stCode / 100 ≠ 2 → w.sub.state = .terminated → old = .terminated) :
    Safe w rest (uasRefreshAnswered old stCode expires w) := by
  have hplain : Plain (.code (.uasSetTimer expires)) := ⟨rfl, rfl, rfl⟩
  unfold uasRefreshAnswered
  split
  · split
    · exact (((inv_cons_plain hplain).mpr h).safe_setState id).andThen
    · split
      · exact (((inv_cons_plain hplain).mpr h).safe_setState id).andThen
      · exact h.safe_uasSetTimer expires
  · rename_i hcode
    exact h.safe_revert hold (hok hcode)

theorem Inv.safe_uasNotifyFailed (h : Inv w rest) (t : Nat) : Safe w rest (uasNotifyFailed t w) := by
  unfold uasNotifyFailed
  dsimp only
  split
  · exact h.safe_terminate
  · exact h.safe_done

theorem Inv.safe_uasNotify (h : Inv w rest) (r : Report) (ret : Ret) :
    Safe w rest (uasNotify r ret w) := by
  unfold uasNotify
  dsimp only
  split
  · split
    · exact h.safe_plain ⟨rfl, rfl, rfl⟩
    · exact h.safe_terminate
  · exact h.safe_uasNotifyFailed r.tsx

/-! ## What the code takes for granted -/

/-- A piece of code that goes on does not bring the subscription back, nor its timer. -/
def OrderlyTask : Task → Ret → World → List (Frame Task) → Prop
  | .handle r, _, w, _ =>
      (Accepts r w → w.sub.state ≠ .terminated) ∧
        (Unsubscribes r w → w.sub.state ≠ .terminated → w.sub.timerId = .none)
  | .uacNotifyCode r asked, ret, w, _ =>
      (if asked then finalCode ret.stCode else 200) < 300 →
        SetsTimer (r.subState.getD (.unknown, 0)) w → w.sub.state ≠ .terminated
  | .uacNotifyRefused, ret, w, _ => ret.ok = true → w.sub.state ≠ .terminated
  | .uacNotifyAnswered state, ret, w, _ =>
      ret.ok = true → w.sub.state = .terminated → state = .terminated
  | .uasRefreshAnswered old stCode _, _, w, _ =>
      stCode / 100 ≠ 2 → w.sub.state = .terminated → old = .terminated
  | .requestSent isNotify, ret, w, _ =>
      ret.ok = true → isNotify = true → w.sub.state = .terminated →
        w.sub.dstState = .terminated ∨ w.sub.dstState = .null
  | .reportEnd tsx, _, w, rest =>
      (w.tsx tsx).state = .terminated → 0 < cleanings rest → w.sub.pendingTsx ≠ 1
  | _, _, _, _ => True

/-- The condition on a step: a transaction does not terminate while a report of it is being handled,
and a piece of code that goes on behind the termination leaves state and timer alone. -/
def Orderly (c : Conf World Task) : Step → Prop
  | .call (.report r _) => r.state = .terminated → r.tsx ∉ busy c.stack
  | .resume ret =>
      match Reentry.next c.stack with
      | some (t, rest) => OrderlyTask t ret c.state rest
      | none => True
  | _ => True

instance (r : Report) (w : World) : Decidable (Accepts r w) := by
  unfold Accepts
  infer_instance

instance (r : Report) (w : World) : Decidable (Unsubscribes r w) := by
  unfold Unsubscribes
  infer_instance

instance (s : State × Int) (w : World) : Decidable (SetsTimer s w) := by
  unfold SetsTimer
  infer_instance

instance (t : Task) (ret : Ret) (w : World) (rest : List (Frame Task)) :
    Decidable (OrderlyTask t ret w rest) := by
  cases t <;> unfold OrderlyTask <;> infer_instance

instance (c : Conf World Task) (e : Step) : Decidable (Orderly c e) := by
  unfold Orderly
  split
  · infer_instance
  · split <;> infer_instance
  · infer_instance

theorem Inv.safe_requestSent {n : Bool} {ret : Ret} (h : Inv w rest)
    (hok : OrderlyTask (.requestSent n) ret w rest) : Safe w rest (requestSent n ret w) := by
  unfold requestSent
  split
  · exact h.safe_done
  · rename_i hret
    split
    · rename_i hn
      split
      · exact h.safe_done
      · rename_i hdst
        refine Safe.andThen (Inv.safe_setState ((inv_cons_plain ⟨rfl, rfl, rfl⟩).mpr h) fun hs => ?_)
        rcases hok (Bool.not_eq_false _ ▸ hret) hn hs with ht | hnull
        · exact ht
        · exact absurd hnull hdst
    · exact h.safe_done

/-- **A piece of code that goes on** keeps the invariant. -/
theorem Inv.safe_resume {t : Task} {ret : Ret} (h : Inv w (.code t :: rest))
    (hok : OrderlyTask t ret w rest) : Safe w rest (resume t ret w) := by
  have hplain : Plain (.code t) → Inv w rest := fun hp => (inv_cons_plain hp).mp h
  cases t with
  | stateDone prev state => exact h.safe_stateDone
  | handle r =>
      have hrest := h.handled
      show Safe w rest (handle r ret w)
      unfold handle
      refine Safe.andThen ?_
      cases hrole : w.sub.role with
      | uac =>
          show Safe w _ (onTsxStateUac r ret w)
          unfold onTsxStateUac
          split
          · rename_i hsub
            exact hrest.safe_uacSubscribe hrole hsub hok.1 ret
          · split
            · exact hrest.safe_uacNotify r ret
            · exact hrest.safe_done
      | uas =>
          show Safe w _ (onTsxStateUas r ret w)
          unfold onTsxStateUas
          split
          · rename_i hsub
            exact hrest.safe_uasRefresh hrole hsub hok.2
          · split
            · exact hrest.safe_uasNotify r ret
            · exact hrest.safe_done
  | reportEnd tsx => exact h.safe_reportEnd hok
  | uacAuthSent =>
      show Safe w rest (uacAuthSent ret w)
      have hrest := hplain ⟨rfl, rfl, rfl⟩
      unfold uacAuthSent
      split
      · exact hrest.safe_terminate
      · exact hrest.safe_done
  | uacNotifyCode r asked => exact (hplain ⟨rfl, rfl, rfl⟩).safe_uacNotifyRespond hok ret
  | uacNotifyRefused =>
      show Safe w rest (uacNotifyRefused ret w)
      have hrest := hplain ⟨rfl, rfl, rfl⟩
      unfold uacNotifyRefused
      split
      · rename_i hret
        exact hrest.safe_setTimer (hok hret) _
      · exact hrest.safe_terminate
  | uacNotifyAnswered state =>
      show Safe w rest (uacNotifyAnswered state ret w)
      have hrest := hplain ⟨rfl, rfl, rfl⟩
      unfold uacNotifyAnswered
      split
      · rename_i hret
        exact hrest.safe_setState (hok hret)
      · exact hrest.safe_terminate
  | uasRefreshCode old asked =>
      -- The frame that follows has the same state to go back to.
      have hnext : ∀ code expires, Inv w (.code (.uasRefreshAnswered old code expires) :: rest) := by
        intro code expires
        refine ⟨h.counted, h.once, h.busy_attached, h.nodup, h.one_cleaning, h.cleaning, h.destroyed,
          h.timer, h.ended, ?_, h.entry, h.fired⟩
        intro f hf hold
        rcases List.mem_cons.mp hf with rfl | hf
        · exact h.old _ List.mem_cons_self hold
        · exact h.old f (List.mem_cons_of_mem _ hf) hold
      exact (hnext _ _).safe_callIf _
  | uasRefreshAnswered old code expires =>
      have hold : old = .terminated → w.sub.state = .terminated := by
        rintro rfl
        exact h.old _ List.mem_cons_self rfl
      have hrest : Inv w rest := by
        refine h.drop rfl (fun hs hne => ?_) fun hs hp => ?_
        · exact h.timer hs hne
        · exact h.ended hs hp
      exact hrest.safe_uasRefreshAnswered hold hok
  | uasSetTimer expires => exact (hplain ⟨rfl, rfl, rfl⟩).safe_uasSetTimer expires
  | uasAuthSent tsx =>
      show Safe w rest (uasAuthSent tsx ret w)
      have hrest := hplain ⟨rfl, rfl, rfl⟩
      unfold uasAuthSent
      split
      · exact hrest.safe_terminate
      · exact hrest.safe_uasNotifyFailed tsx
  | requestSent n => exact (hplain ⟨rfl, rfl, rfl⟩).safe_requestSent hok
  | clearDst =>
      have halike : Alike w (w.setSub fun s => { s with dstState := .null }) :=
        ⟨rfl, rfl, rfl, rfl, rfl, rfl, rfl, rfl⟩
      exact ((hplain ⟨rfl, rfl, rfl⟩).alike halike).safe_done.from rfl
  | acceptSent expires =>
      show Safe w rest (acceptSent expires ret w)
      have hrest := hplain ⟨rfl, rfl, rfl⟩
      unfold acceptSent
      split
      · exact hrest.safe_done
      · exact hrest.safe_uasSetTimer expires
  | nothing => exact (hplain ⟨rfl, rfl, rfl⟩).safe_done

/-! ## Calls, events and runs -/

theorem alike_initiate (m : Method) (e : Int) (created : Bool) (w : World) :
    Alike w (pjsipEvsubInitiate m e created w) := by
  unfold pjsipEvsubInitiate
  dsimp only
  split_ifs <;> exact ⟨rfl, rfl, rfl, rfl, rfl, rfl, rfl, rfl⟩

theorem alike_notify (state : State) (created : Bool) (w : World) :
    Alike w (pjsipEvsubNotify state created w) := by
  unfold pjsipEvsubNotify
  split_ifs <;> exact ⟨rfl, rfl, rfl, rfl, rfl, rfl, rfl, rfl⟩

theorem plain_requestSent (n : Bool) : Plain (.code (.requestSent n)) := ⟨rfl, rfl, rfl⟩

/-- **A call** of the code outside keeps the invariant. -/
theorem Inv.safe_call {a : Call} (h : Inv w stack)
    (hok : ∀ r created, a = .report r created → r.state = .terminated → r.tsx ∉ busy stack) :
    Safe w stack (call a w) := by
  cases a with
  | terminate notify =>
      have halike : Alike w (w.setSub fun s => { s with callCb := notify }) :=
        ⟨rfl, rfl, rfl, rfl, rfl, rfl, rfl, rfl⟩
      exact (h.alike halike).safe_terminate.from rfl
  | initiate m e created =>
      have halike := alike_initiate m e created w
      exact (h.alike halike).safe_done.from halike.state
  | notify state created =>
      have halike := alike_notify state created w
      exact (h.alike halike).safe_done.from halike.state
  | sendRequest n => exact h.safe_plain (plain_requestSent n)
  | accept t code created =>
      show Safe w stack (pjsipEvsubAccept t code created w)
      have hcall := h.safe_plain (t := .acceptSent w.sub.expires) ⟨rfl, rfl, rfl⟩
      unfold pjsipEvsubAccept
      split_ifs <;> first | exact h.safe_done | exact hcall
  | report r created => exact h.safe_tsxReport created (hok r created rfl)

/-- The timer that fires is no longer in the heap. -/
theorem timerOk_fired {due : Int → Bool} (h : TimerOk w) (hdue : w.heap.any due = true) :
    w.heap.eraseP due = [] := by
  have hone := h.once
  rcases hheap : w.heap with _ | ⟨x, _ | ⟨y, l⟩⟩
  · rfl
  · rw [hheap] at hdue
    simp only [List.any_cons, List.any_nil, Bool.or_false] at hdue
    rw [List.eraseP_cons_of_pos hdue]
  · rw [hheap] at hone
    simp at hone

/-- The timer fires before the termination only. -/
theorem Inv.safe_onTimer (h : Inv w []) (created : Bool)
    (hdue : w.heap.any (fun due => decide (due ≤ w.now)) = true) :
    Safe w [] (onTimer created w) := by
  have hheap : w.heap ≠ [] := by
    intro hnil
    rw [hnil] at hdue
    cases hdue
  have hs : w.sub.state ≠ .terminated :=
    fun hs => absurd (h.timer hs (h.entry.pending.mpr hheap)) (by decide)
  have hfired : ∀ id, Inv { w with
      heap := w.heap.eraseP fun due => decide (due ≤ w.now)
      sub := { w.sub with timerId := .none }
      fired := w.fired ++ [(id, w.sub.state)] } [] := by
    intro id
    have herase := timerOk_fired h.entry hdue
    refine ⟨h.counted, h.once, h.busy_attached, h.nodup, h.one_cleaning, h.cleaning, h.destroyed,
      fun hc => absurd hc hs, h.ended, h.old, ?_, ?_⟩
    · constructor
      · simp [herase]
      · simp [herase]
    · intro f hf
      rcases List.mem_append.mp hf with hf | hf
      · exact h.fired f hf
      · rw [List.mem_singleton.mp hf]
        exact hs
  have hsend : ∀ {w' : World} (n : Bool), Inv w' [] → w'.sub.state = w.sub.state → ∀ c : Bool,
      Safe w [] (if c then pjsipEvsubSendRequest n w' else done w') := by
    intro w' n hinv hstate c
    cases c with
    | true => exact (hinv.safe_plain (plain_requestSent n)).from hstate
    | false => exact hinv.safe_done.from hstate
  unfold onTimer
  dsimp only
  cases w.sub.timerId with
  | none => exact (hfired _).safe_done.from rfl
  | uacRefresh =>
      dsimp only
      split
      · exact ((hfired _).safe_plain ⟨rfl, rfl, rfl⟩).from rfl
      · have halike := alike_initiate .subscribe w.sub.expires created { w with
          heap := w.heap.eraseP fun due => decide (due ≤ w.now)
          sub := { w.sub with timerId := .none }
          fired := w.fired ++ [(.uacRefresh, w.sub.state)] }
        exact hsend false ((hfired _).alike halike) halike.state created
  | uasTimeout =>
      dsimp only
      split
      · exact ((hfired _).safe_plain ⟨rfl, rfl, rfl⟩).from rfl
      · have halike := alike_notify .terminated created { w with
          heap := w.heap.eraseP fun due => decide (due ≤ w.now)
          sub := { w.sub with timerId := .none }
          fired := w.fired ++ [(.uasTimeout, w.sub.state)] }
        exact hsend true ((hfired _).alike halike) halike.state created
  | uacTerminate => exact (hfired _).safe_terminate.from rfl
  | uacWaitNotify =>
      dsimp only
      have halike := alike_initiate .subscribe 0 created { w with
        heap := w.heap.eraseP fun due => decide (due ≤ w.now)
        sub := { w.sub with timerId := .none }
        fired := w.fired ++ [(.uacWaitNotify, w.sub.state)] }
      exact hsend false ((hfired _).alike halike) halike.state created

theorem Inv.safe_event (h : Inv w []) (b : Event) : Safe w [] (event b w) := by
  cases b with
  | time n =>
      have halike : Alike w { w with now := w.now + n } := ⟨rfl, rfl, rfl, rfl, rfl, rfl, rfl, rfl⟩
      exact (h.alike halike).safe_done.from rfl
  | timer created =>
      show Safe w [] (if _ then _ else _)
      split
      · rename_i hdue
        exact h.safe_onTimer created hdue
      · exact h.safe_done

/-- **One step** keeps the invariant, and a termination. -/
theorem step_inv {c : Conf World Task} {e : Step} (h : Inv c.state c.stack) (hok : Orderly c e) :
    Inv (Reentry.step program c e).state (Reentry.step program c e).stack ∧
      (c.state.sub.state = .terminated → (Reentry.step program c e).state.sub.state = .terminated) := by
  refine Reentry.step_cases (Q := fun c' => Inv c'.state c'.stack ∧
    (c.state.sub.state = .terminated → c'.state.sub.state = .terminated)) ⟨h, id⟩ ?_ ?_ ?_
  · intro a ha _
    have hsafe : Safe c.state c.stack (call a c.state) := by
      refine h.safe_call ?_
      rintro r created rfl
      rw [ha] at hok
      exact hok
    exact ⟨hsafe.inv, hsafe.stays⟩
  · intro b _ hstack
    rw [hstack] at h
    have hsafe := h.safe_event b
    exact ⟨hsafe.inv, hsafe.stays⟩
  · intro ret t rest he hres
    have hinv : Inv c.state (.code t :: rest) := by
      rcases Reentry.next_cases hres with hstack | hstack
      · rw [hstack] at h
        exact h
      · rw [hstack] at h
        exact (inv_cons_plain plain_outside).mp h
    have htask : OrderlyTask t ret c.state rest := by
      rw [he] at hok
      unfold Orderly at hok
      rw [hres] at hok
      exact hok
    have hsafe := hinv.safe_resume htask
    exact ⟨hsafe.inv, hsafe.stays⟩

/-- A subscription begins so. -/
theorem inv_start {w : World} (h : Created w) : Inv w [] := by
  have hs : w.sub.state ≠ .terminated := by
    rw [h.state]
    decide
  have hcounted : w.sub.pendingTsx = ((live w []).length : Int) ∧ w.attached.Nodup := by
    have hattached := h.attached
    cases hrole : w.sub.role with
    | uac =>
        rw [hrole] at hattached
        constructor
        · unfold live
          rw [hattached.1, hattached.2]
          rfl
        · rw [hattached.1]
          exact List.nodup_nil
    | uas =>
        rw [hrole] at hattached
        rcases hattached with ⟨t, ht, hp, hlive⟩
        constructor
        · unfold live
          rw [ht, hp, List.filter_cons_of_pos (by simp [hlive])]
          rfl
        · rw [ht]
          exact List.nodup_singleton t
  have hbusy : busy [] = [] := rfl
  have hcleanings : cleanings [] = 0 := rfl
  constructor
  · exact hcounted.1
  · simp [hbusy]
  · simp [hbusy]
  · exact hcounted.2
  · simp [hcleanings]
  · simp [hcleanings]
  · exact Or.inl h.history.1
  · exact fun hc => absurd hc hs
  · exact fun hc => absurd hc hs
  · simp
  · constructor
    · simp [h.timer.2]
    · simp [h.timer.1, h.timer.2]
  · simp [h.history.2.2.1]

/-- What a subscription does: it counts the attached transactions that have not terminated, it is
destroyed when it has terminated and no transaction is pending, once, and its timer does not fire
behind the termination. -/
structure WellEnded (c : Conf World Task) : Prop where
  pending_tsx : c.state.sub.pendingTsx = (live c.state c.stack).length
  at_most_once : c.state.destroyed ≤ 1
  only_at_end : c.state.destroyed ≠ 0 → c.state.sub.state = .terminated ∧ c.state.sub.pendingTsx = 0
  at_end : c.stack = [] → c.state.sub.state = .terminated → c.state.sub.pendingTsx = 0 →
    c.state.destroyed = 1
  fired : ∀ f ∈ c.state.fired, f.2 ≠ .terminated

theorem Inv.wellEnded {c : Conf World Task} (h : Inv c.state c.stack) : WellEnded c := by
  constructor
  · exact h.counted
  · rcases h.destroyed with h0 | h1
    · omega
    · omega
  · intro hd
    rcases h.destroyed with h0 | h1
    · exact absurd h0 hd
    · exact h1.2
  · intro hstack hs hp
    rcases h.ended hs hp with hd | hc
    · exact hd
    · rw [hstack] at hc
      cases hc
  · exact h.fired

/-- **The life of a subscription.** In a run whose steps are all orderly, everything is `WellEnded`
at each point, and what has terminated at one point has terminated at each later one. -/
theorem life_cycle (w : World) (l l' : List Step) (hw : Created w)
    (hok : Reentry.Meets program Orderly (start w) (l ++ l')) :
    WellEnded (Reentry.run program (start w) (l ++ l')) ∧
      ((Reentry.run program (start w) l).state.sub.state = .terminated →
        (Reentry.run program (start w) (l ++ l')).state.sub.state = .terminated) := by
  have hmeets := hok.append
  have hfirst : Inv (Reentry.run program (start w) l).state (Reentry.run program (start w) l).stack :=
    Reentry.run_invariant (I := fun c => Inv c.state c.stack)
      (fun c e h ho => (step_inv h ho).1) l (start w) (inv_start hw) hmeets.1
  rw [Reentry.run_append]
  generalize Reentry.run program (start w) l = c at hfirst hmeets ⊢
  -- From here on the termination is kept along with the invariant.
  have hrest := Reentry.run_invariant
    (I := fun c' => Inv c'.state c'.stack ∧
      (c.state.sub.state = .terminated → c'.state.sub.state = .terminated))
    (fun c' e h ho => ⟨(step_inv h.1 ho).1, fun hs => (step_inv h.1 ho).2 (h.2 hs)⟩)
    l' c ⟨hfirst, id⟩ hmeets.2
  exact ⟨hrest.1.wellEnded, hrest.2⟩

/-- A client that gives every callback. -/
def sampleUser : User := ⟨true, true, true, true, true, true⟩

/-- A client subscription to a package of an hour. Transaction 0 is its SUBSCRIBE, 1 a NOTIFY. -/
def sampleClient : World where
  sub :=
    { role := .uac
      user := sampleUser
      callCb := true
      noEventId := false
      pkgExpires := 3600
      state := .null
      dstState := .null
      method := .subscribe
      expires := 3600
      refreshTime := 0
      timerId := .none
      pendingTsx := 0
      pendingSub := none }
  now := 0
  heap := []
  tsx := fun t => if t = 0 then ⟨.uac, .subscribe, .null, 0⟩ else ⟨.uas, .notify, .null, 0⟩
  attached := []
  destroyed := 0
  asked := []
  fired := []
  granted := none

theorem sampleClient_created : Created sampleClient where
  state := rfl
  dst_state := rfl
  timer := ⟨rfl, rfl⟩
  pending_sub := rfl
  attached := ⟨rfl, rfl⟩
  history := ⟨rfl, rfl, rfl, rfl⟩

/-- A report without any header but Event. -/
def plainReport (tsx : Nat) (state : TsxState) (statusCode : Nat) : Report :=
  ⟨tsx, state, statusCode, true, false, true, none, none, 0⟩

/-- A call out returns success. -/
def succeeds : Step := .resume ⟨true, 200, true⟩

/-- SUBSCRIBE is sent and accepted, and a NOTIFY ends the subscription. -/
def sampleRun : List Step :=
  [.call (.initiate .subscribe 3600 true), .call (.sendRequest false),
    .call (.report (plainReport 0 .calling 0) true), succeeds, succeeds, succeeds, succeeds,
    .call (.report (plainReport 0 .completed 200) true), succeeds, succeeds, succeeds,
    .call (.report { plainReport 1 .trying 0 with subState := some (.terminated, -1) } true), succeeds,
    succeeds, succeeds, succeeds, succeeds,
    .call (.report (plainReport 0 .terminated 200) true), succeeds, succeeds,
    .call (.report (plainReport 1 .terminated 200) true), succeeds, succeeds]

theorem life_cycle_sample :
    (Reentry.run program (start sampleClient) (sampleRun ++ [])).state.destroyed = 1 ∧
      WellEnded (Reentry.run program (start sampleClient) (sampleRun ++ [])) :=
  ⟨by decide +kernel,
    (life_cycle sampleClient sampleRun [] sampleClient_created (by decide +kernel)).1⟩

/-- A server subscription of a minute. Transaction 0 is the SUBSCRIBE, 1 one that ends it. -/
def sampleServer : World where
  sub :=
    { role := .uas
      user := sampleUser
      callCb := true
      noEventId := false
      pkgExpires := 3600
      state := .null
      dstState := .null
      method := .subscribe
      expires := 60
      refreshTime := 60
      timerId := .none
      pendingTsx := 1
      pendingSub := none }
  now := 0
  heap := []
  tsx := fun t => if t = 0 then ⟨.uas, .subscribe, .trying, 0⟩ else ⟨.uas, .subscribe, .null, 0⟩
  attached := [0]
  destroyed := 0
  asked := []
  fired := []
  granted := none

theorem sampleServer_created : Created sampleServer where
  state := rfl
  dst_state := rfl
  timer := ⟨rfl, rfl⟩
  pending_sub := rfl
  attached := ⟨0, rfl, rfl, by decide⟩
  history := ⟨rfl, rfl, rfl, rfl⟩

/-- The request to end the subscription is accepted, and the timer fires while its transaction waits
for retransmissions. -/
def lateTimerRun : List Step :=
  [.call (.accept 0 200 true), .call (.report (plainReport 0 .completed 200) true), succeeds, succeeds,
    succeeds, .call (.report (plainReport 0 .terminated 200) true), succeeds, succeeds,
    .event (.time 50),
    .call (.report { plainReport 1 .trying 0 with expires := some 0 } true), succeeds, succeeds, succeeds,
    succeeds, succeeds, succeeds, .event (.time 20), .event (.timer true)]

/-- The timer fires in a subscription that has terminated. -/
theorem late_timer_fires : ¬ ∀ (w : World) (l l' : List Step), Created w →
    WellEnded (Reentry.run program (start w) (l ++ l')) ∧
      ((Reentry.run program (start w) l).state.sub.state = .terminated →
        (Reentry.run program (start w) (l ++ l')).state.sub.state = .terminated) := by
  intro h
  have hfired := (h sampleServer lateTimerRun [] sampleServer_created).1.fired
  have hmem : (TimerId.uasTimeout, State.terminated) ∈
      (Reentry.run program (start sampleServer) (lateTimerRun ++ [])).state.fired := by
    decide +kernel
  exact hfired _ hmem rfl

end Evsub
