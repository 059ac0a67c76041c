import PjProject.Library.HeapOrder
import PjProject.Timer.TimerHeap

set_option autoImplicit false

/-! # The repair loops of the timer heap

`reheap_up` and `reheap_down` carry one node, `moved_node`, and leave a hole at `slot`. With the
node written into the hole the array is `h = update heap slot moved_node`, and a loop step
exchanges two cells of `h`. Whatever the loop does, it ends in a heap that is ordered, holds the
nodes of `h`, and whose `timer_ids` locate every node (`Reheaped`).
-/

namespace Timer

open HeapOrder MachineInt

theorem heapParent_eq (x : Nat) : heapParent x = parent x := rfl

/-- The number of the entry at an address. -/
def PjTimerHeap.idOf (ht : PjTimerHeap) (e : Nat) : Int := (ht.entries e).timerId

/-- The value the entry at an address is ordered by. -/
def PjTimerHeap.keyOf (ht : PjTimerHeap) (e : Nat) : Lex (Int × Int) :=
  (ht.entries e).timerValue.key

/-- The first `n` nodes of `h` have numbers of the array, all distinct. Every cell of the arrays has
a number that is an `int`. -/
structure Numbered (ht : PjTimerHeap) (h : Nat → Nat) (n : Nat) : Prop where
  small : ht.maxSize < 2147483648
  pos : ∀ i, i < n → 1 ≤ ht.idOf (h i)
  lt : ∀ i, i < n → ht.idOf (h i) < ht.maxSize
  inj : ∀ i j, i < n → j < n → ht.idOf (h i) = ht.idOf (h j) → i = j

/-- `timer_ids` locates the first `n` nodes of `h`, but for the one in `slot`. -/
def Located (ht : PjTimerHeap) (h : Nat → Nat) (n slot : Nat) : Prop :=
  ∀ i, i < n → i ≠ slot → ht.timerIds (ht.idOf (h i)) = i

/-- What a repair loop makes of the nodes `h`. -/
structure Reheaped (ht : PjTimerHeap) (h : Nat → Nat) (n : Nat) (ht' : PjTimerHeap) : Prop where
  eq : ht' = { ht with heap := ht'.heap, timerIds := ht'.timerIds }
  ordered : Ordered ht.keyOf ht'.heap n
  located : ∀ i, i < n → ht'.timerIds (ht.idOf (ht'.heap i)) = i
  mem : ∀ e, (∃ k, k < n ∧ ht'.heap k = e) ↔ ∃ k, k < n ∧ h k = e
  frame : ∀ t, (∀ i, i < n → ht.idOf (h i) ≠ t) → ht'.timerIds t = ht.timerIds t

variable {ht ht' : PjTimerHeap} {h : Nat → Nat} {n slot c movedNode : Nat}

/-- The arrays have the cells that were meant. -/
theorem cellsOf_small {width count : Nat} (hw : 0 < width) (hw8 : width ≤ 8)
    (hc : count < 4294967296) : cellsOf width count = count := by
  refine cellsOf_of_lt hw ?_
  calc
    width * count ≤ 8 * count := Nat.mul_le_mul_right count hw8
    _ < 18446744073709551616 := by omega

theorem heapAt_ok (hsmall : ht.maxSize < 2147483648) (hs : slot < ht.maxSize) :
    ht.heapAt slot = .ok (ht.heap slot) := by
  rw [PjTimerHeap.heapAt, cellsOf_small (by omega) (by omega) (by omega), if_pos hs]

theorem timerIdAt_ok {id : Int} (hsmall : ht.maxSize < 2147483648) (h0 : 0 ≤ id)
    (hid : id < ht.maxSize) : ht.timerIdAt id = .ok (ht.timerIds id) := by
  rw [PjTimerHeap.timerIdAt, cellsOf_small (by omega) (by omega) (by omega), if_pos ⟨h0, hid⟩]

theorem setTimerId_ok {id v : Int} (hsmall : ht.maxSize < 2147483648) (h0 : 0 ≤ id)
    (hid : id < ht.maxSize) :
    ht.setTimerId id v = .ok { ht with timerIds := Function.update ht.timerIds id v } := by
  rw [PjTimerHeap.setTimerId, cellsOf_small (by omega) (by omega) (by omega), if_pos ⟨h0, hid⟩]

theorem valueAt_ok (hsmall : ht.maxSize < 2147483648) (hs : slot < ht.maxSize) :
    ht.valueAt slot = .ok (ht.entries (ht.heap slot)).timerValue := by
  rw [PjTimerHeap.valueAt, heapAt_ok hsmall hs]
  rfl

/-- `copy_node` inside the arrays. -/
theorem copyNode_ok (hsmall : ht.maxSize < 2147483648) (hs : slot < ht.maxSize)
    (h1 : 1 ≤ ht.idOf c) (h2 : ht.idOf c < ht.maxSize) :
    copyNode ht slot c = .ok { ht with
      heap := Function.update ht.heap slot c
      timerIds := Function.update ht.timerIds (ht.idOf c) slot } := by
  have h0 : 0 ≤ (ht.entries c).timerId := le_trans (by omega) h1
  have hcells : cellsOf 8 ht.maxSize = ht.maxSize :=
    cellsOf_small (by omega) (by omega) (by omega)
  rw [copyNode, hcells, if_pos hs, int32_of_range (by omega) (by omega)]
  exact setTimerId_ok hsmall h0 h2

/-! ## One step of a loop -/

/-- The heap after the node of the cell `c` has been copied into the hole at `slot`. -/
def PjTimerHeap.fill (ht : PjTimerHeap) (slot c : Nat) : PjTimerHeap :=
  { ht with
    heap := Function.update ht.heap slot (ht.heap c)
    timerIds := Function.update ht.timerIds (ht.idOf (ht.heap c)) slot }

theorem fill_exchange (hc : c ≠ slot) (hh : h = Function.update ht.heap slot movedNode) :
    Function.update (ht.fill slot c).heap c movedNode = exchange h slot c := by
  subst hh
  simp [exchange, PjTimerHeap.fill, hc]

theorem copyNode_fill (hh : h = Function.update ht.heap slot movedNode) (hn : n ≤ ht.maxSize)
    (hnum : Numbered ht h n) (hs : slot < n) (hcn : c < n) (hc : c ≠ slot) :
    copyNode ht slot (ht.heap c) = .ok (ht.fill slot c) := by
  have hcell : h c = ht.heap c := by rw [hh, Function.update_of_ne hc]
  exact copyNode_ok hnum.small (by omega) (hcell ▸ hnum.pos c hcn) (hcell ▸ hnum.lt c hcn)

theorem Numbered.fill (hnum : Numbered ht h n) (hs : slot < n) (hcn : c < n) (hc : c ≠ slot) :
    Numbered (ht.fill slot c) (exchange h slot c) n := by
  have cell : ∀ i, i < n → ∃ j, j < n ∧ exchange h slot c i = h j ∧
      (i = slot → j = c) ∧ (i = c → j = slot) ∧ (i ≠ slot → i ≠ c → j = i) := by
    intro i hi
    by_cases his : i = slot
    · exact ⟨c, hcn, by rw [his, exchange_left hc.symm], fun _ => rfl, fun h => by omega,
        fun h => by omega⟩
    · by_cases hic : i = c
      · exact ⟨slot, hs, by rw [hic, exchange_right], fun h => by omega, fun _ => rfl,
          fun _ h => by omega⟩
      · exact ⟨i, hi, exchange_other his hic, fun h => by omega, fun h => by omega,
          fun _ _ => rfl⟩
  constructor
  · exact hnum.small
  · intro i hi
    obtain ⟨j, hj, he, -⟩ := cell i hi
    rw [he]
    exact hnum.pos j hj
  · intro i hi
    obtain ⟨j, hj, he, -⟩ := cell i hi
    rw [he]
    exact hnum.lt j hj
  · intro i i' hi hi' heq
    obtain ⟨j, hj, he, h1, h2, h3⟩ := cell i hi
    obtain ⟨j', hj', he', h1', h2', h3'⟩ := cell i' hi'
    rw [he, he'] at heq
    have := hnum.inj j j' hj hj' heq
    by_cases a1 : i = slot <;> by_cases a2 : i = c <;> by_cases b1 : i' = slot <;>
      by_cases b2 : i' = c <;> simp_all

theorem Located.fill (hh : h = Function.update ht.heap slot movedNode)
    (hnum : Numbered ht h n) (hl : Located ht h n slot) (hcn : c < n) (hc : c ≠ slot) :
    Located (ht.fill slot c) (exchange h slot c) n c := by
  have hcell : h c = ht.heap c := by rw [hh, Function.update_of_ne hc]
  intro i hi hic
  by_cases his : i = slot
  · rw [his, exchange_left hc.symm, hcell]
    simp [PjTimerHeap.fill, PjTimerHeap.idOf]
  · rw [exchange_other his hic]
    have hne : ht.idOf (h i) ≠ ht.idOf (ht.heap c) := by
      intro he
      exact hic (hnum.inj i c hi hcn (hcell ▸ he))
    show Function.update ht.timerIds (ht.idOf (ht.heap c)) slot (ht.idOf (h i)) = i
    rw [Function.update_of_ne hne]
    exact hl i hi his

/-- What the loop makes of the heap after a step, it makes of the heap before. -/
theorem Reheaped.of_fill (hh : h = Function.update ht.heap slot movedNode) (hs : slot < n)
    (hcn : c < n) (hc : c ≠ slot) (hr : Reheaped (ht.fill slot c) (exchange h slot c) n ht') :
    Reheaped ht h n ht' := by
  have hcell : h c = ht.heap c := by rw [hh, Function.update_of_ne hc]
  constructor
  · exact hr.eq
  · exact hr.ordered
  · exact hr.located
  · intro e
    rw [hr.mem e, exchange_mem hs hcn]
  · intro t hfr
    have hfr' : ∀ i, i < n → ht.idOf (exchange h slot c i) ≠ t := by
      intro i hi
      obtain ⟨k, hk, he⟩ := (exchange_mem hs hcn (exchange h slot c i)).1 ⟨i, hi, rfl⟩
      rw [← he]
      exact hfr k hk
    rw [hr.frame t hfr']
    exact Function.update_of_ne (hcell ▸ (hfr c hcn).symm) _ _

/-- The last step of a loop writes the carried node into the hole. -/
theorem copyNode_reheaped (hh : h = Function.update ht.heap slot movedNode) (hn : n ≤ ht.maxSize)
    (hnum : Numbered ht h n) (hl : Located ht h n slot) (hs : slot < n)
    (ho : Ordered ht.keyOf h n) :
    ∃ ht', copyNode ht slot movedNode = .ok ht' ∧ Reheaped ht h n ht' := by
  have hcell : h slot = movedNode := by rw [hh, Function.update_self]
  refine ⟨_, copyNode_ok hnum.small (by omega) (hcell ▸ hnum.pos slot hs)
    (hcell ▸ hnum.lt slot hs), ?_⟩
  constructor
  · rfl
  · simp only [← hh]
    exact ho
  · intro i hi
    simp only [← hh]
    by_cases his : i = slot
    · rw [his, hcell, Function.update_self]
    · rw [Function.update_of_ne, hl i hi his]
      intro he
      exact his (hnum.inj i slot hi hs (hcell ▸ he))
  · intro e
    simp only [← hh]
  · intro t hfr
    exact Function.update_of_ne (hcell ▸ (hfr slot hs).symm) _ _

/-! ## The loops -/

/-- **`reheap_up`** puts a node that may be too small for its place where it belongs. -/
theorem reheapUp_spec : ∀ (fuel : Nat) (ht : PjTimerHeap) (slot : Nat) (h : Nat → Nat),
    h = Function.update ht.heap slot movedNode → slot < fuel → slot < n → n ≤ ht.maxSize →
    Numbered ht h n → Located ht h n slot → UpOrder ht.keyOf h n slot →
    ∃ ht', reheapUp fuel ht movedNode slot (heapParent slot) = .ok ht' ∧ Reheaped ht h n ht'
  | 0, _, _, _, _, hf, _, _, _, _, _ => absurd hf (by omega)
  | fuel + 1, ht, slot, h, hh, hf, hs, hn, hnum, hl, ho => by
      rw [reheapUp]
      by_cases h0 : slot > 0
      · have hp := parent_lt h0
        have hcell : h (parent slot) = ht.heap (parent slot) := by
          rw [hh, Function.update_of_ne (by omega)]
        have hself : h slot = movedNode := by rw [hh, Function.update_self]
        rw [if_pos h0, heapParent_eq, heapAt_ok hnum.small (by omega)]
        simp only [bind, Except.bind, PjTimeVal.lt_iff]
        split_ifs with hlt
        · rw [copyNode_fill hh hn hnum hs (show parent slot < n by omega) (by omega)]
          have hlt' : ht.keyOf (h slot) < ht.keyOf (h (parent slot)) := by
            rw [hself, hcell]; exact hlt
          obtain ⟨ht', hrun, hr⟩ := reheapUp_spec fuel (ht.fill slot (parent slot)) (parent slot)
            (exchange h slot (parent slot)) (fill_exchange (by omega) hh).symm (by omega)
            (by omega) hn (hnum.fill hs (by omega) (by omega))
            (hl.fill hh hnum (by omega) (by omega)) (ho.move h0 hs hlt')
          exact ⟨ht', hrun, hr.of_fill hh hs (by omega) (by omega)⟩
        · refine copyNode_reheaped hh hn hnum hl hs (ho.finish fun _ => ?_)
          rw [hself, hcell]
          exact not_lt.1 hlt
      · rw [if_neg h0]
        exact copyNode_reheaped hh hn hnum hl hs (ho.finish fun h => absurd h h0)

/-- The child `reheap_down` compares with is a smallest one. -/
theorem smallerChild_spec (hsmall : ht.maxSize < 2147483648) (hn : ht.curSize ≤ ht.maxSize)
    (hc : heapLeft slot < ht.curSize) :
    ∃ c, smallerChild ht (heapLeft slot) = .ok c ∧ c < ht.curSize ∧ 0 < c ∧ parent c = slot ∧
      ∀ i, 0 < i → i < ht.curSize → parent i = slot →
        ht.keyOf (ht.heap c) ≤ ht.keyOf (ht.heap i) := by
  have two : ∀ i, 0 < i → parent i = slot → i = heapLeft slot ∨ i = heapLeft slot + 1 := by
    intro i hi hp
    have := (parent_eq_iff hi).1 hp
    unfold heapLeft
    omega
  have left : parent (heapLeft slot) = slot :=
    (parent_eq_iff (by unfold heapLeft; omega)).2 (by unfold heapLeft; omega)
  have right : parent (heapLeft slot + 1) = slot :=
    (parent_eq_iff (by omega)).2 (by unfold heapLeft; omega)
  have hpos : 0 < heapLeft slot := by unfold heapLeft; omega
  unfold smallerChild
  split_ifs with hr
  · rw [valueAt_ok hsmall (by omega), valueAt_ok hsmall (by omega)]
    simp only [bind, Except.bind, pure, Except.pure, PjTimeVal.lt_iff]
    split_ifs with hlt
    · refine ⟨_, rfl, hr, by omega, right, ?_⟩
      intro i hi _ hp
      obtain rfl | rfl := two i hi hp
      · exact hlt.le
      · exact le_rfl
    · refine ⟨_, rfl, hc, hpos, left, ?_⟩
      intro i hi _ hp
      obtain rfl | rfl := two i hi hp
      · exact le_rfl
      · exact not_lt.1 hlt
  · refine ⟨_, rfl, hc, hpos, left, ?_⟩
    intro i hi hin hp
    obtain rfl | rfl := two i hi hp
    · exact le_rfl
    · exact absurd hin hr

/-- **`reheap_down`** puts a node that may be too large for its place where it belongs. -/
theorem reheapDown_spec : ∀ (fuel : Nat) (ht : PjTimerHeap) (slot : Nat) (h : Nat → Nat),
    h = Function.update ht.heap slot movedNode → ht.curSize < fuel + slot → slot < ht.curSize →
    ht.curSize ≤ ht.maxSize → Numbered ht h ht.curSize → Located ht h ht.curSize slot →
    DownOrder ht.keyOf h ht.curSize slot →
    ∃ ht', reheapDown fuel ht movedNode slot (heapLeft slot) = .ok ht' ∧
      Reheaped ht h ht.curSize ht'
  | 0, _, _, _, _, hf, hs, _, _, _, _ => absurd hs (by omega)
  | fuel + 1, ht, slot, h, hh, hf, hs, hn, hnum, hl, ho => by
      rw [reheapDown]
      have hself : h slot = movedNode := by rw [hh, Function.update_self]
      have hcell : ∀ i, i ≠ slot → h i = ht.heap i := by
        intro i hi
        rw [hh, Function.update_of_ne hi]
      by_cases hleft : heapLeft slot < ht.curSize
      · obtain ⟨c, hcrun, hc, hc0, hcp, hmin⟩ := smallerChild_spec hnum.small hn hleft
        have hcs : slot < c := hcp ▸ parent_lt hc0
        rw [if_pos hleft, hcrun]
        simp only [bind, Except.bind, heapAt_ok hnum.small (show c < ht.maxSize by omega),
          PjTimeVal.lt_iff]
        have hmin' : ∀ i, 0 < i → i < ht.curSize → parent i = slot →
            ht.keyOf (h c) ≤ ht.keyOf (h i) := by
          intro i hi hin hp
          have := parent_lt hi
          rw [hcell c (by omega), hcell i (by omega)]
          exact hmin i hi hin hp
        split_ifs with hlt
        · rw [copyNode_fill hh hn hnum hs hc (by omega)]
          have hlt' : ht.keyOf (h c) < ht.keyOf (h slot) := by
            rw [hself, hcell c (by omega)]; exact hlt
          obtain ⟨ht', hrun, hr⟩ := reheapDown_spec fuel (ht.fill slot c) c (exchange h slot c)
            (fill_exchange (by omega) hh).symm
            (show ht.curSize < fuel + c by omega) hc hn (hnum.fill hs hc (by omega))
            (hl.fill hh hnum hc (by omega)) (ho.move hc0 hc hcp hlt' hmin')
          exact ⟨ht', hrun, hr.of_fill hh hs hc (by omega)⟩
        · refine copyNode_reheaped hh hn hnum hl hs (ho.finish fun i hi hin hp => ?_)
          refine le_trans ?_ (hmin' i hi hin hp)
          rw [hself, hcell c (by omega)]
          exact not_lt.1 hlt
      · rw [if_neg hleft]
        refine copyNode_reheaped hh hn hnum hl hs (ho.finish fun i hi hin hp => ?_)
        have := (parent_eq_iff hi).1 hp
        unfold heapLeft at hleft
        omega

/-- **A node replaced by another** is moved down or up to where it belongs. -/
theorem replaceNode_spec {h : Nat → Nat} (hh : h = Function.update ht.heap slot movedNode)
    (hs : slot < ht.curSize) (hn : ht.curSize ≤ ht.maxSize) (hnum : Numbered ht h ht.curSize)
    (hl : Located ht h ht.curSize slot) (ho : Ordered ht.keyOf ht.heap ht.curSize) :
    ∃ ht', replaceNode ht slot movedNode = .ok ht' ∧ Reheaped ht h ht.curSize ht' := by
  have hself : h slot = movedNode := by rw [hh, Function.update_self]
  have hcell : ∀ i, i ≠ slot → h i = ht.heap i := by
    intro i hi
    rw [hh, Function.update_of_ne hi]
  have hcopy := copyNode_ok hnum.small (show slot < ht.maxSize by omega)
    (hself ▸ hnum.pos slot hs) (hself ▸ hnum.lt slot hs)
  rw [← hh] at hcopy
  generalize hht1 : ({ ht with
    heap := h
    timerIds := Function.update ht.timerIds (ht.idOf movedNode) slot } : PjTimerHeap) = ht1 at hcopy
  have hheap : ht1.heap = h := by rw [← hht1]
  have hcur : ht1.curSize = ht.curSize := by rw [← hht1]
  have hmax : ht1.maxSize = ht.maxSize := by rw [← hht1]
  have hkey : ht1.keyOf = ht.keyOf := by rw [← hht1]; rfl
  have hid : ht1.idOf = ht.idOf := by rw [← hht1]; rfl
  have hval : ∀ e, (ht1.entries e).timerValue.key = ht.keyOf e := by
    intro e
    rw [← hht1]
    rfl
  have hfix : h = Function.update ht1.heap slot movedNode := by
    rw [hheap, hh, Function.update_idem]
  have hids : ∀ t, t ≠ ht.idOf movedNode → ht1.timerIds t = ht.timerIds t := by
    intro t ht0
    rw [← hht1]
    exact Function.update_of_ne ht0 _ _
  have hnum1 : Numbered ht1 h ht1.curSize := by
    rw [hcur]
    exact ⟨hmax ▸ hnum.small, fun i hi => hid ▸ hnum.pos i hi,
      fun i hi => hid ▸ hmax ▸ hnum.lt i hi, fun i j hi hj => hid ▸ hnum.inj i j hi hj⟩
  have hl1 : Located ht1 h ht1.curSize slot := by
    intro i hi his
    rw [hcur] at hi
    rw [hid, hids _ fun he => his (hnum.inj i slot hi hs (by rw [hself]; exact he))]
    exact hl i hi his
  have back : ∀ ht', Reheaped ht1 h ht1.curSize ht' → Reheaped ht h ht.curSize ht' := by
    intro ht' hr
    rw [hcur] at hr
    refine ⟨?_, hkey ▸ hr.ordered, hid ▸ hr.located, hr.mem, fun t hfr => ?_⟩
    · rw [hr.eq, ← hht1]
    · rw [hr.frame t (hid ▸ hfr)]
      exact hids t fun he => hfr slot hs (by rw [hself]; exact he.symm)
  have hpar : parent slot ≤ slot := by
    rcases Nat.eq_zero_or_pos slot with h0 | h0
    · rw [h0, parent_zero]
    · exact (parent_lt h0).le
  rw [replaceNode, hcopy]
  simp only [bind, Except.bind, heapParent_eq,
    valueAt_ok hnum1.small (show parent slot < ht1.maxSize by omega), PjTimeVal.gte_iff, hval, hheap]
  -- The moved entry goes down, or up where it is earlier than the parent.
  split_ifs with hge
  · have hdown : DownOrder ht1.keyOf h ht1.curSize slot := by
      rw [hkey, hcur, hh]
      refine ho.replace_down _ (fun h0 => ?_) hs
      rw [← hcell _ (by have := parent_lt h0; omega)]
      exact hge
    obtain ⟨ht', hrun, hr⟩ := reheapDown_spec (ht1.curSize + 1) ht1 slot h hfix (by omega)
      (by omega) (by omega) hnum1 hl1 hdown
    exact ⟨ht', hrun, back ht' hr⟩
  · have h0 : 0 < slot := by
      rcases Nat.eq_zero_or_pos slot with h0 | h0
      · rw [h0, parent_zero, ← h0, hself] at hge
        exact absurd le_rfl hge
      · exact h0
    have hup : UpOrder ht1.keyOf h ht1.curSize slot := by
      rw [hkey, hcur, hh]
      refine ho.replace_up _ h0 hs ?_
      rw [← hcell _ (by have := parent_lt h0; omega)]
      exact not_le.1 hge
    obtain ⟨ht', hrun, hr⟩ := reheapUp_spec (slot + 1) ht1 slot h hfix (by omega)
      (show slot < ht1.curSize by omega) (by omega) hnum1 hl1 hup
    exact ⟨ht', hrun, back ht' hr⟩

/-- After a repair the nodes are still numbered. -/
theorem Reheaped.numbered (hr : Reheaped ht h n ht') (hnum : Numbered ht h n) :
    Numbered ht ht'.heap n := by
  constructor
  · exact hnum.small
  · intro i hi
    obtain ⟨k, hk, he⟩ := (hr.mem (ht'.heap i)).1 ⟨i, hi, rfl⟩
    exact he ▸ hnum.pos k hk
  · intro i hi
    obtain ⟨k, hk, he⟩ := (hr.mem (ht'.heap i)).1 ⟨i, hi, rfl⟩
    exact he ▸ hnum.lt k hk
  · intro i j hi hj he
    have h1 := hr.located i hi
    rw [he, hr.located j hj] at h1
    omega

end Timer

/-! ## The invariant of the timer heap

`HeapInv ht free` is the invariant: the heap is ordered, `timer_ids` and `heap` are inverse to each
other, and the numbers no entry has are the members of `free`, linked through `timer_ids` from
`timer_ids_freelist` to `max_size`. The last link is the one that must not be followed: a number is
popped while the free list still has a member, and the arrays grow before the next one
(`HeapInv.room`).

`Accounted` is the part of the invariant that is about the nodes as a set. It is what holds
between taking a node out (or putting one in) and the end of the repair loop.
-/

namespace Timer

open HeapOrder MachineInt

/-- The entry is one of the heap's. -/
def PjTimerHeap.InHeap (ht : PjTimerHeap) (e : Nat) : Prop := ∃ i, i < ht.curSize ∧ ht.heap i = e

instance (ht : PjTimerHeap) (e : Nat) : Decidable (ht.InHeap e) :=
  inferInstanceAs (Decidable (∃ i, i < ht.curSize ∧ ht.heap i = e))

/-- `l` are the numbers met when following the negated links of `ids` from `first` until `last`. -/
def FreeList (ids : Int → Int) (last : Int) : Int → List Int → Prop
  | first, [] => first = last
  | first, t :: l => first = t ∧ ids t < 0 ∧ FreeList ids last (-ids t) l

theorem FreeList.congr {ids ids' : Int → Int} {last : Int} :
    ∀ {l : List Int} {first : Int}, FreeList ids last first l → (∀ t ∈ l, ids' t = ids t) →
      FreeList ids' last first l
  | [], _, h, _ => h
  | t :: l, _, ⟨h1, h2, h3⟩, hids => by
      have ht := hids t (by simp)
      refine ⟨h1, by omega, ?_⟩
      rw [ht]
      exact h3.congr fun u hu => hids u (by simp [hu])

theorem FreeList.append {ids : Int → Int} {mid last : Int} {l' : List Int}
    (h' : FreeList ids last mid l') :
    ∀ {l : List Int} {first : Int}, FreeList ids mid first l → FreeList ids last first (l ++ l')
  | [], _, h => by rw [FreeList] at h; exact h ▸ h'
  | _ :: _, _, ⟨h1, h2, h3⟩ => ⟨h1, h2, FreeList.append h' h3⟩

/-- The numbers from `a` on that a fresh part of the array links. -/
def freshIds (a : Int) (k : Nat) : List Int := (List.range k).map fun i : Nat => a + (i : Int)

theorem mem_freshIds {a t : Int} {k : Nat} : t ∈ freshIds a k ↔ a ≤ t ∧ t < a + k := by
  simp only [freshIds, List.mem_map, List.mem_range]
  constructor
  · rintro ⟨i, hi, rfl⟩
    omega
  · intro h
    exact ⟨(t - a).toNat, by omega, by omega⟩

theorem freshIds_nodup (a : Int) (k : Nat) : (freshIds a k).Nodup :=
  List.nodup_range.map fun i j (h : a + (i : Int) = a + (j : Int)) => by omega

theorem FreeList.fresh (ids : Int → Int) : ∀ (k : Nat) (a : Int), 0 ≤ a →
    (∀ t, a ≤ t → t < a + k → ids t = -(t + 1)) → FreeList ids (a + k) a (freshIds a k)
  | 0, a, _, _ => by simp [freshIds, FreeList]
  | k + 1, a, ha, hids => by
      have hl : freshIds a (k + 1) = a :: freshIds (a + 1) k := by
        simp only [freshIds, List.range_succ_eq_map, List.map_cons, List.map_map]
        refine List.cons_eq_cons.2 ⟨by simp, List.map_congr_left fun i _ => ?_⟩
        simp only [Function.comp_apply, Nat.succ_eq_add_one]
        push_cast
        ring
      have ha' := hids a le_rfl (by omega)
      have hrec := FreeList.fresh ids k (a + 1) (by omega)
        fun t h1 h2 => hids t (by omega) (by push_cast; omega)
      rw [hl]
      refine ⟨rfl, by omega, ?_⟩
      rw [ha', neg_neg]
      have hlast : a + ((k + 1 : Nat) : Int) = a + 1 + k := by push_cast; ring
      rw [hlast]
      exact hrec

/-! ## The invariant -/

/-- The nodes `h` and the free numbers share the numbers of the array. -/
structure Accounted (ht : PjTimerHeap) (h : Nat → Nat) (n : Nat) (free : List Int) : Prop where
  numbered : Numbered ht h n
  active : ∀ e, 1 ≤ ht.idOf e ↔ ∃ k, k < n ∧ h k = e
  freelist : FreeList ht.timerIds ht.maxSize ht.timerIdsFreelist free
  nodup : free.Nodup
  mem_free : ∀ t, t ∈ free ↔ 1 ≤ t ∧ t < ht.maxSize ∧ ∀ i, i < n → ht.idOf (h i) ≠ t
  zero : ht.timerIds 0 < 0
  cb : ∀ e, 1 ≤ ht.idOf e → (ht.entries e).cb = true
  normal : ∀ e, 1 ≤ ht.idOf e → (ht.entries e).timerValue.Normal

/-- The invariant of the timer heap. -/
structure HeapInv (ht : PjTimerHeap) (free : List Int) : Prop where
  accounted : Accounted ht ht.heap ht.curSize free
  ordered : Ordered ht.keyOf ht.heap ht.curSize
  located : ∀ i, i < ht.curSize → ht.timerIds (ht.idOf (ht.heap i)) = i
  count : free.length + ht.curSize + 1 = ht.maxSize
  room : ht.curSize + 2 ≤ ht.maxSize

variable {ht ht' : PjTimerHeap} {h h' : Nat → Nat} {n slot e : Nat} {free : List Int}

theorem HeapInv.active (hi : HeapInv ht free) (e : Nat) : 1 ≤ ht.idOf e ↔ ht.InHeap e :=
  hi.accounted.active e

/-- Numbers the nodes have may be located anew, and the nodes may be rearranged. -/
theorem Accounted.congr (ha : Accounted ht h n free) (hent : ht'.entries = ht.entries)
    (hmax : ht'.maxSize = ht.maxSize) (hfl : ht'.timerIdsFreelist = ht.timerIdsFreelist)
    (hnum : Numbered ht h' n) (hmem : ∀ e, (∃ k, k < n ∧ h' k = e) ↔ ∃ k, k < n ∧ h k = e)
    (hids : ∀ t, (∀ i, i < n → ht.idOf (h i) ≠ t) → ht'.timerIds t = ht.timerIds t) :
    Accounted ht' h' n free := by
  have hid : ht'.idOf = ht.idOf := by funext e; rw [PjTimerHeap.idOf, hent]; rfl
  constructor
  · exact ⟨by rw [hmax]; exact hnum.small, fun i hi => by rw [hid]; exact hnum.pos i hi,
      fun i hi => by rw [hid, hmax]; exact hnum.lt i hi,
      fun i j hi hj => by rw [hid]; exact hnum.inj i j hi hj⟩
  · intro e
    rw [hid, hmem e]
    exact ha.active e
  · rw [hmax, hfl]
    exact ha.freelist.congr fun t ht => hids t ((ha.mem_free t).1 ht).2.2
  · exact ha.nodup
  · intro t
    rw [hid, hmax, ha.mem_free t]
    refine and_congr_right fun _ => and_congr_right fun _ => ⟨fun hf i hi => ?_, fun hf i hi => ?_⟩
    · obtain ⟨k, hk, he⟩ := (hmem (h' i)).1 ⟨i, hi, rfl⟩
      exact he ▸ hf k hk
    · obtain ⟨k, hk, he⟩ := (hmem (h i)).2 ⟨i, hi, rfl⟩
      exact he ▸ hf k hk
  · rw [hids 0 fun i hi => by have := ha.numbered.pos i hi; omega]
    exact ha.zero
  · rw [hid, hent]
    exact ha.cb
  · rw [hid, hent]
    exact ha.normal

/-- A repair loop turns an account of the nodes into the invariant. -/
theorem Reheaped.heapInv (hr : Reheaped ht h n ht') (ha : Accounted ht h n free)
    (hcount : free.length + n + 1 = ht.maxSize) (hroom : n + 2 ≤ ht.maxSize) :
    HeapInv { ht' with curSize := n } free := by
  have heq := hr.eq
  have hent : ht'.entries = ht.entries := by rw [heq]
  have hmax : ht'.maxSize = ht.maxSize := by rw [heq]
  have hid : ht'.idOf = ht.idOf := by funext e; rw [PjTimerHeap.idOf, hent]; rfl
  have hkey : ht'.keyOf = ht.keyOf := by funext e; rw [PjTimerHeap.keyOf, hent]; rfl
  constructor
  · exact ha.congr hent hmax (by rw [heq]) (hr.numbered ha.numbered) hr.mem hr.frame
  · show Ordered ht'.keyOf ht'.heap n
    rw [hkey]
    exact hr.ordered
  · intro i hi
    show ht'.timerIds (ht'.idOf (ht'.heap i)) = i
    rw [hid]
    exact hr.located i hi
  · show free.length + n + 1 = ht'.maxSize
    rw [hmax, hcount]
  · show n + 2 ≤ ht'.maxSize
    rw [hmax]
    exact hroom

/-- Only what the heap holds of an entry matters, and only for the entries in the heap. -/
theorem HeapInv.of_entries (hi : HeapInv ht free)
    (hcore : ht' = { ht with
      entries := ht'.entries, grpRefs := ht'.grpRefs, maxEntriesPerPoll := ht'.maxEntriesPerPoll })
    (hin : ∀ e, ht.InHeap e → (ht'.entries e).timerId = (ht.entries e).timerId ∧
      (ht'.entries e).timerValue = (ht.entries e).timerValue ∧
      (ht'.entries e).cb = (ht.entries e).cb)
    (hout : ∀ e, ¬ ht.InHeap e → (ht'.entries e).timerId < 1) :
    HeapInv ht' free := by
  have hheap : ht'.heap = ht.heap := by rw [hcore]
  have hcur : ht'.curSize = ht.curSize := by rw [hcore]
  have hmax : ht'.maxSize = ht.maxSize := by rw [hcore]
  have hids : ht'.timerIds = ht.timerIds := by rw [hcore]
  have hfl : ht'.timerIdsFreelist = ht.timerIdsFreelist := by rw [hcore]
  have hid : ∀ i, i < ht.curSize → ht'.idOf (ht.heap i) = ht.idOf (ht.heap i) :=
    fun i hi' => (hin _ ⟨i, hi', rfl⟩).1
  have hact : ∀ e, 1 ≤ ht'.idOf e ↔ ht.InHeap e := by
    intro e
    by_cases he : ht.InHeap e
    · rw [PjTimerHeap.idOf, (hin e he).1]
      exact hi.active e
    · have := hout e he
      exact ⟨fun h1 => absurd h1 (by rw [PjTimerHeap.idOf]; omega), fun h1 => absurd h1 he⟩
  obtain ⟨⟨⟨hsmall, hpos, hlt, hinj⟩, hac, hfr, hnd, hmf, hz, hcb, hno⟩, hord, hloc, hcount, hroom⟩ := hi
  constructor
  · rw [hheap, hcur]
    constructor
    · exact ⟨by rw [hmax]; exact hsmall, fun i hi => by rw [hid i hi]; exact hpos i hi,
        fun i hi => by rw [hid i hi, hmax]; exact hlt i hi,
        fun i j hi hj => by rw [hid i hi, hid j hj]; exact hinj i j hi hj⟩
    · exact hact
    · rw [hids, hmax, hfl]; exact hfr
    · exact hnd
    · intro t
      rw [hmf t, hmax]
      refine and_congr_right fun _ => and_congr_right fun _ =>
        ⟨fun hf i hi => ?_, fun hf i hi => ?_⟩
      · rw [hid i hi]; exact hf i hi
      · rw [← hid i hi]; exact hf i hi
    · rw [hids]; exact hz
    · intro e he
      rw [(hin e ((hact e).1 he)).2.2]
      exact hcb e ((hac e).2 ((hact e).1 he))
    · intro e he
      rw [(hin e ((hact e).1 he)).2.1]
      exact hno e ((hac e).2 ((hact e).1 he))
  · rw [hheap, hcur]
    refine hord.congr fun i hi => ?_
    rw [PjTimerHeap.keyOf, (hin _ ⟨i, hi, rfl⟩).2.1]
    rfl
  · rw [hcur, hheap, hids]
    intro i hi
    rw [hid i hi]
    exact hloc i hi
  · rw [hcur, hmax]; exact hcount
  · rw [hcur, hmax]; exact hroom

/-! ## Creation -/

/-- A link to the next cell, while the number of that cell is an `int`. -/
theorem freshLink_of_range {i : Int} (h0 : 0 ≤ i) (hi : i < 2147483647) :
    freshLink i = -(i + 1) := by
  have hnext : int32 (i + 1) = i + 1 := int32_of_range (by omega) (by omega)
  rw [freshLink, hnext, int32_of_range (by omega) (by omega)]

theorem pjTimerHeapCreate_inv {size : Nat} (hsize : size ≤ 2147483645) (ids : Nat → Int)
    (cbs : Nat → Bool) :
    ∃ ht, pjTimerHeapCreate size ids cbs = .ok ht ∧ HeapInv ht (freshIds 1 (size + 1)) ∧
      ht.curSize = 0 := by
  have hmax : sizeT (size + 2) = size + 2 := sizeT_of_lt (by omega)
  have hcells : cellsOf 4 (size + 2) = size + 2 :=
    cellsOf_small (by omega) (by omega) (by omega)
  rw [pjTimerHeapCreate, hmax, hcells, if_pos le_rfl]
  refine ⟨_, rfl, ?_, rfl⟩
  constructor
  · constructor
    · exact ⟨show size + 2 < 2147483648 by omega, fun i hi => absurd hi (by simp),
        fun i hi => absurd hi (by simp), fun i j hi => absurd hi (by simp)⟩
    · intro e
      simp [PjTimerHeap.idOf, pjTimerEntryInit]
    · have hm : ((size + 2 : Nat) : Int) = 1 + ((size + 1 : Nat) : Int) := by push_cast; ring
      show FreeList freshLink ((size + 2 : Nat) : Int) 1 _
      rw [hm]
      exact FreeList.fresh freshLink (size + 1) 1 (by omega)
        fun t h1 h2 => freshLink_of_range (by omega) (by push_cast at h2; omega)
    · exact freshIds_nodup _ _
    · intro t
      rw [mem_freshIds]
      simp only [Nat.not_lt_zero, false_implies, implies_true, and_true]
      push_cast
      omega
    · show freshLink 0 < 0
      rw [freshLink_of_range (by omega) (by omega)]
      omega
    · intro e he
      simp [PjTimerHeap.idOf, pjTimerEntryInit] at he
    · intro e he
      simp [PjTimerHeap.idOf, pjTimerEntryInit] at he
  · intro i _ hi
    simp at hi
  · intro i hi
    simp at hi
  · simp [freshIds]
  · simp

end Timer
