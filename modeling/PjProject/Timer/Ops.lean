import PjProject.Timer.Reheap

set_option autoImplicit false

/-! # The operations of the timer heap keep its invariant

One lemma for each operation of `timer.c`: from the invariant it returns, without an access beyond
the arrays and with every assertion true, to the invariant, and says which entries are in the heap
afterwards and which number they have.
-/

namespace Timer

open HeapOrder MachineInt

variable {ht ht' : PjTimerHeap} {h h' : Nat → Nat} {n slot e : Nat} {free : List Int}

/-- Two slots never hold the same entry. -/
theorem HeapInv.heap_inj (hi : HeapInv ht free) {i j : Nat} (h1 : i < ht.curSize)
    (h2 : j < ht.curSize) (he : ht.heap i = ht.heap j) : i = j :=
  hi.accounted.numbered.inj i j h1 h2 (by rw [he])

/-! ## The free list -/

/-- The list starts at one of its members, or where it ends. -/
theorem FreeList.first_range {ids : Int → Int} {first last : Int} {l : List Int}
    (hl : FreeList ids last first l) (hmem : ∀ t ∈ l, 1 ≤ t ∧ t < last) (hlast : 1 ≤ last) :
    1 ≤ first ∧ first ≤ last := by
  cases l with
  | nil =>
      rw [FreeList] at hl
      omega
  | cons t l =>
      have ht := hmem t (by simp)
      have hfirst := hl.1
      omega

theorem HeapInv.small (hi : HeapInv ht free) : ht.maxSize < 2147483648 :=
  hi.accounted.numbered.small

theorem HeapInv.first_range (hi : HeapInv ht free) :
    1 ≤ ht.timerIdsFreelist ∧ ht.timerIdsFreelist ≤ ht.maxSize := by
  have hroom := hi.room
  exact hi.accounted.freelist.first_range
    (fun t hm => ⟨((hi.accounted.mem_free t).1 hm).1, ((hi.accounted.mem_free t).1 hm).2.1⟩)
    (by omega)

/-- `push_freelist` inside the arrays. -/
theorem pushFreelist_ok (hi : HeapInv ht free) {t : Int} (h1 : 1 ≤ t) (h2 : t < ht.maxSize) :
    pushFreelist ht t = .ok { ht with
      timerIds := Function.update ht.timerIds t (-ht.timerIdsFreelist)
      timerIdsFreelist := t } := by
  have hsmall := hi.small
  obtain ⟨hf1, hf2⟩ := hi.first_range
  rw [pushFreelist, int32_of_range (by omega) (by omega), setTimerId_ok hsmall (by omega) h2]
  rfl

/-- `pop_freelist` takes the first number of the free list. -/
theorem popFreelist_ok {t : Int} (hi : HeapInv ht (t :: free)) :
    popFreelist ht = .ok ({ ht with timerIdsFreelist := -ht.timerIds t }, t) := by
  have hsmall := hi.small
  have hroom := hi.room
  have hmem : ∀ u ∈ t :: free, 1 ≤ u ∧ u < (ht.maxSize : Int) := fun u hm =>
    ⟨((hi.accounted.mem_free u).1 hm).1, ((hi.accounted.mem_free u).1 hm).2.1⟩
  have ht := hmem t (by simp)
  obtain ⟨hfirst, -, hrest⟩ := hi.accounted.freelist
  obtain ⟨hn1, hn2⟩ := hrest.first_range (fun u hm => hmem u (by simp [hm])) (by omega)
  rw [popFreelist, hfirst, timerIdAt_ok hsmall (by omega) ht.2]
  simp only [bind, Except.bind]
  rw [int32_of_range (by omega) (by omega)]
  rfl

/-! ## Removing a node -/

/-- The heap when `remove_node` has returned the number of the node in `slot` and shortened the
heap, before it fills the slot. -/
def PjTimerHeap.release (ht : PjTimerHeap) (slot : Nat) : PjTimerHeap :=
  { ht with
    timerIds := Function.update ht.timerIds (ht.idOf (ht.heap slot)) (-ht.timerIdsFreelist)
    timerIdsFreelist := ht.idOf (ht.heap slot)
    curSize := ht.curSize - 1
    entries := Function.update ht.entries (ht.heap slot)
      { ht.entries (ht.heap slot) with timerId := -1 } }

theorem release_idOf_other (he : e ≠ ht.heap slot) : (ht.release slot).idOf e = ht.idOf e := by
  simp [PjTimerHeap.release, PjTimerHeap.idOf, Function.update_of_ne he]

theorem release_idOf_self : (ht.release slot).idOf (ht.heap slot) = -1 := by
  simp [PjTimerHeap.release, PjTimerHeap.idOf]

theorem release_keyOf : (ht.release slot).keyOf = ht.keyOf := by
  funext e
  by_cases he : e = ht.heap slot
  · simp [PjTimerHeap.release, PjTimerHeap.keyOf, he]
  · simp [PjTimerHeap.release, PjTimerHeap.keyOf, Function.update_of_ne he]

/-- The nodes that are left: the last one has taken the place of the one removed. -/
theorem release_mem (hi : HeapInv ht free) (hs : slot < ht.curSize) (e : Nat) :
    (∃ k, k < ht.curSize - 1 ∧
      Function.update ht.heap slot (ht.heap (ht.curSize - 1)) k = e) ↔
      ht.InHeap e ∧ e ≠ ht.heap slot := by
  constructor
  · rintro ⟨k, hk, rfl⟩
    by_cases hks : k = slot
    · rw [hks, Function.update_self]
      refine ⟨⟨_, by omega, rfl⟩, fun he => ?_⟩
      have := hi.heap_inj (by omega) hs he
      omega
    · rw [Function.update_of_ne hks]
      exact ⟨⟨k, by omega, rfl⟩, fun he => hks (hi.heap_inj (by omega) hs he)⟩
  · rintro ⟨⟨k, hk, rfl⟩, hne⟩
    have hks : k ≠ slot := fun he => hne (by rw [he])
    by_cases hkl : k = ht.curSize - 1
    · exact ⟨slot, by omega, by rw [Function.update_self, hkl]⟩
    · exact ⟨k, by omega, Function.update_of_ne hks _ _⟩

/-- A node that is left is the node of one old slot, and not of the one removed. -/
theorem release_cell (hi : HeapInv ht free) (hs : slot < ht.curSize) (k : Nat)
    (hk : k < ht.curSize - 1) :
    ∃ j, j < ht.curSize ∧ j ≠ slot ∧ (k ≠ slot → j = k) ∧ (k = slot → j = ht.curSize - 1) ∧
      Function.update ht.heap slot (ht.heap (ht.curSize - 1)) k = ht.heap j ∧
      (ht.release slot).idOf (ht.heap j) = ht.idOf (ht.heap j) := by
  have other : ∀ j, j < ht.curSize → j ≠ slot →
      (ht.release slot).idOf (ht.heap j) = ht.idOf (ht.heap j) :=
    fun j hj hjs => release_idOf_other fun he => hjs (hi.heap_inj hj hs he)
  by_cases hks : k = slot
  · exact ⟨ht.curSize - 1, by omega, by omega, fun h => absurd hks h, fun _ => rfl,
      by rw [hks, Function.update_self], other _ (by omega) (by omega)⟩
  · exact ⟨k, by omega, hks, fun _ => rfl, fun h => absurd h hks,
      Function.update_of_ne hks _ _, other k (by omega) hks⟩

theorem release_numbered (hi : HeapInv ht free) (hs : slot < ht.curSize) :
    Numbered (ht.release slot) (Function.update ht.heap slot (ht.heap (ht.curSize - 1)))
      (ht.curSize - 1) := by
  have hnum := hi.accounted.numbered
  constructor
  · exact hnum.small
  · intro k hk
    obtain ⟨j, hj, -, -, -, hcell, hid⟩ := release_cell hi hs k hk
    rw [hcell, hid]
    exact hnum.pos j hj
  · intro k hk
    obtain ⟨j, hj, -, -, -, hcell, hid⟩ := release_cell hi hs k hk
    rw [hcell, hid]
    exact hnum.lt j hj
  · intro k k' hk hk' he
    obtain ⟨j, hj, -, h1, h2, hcell, hid⟩ := release_cell hi hs k hk
    obtain ⟨j', hj', -, h1', h2', hcell', hid'⟩ := release_cell hi hs k' hk'
    rw [hcell, hcell', hid, hid'] at he
    have := hnum.inj j j' hj hj' he
    by_cases a : k = slot <;> by_cases b : k' = slot
    · omega
    · have := h2 a; have := h1' b; omega
    · have := h1 a; have := h2' b; omega
    · have := h1 a; have := h1' b; omega

theorem release_accounted (hi : HeapInv ht free) (hs : slot < ht.curSize) :
    Accounted (ht.release slot) (Function.update ht.heap slot (ht.heap (ht.curSize - 1)))
      (ht.curSize - 1) (ht.idOf (ht.heap slot) :: free) := by
  have ha := hi.accounted
  have hpos := ha.numbered.pos slot hs
  have hlt := ha.numbered.lt slot hs
  have hnotfree : ht.idOf (ht.heap slot) ∉ free := fun hm =>
    ((ha.mem_free _).1 hm).2.2 slot hs rfl
  have hact : ∀ e, 1 ≤ (ht.release slot).idOf e ↔ ht.InHeap e ∧ e ≠ ht.heap slot := by
    intro e
    by_cases he : e = ht.heap slot
    · rw [he, release_idOf_self]
      simp
    · rw [release_idOf_other he, hi.active e]
      simp [he]
  -- the released number is the new head of the free list and links to the old one
  have hhead := hi.first_range.1
  constructor
  · exact release_numbered hi hs
  · intro e
    rw [hact e, release_mem hi hs e]
  · refine ⟨rfl, ?_, ?_⟩
    · show Function.update ht.timerIds _ _ _ < 0
      rw [Function.update_self]
      omega
    · show FreeList _ _ (-Function.update ht.timerIds _ _ _) free
      rw [Function.update_self, neg_neg]
      refine ha.freelist.congr fun t hm => Function.update_of_ne (fun he => hnotfree ?_) _ _
      rw [← he]
      exact hm
  · exact List.nodup_cons.2 ⟨hnotfree, ha.nodup⟩
  · intro t
    rw [List.mem_cons, ha.mem_free t]
    show _ ↔ 1 ≤ t ∧ t < ht.maxSize ∧ _
    constructor
    · rintro (rfl | ⟨h1, h2, h3⟩)
      · refine ⟨hpos, hlt, fun k hk => ?_⟩
        obtain ⟨j, hj, hjs, -, -, hcell, hid⟩ := release_cell hi hs k hk
        rw [hcell, hid]
        exact fun he => hjs (ha.numbered.inj j slot hj hs he)
      · refine ⟨h1, h2, fun k hk => ?_⟩
        obtain ⟨j, hj, -, -, -, hcell, hid⟩ := release_cell hi hs k hk
        rw [hcell, hid]
        exact h3 j hj
    · rintro ⟨h1, h2, h3⟩
      by_cases ht0 : t = ht.idOf (ht.heap slot)
      · exact Or.inl ht0
      · refine Or.inr ⟨h1, h2, fun i hi' he => ?_⟩
        have his : i ≠ slot := fun h => ht0 (by rw [← he, h])
        obtain ⟨k, hk, hcell⟩ := (release_mem hi hs (ht.heap i)).2
          ⟨⟨i, hi', rfl⟩, fun h => his (hi.heap_inj hi' hs h)⟩
        refine h3 k hk ?_
        rw [hcell, release_idOf_other fun h => his (hi.heap_inj hi' hs h)]
        exact he
  · show Function.update ht.timerIds _ _ 0 < 0
    rw [Function.update_of_ne (by omega)]
    exact ha.zero
  · intro e he
    obtain ⟨hin, hne⟩ := (hact e).1 he
    show (Function.update ht.entries _ _ e).cb = true
    rw [Function.update_of_ne hne]
    exact ha.cb e ((hi.active e).2 hin)
  · intro e he
    obtain ⟨hin, hne⟩ := (hact e).1 he
    show (Function.update ht.entries _ _ e).timerValue.Normal
    rw [Function.update_of_ne hne]
    exact ha.normal e ((hi.active e).2 hin)

/-- What `remove_node` leaves of the heap but for the arrangement of the nodes. -/
structure RemovedNode (ht : PjTimerHeap) (e : Nat) (ht' : PjTimerHeap) : Prop where
  entries : ht'.entries = Function.update ht.entries e { ht.entries e with timerId := -1 }
  perPoll : ht'.maxEntriesPerPoll = ht.maxEntriesPerPoll
  grpRefs : ht'.grpRefs = ht.grpRefs
  mem : ∀ x, ht'.InHeap x ↔ ht.InHeap x ∧ x ≠ e

theorem removeNode_spec (hi : HeapInv ht free) (hs : slot < ht.curSize) :
    ∃ ht', removeNode ht slot = .ok (ht', ht.heap slot) ∧
      HeapInv ht' (ht.idOf (ht.heap slot) :: free) ∧ RemovedNode ht (ht.heap slot) ht' := by
  have ha := release_accounted hi hs
  have hpos := hi.accounted.numbered.pos slot hs
  have hlt := hi.accounted.numbered.lt slot hs
  have hroom := hi.room
  have hcount := hi.count
  have hord : Ordered (ht.release slot).keyOf ht.heap (ht.curSize - 1) := by
    rw [release_keyOf]
    exact hi.ordered.mono (by omega)
  have hids : ∀ i, i < ht.curSize → i ≠ slot →
      (ht.release slot).timerIds ((ht.release slot).idOf (ht.heap i)) = i := by
    intro i hin his
    rw [release_idOf_other fun he => his (hi.heap_inj hin hs he)]
    show Function.update ht.timerIds _ _ _ = _
    rw [Function.update_of_ne fun he => his (hi.accounted.numbered.inj i slot hin hs he)]
    exact hi.located i hin
  have hpush : removeNode ht slot =
      if slot < ht.curSize - 1 then do
        let ht' ← replaceNode (ht.release slot) slot (ht.heap (ht.curSize - 1))
        return (ht', ht.heap slot)
      else .ok (ht.release slot, ht.heap slot) := by
    have hcells : cellsOf 8 ht.maxSize = ht.maxSize :=
      cellsOf_small (by omega) (by omega) (by have := hi.small; omega)
    have hpushed := pushFreelist_ok hi (t := (ht.entries (ht.heap slot)).timerId) hpos hlt
    rw [removeNode, heapAt_ok hi.small (by omega)]
    simp only [bind, Except.bind, hpushed, pure, Except.pure, PjTimerHeap.setEntry]
    by_cases hlast : slot < ht.curSize - 1
    · simp only [hlast, if_true, PjTimerHeap.heapAt, hcells,
        show ht.curSize - 1 < ht.maxSize by omega]
      rfl
    · simp only [hlast, if_false]
      rfl
  rw [hpush]
  have hmem : ∀ ht' : PjTimerHeap, ht'.curSize = ht.curSize - 1 →
      (∀ x, (∃ k, k < ht.curSize - 1 ∧ ht'.heap k = x) ↔ ∃ k, k < ht.curSize - 1 ∧
        Function.update ht.heap slot (ht.heap (ht.curSize - 1)) k = x) →
      ∀ x, ht'.InHeap x ↔ ht.InHeap x ∧ x ≠ ht.heap slot := by
    intro ht' hcur hx x
    rw [PjTimerHeap.InHeap, hcur, hx x]
    exact release_mem hi hs x
  by_cases hlast : slot < ht.curSize - 1
  · have hloc : Located (ht.release slot) (Function.update ht.heap slot (ht.heap (ht.curSize - 1)))
        (ht.curSize - 1) slot := by
      intro i hin his
      rw [Function.update_of_ne his]
      exact hids i (by omega) his
    obtain ⟨ht', hrun, hr⟩ := replaceNode_spec
      (show _ = Function.update (ht.release slot).heap slot (ht.heap (ht.curSize - 1)) from rfl)
      hlast (show ht.curSize - 1 ≤ ht.maxSize by omega) ha.numbered hloc hord
    have hcur : ht'.curSize = ht.curSize - 1 := by rw [hr.eq]; rfl
    have hinv := hr.heapInv ha (show free.length + 1 + (ht.curSize - 1) + 1 = ht.maxSize by omega)
      (show ht.curSize - 1 + 2 ≤ ht.maxSize by omega)
    rw [show ({ ht' with curSize := (ht.release slot).curSize } : PjTimerHeap) = ht' by
      rw [show (ht.release slot).curSize = ht'.curSize from hcur.symm]] at hinv
    refine ⟨ht', by rw [if_pos hlast, hrun]; rfl, hinv, ?_⟩
    exact ⟨by rw [hr.eq]; rfl, by rw [hr.eq]; rfl, by rw [hr.eq]; rfl, hmem ht' hcur hr.mem⟩
  · -- the last node is the one removed: nothing moves
    have hsl : slot = ht.curSize - 1 := by omega
    have hsame : Function.update ht.heap slot (ht.heap (ht.curSize - 1)) = ht.heap := by
      rw [← hsl, Function.update_eq_self]
    refine ⟨ht.release slot, if_neg hlast, ⟨?_, hord, ?_, ?_, ?_⟩, rfl, rfl, rfl, ?_⟩
    · rw [hsame] at ha
      exact ha
    · exact fun i (hin : i < ht.curSize - 1) => hids i (by omega) (by omega)
    · show free.length + 1 + (ht.curSize - 1) + 1 = ht.maxSize
      omega
    · show ht.curSize - 1 + 2 ≤ ht.maxSize
      omega
    · refine hmem _ rfl fun x => ?_
      rw [hsame]
      rfl

/-! ## Inserting a node -/

/-- The arrays can be doubled while the numbers of the new cells are `int`s. -/
def PjTimerHeap.CanGrow (ht : PjTimerHeap) : Prop :=
  ht.curSize + 2 < ht.maxSize ∨ ht.maxSize < 1073741824

instance PjTimerHeap.decidableCanGrow (ht : PjTimerHeap) : Decidable ht.CanGrow :=
  inferInstanceAs (Decidable (_ ∨ _))

/-- The heap when `grow_heap` has doubled the arrays. -/
def PjTimerHeap.doubled (ht : PjTimerHeap) : PjTimerHeap :=
  { ht with
    timerIds := fun i =>
      if (ht.maxSize : Int) ≤ i ∧ i < ((ht.maxSize * 2 : Nat) : Int) then freshLink i
      else ht.timerIds i
    maxSize := ht.maxSize * 2 }

theorem doubled_timerIds_old {t : Int} (h : t < ht.maxSize) :
    ht.doubled.timerIds t = ht.timerIds t :=
  if_neg fun hc => absurd hc.1 (by omega)

theorem growHeap_ok (hgrow : ht.maxSize < 1073741824) : growHeap ht = .ok ht.doubled := by
  have hnew : sizeT (ht.maxSize * 2) = ht.maxSize * 2 := sizeT_of_lt (by omega)
  have hold8 : cellsOf 8 ht.maxSize = ht.maxSize :=
    cellsOf_small (by omega) (by omega) (by omega)
  have hold4 : cellsOf 4 ht.maxSize = ht.maxSize :=
    cellsOf_small (by omega) (by omega) (by omega)
  have hnew8 : cellsOf 8 (ht.maxSize * 2) = ht.maxSize * 2 :=
    cellsOf_small (by omega) (by omega) (by omega)
  have hnew4 : cellsOf 4 (ht.maxSize * 2) = ht.maxSize * 2 :=
    cellsOf_small (by omega) (by omega) (by omega)
  rw [growHeap, hnew, hold8, hold4, hnew8, hnew4, if_pos ⟨by omega, by omega, fun _ => le_rfl⟩]
  rfl

/-- `grow_heap` appends the new numbers to the free list. -/
theorem doubled_accounted (ha : Accounted ht h n free) (hmax : 1 ≤ ht.maxSize)
    (hgrow : ht.maxSize < 1073741824) :
    Accounted ht.doubled h n (free ++ freshIds ht.maxSize ht.maxSize) := by
  have hsize : ((ht.maxSize * 2 : Nat) : Int) = ht.maxSize + ht.maxSize := by push_cast; ring
  have hnew : ∀ t : Int, ht.maxSize ≤ t → t < ht.maxSize + ht.maxSize →
      ht.doubled.timerIds t = -(t + 1) := by
    intro t h1 h2
    refine (if_pos ⟨h1, by rw [hsize]; exact h2⟩).trans ?_
    exact freshLink_of_range (by omega) (by omega)
  constructor
  · refine ⟨show ht.maxSize * 2 < 2147483648 by omega, ha.numbered.pos, fun i hi => ?_,
      ha.numbered.inj⟩
    have := ha.numbered.lt i hi
    show ht.idOf (h i) < ((ht.maxSize * 2 : Nat) : Int)
    omega
  · exact ha.active
  · show FreeList _ ((ht.maxSize * 2 : Nat) : Int) ht.timerIdsFreelist _
    rw [hsize]
    refine FreeList.append (FreeList.fresh _ _ _ (by omega) hnew) (ha.freelist.congr fun t hm => ?_)
    exact doubled_timerIds_old ((ha.mem_free t).1 hm).2.1
  · refine List.Nodup.append ha.nodup (freshIds_nodup _ _) fun t hm hm' => ?_
    have h1 := ((ha.mem_free t).1 hm).2.1
    have h2 := (mem_freshIds.1 hm').1
    omega
  · intro t
    rw [List.mem_append, ha.mem_free t, mem_freshIds]
    show _ ↔ 1 ≤ t ∧ t < ((ht.maxSize * 2 : Nat) : Int) ∧ ∀ i, i < n → ht.idOf (h i) ≠ t
    rw [hsize]
    constructor
    · rintro (⟨h1, h2, h3⟩ | ⟨h1, h2⟩)
      · exact ⟨h1, by omega, h3⟩
      · refine ⟨by omega, h2, fun i hi he => ?_⟩
        have := ha.numbered.lt i hi
        omega
    · rintro ⟨h1, h2, h3⟩
      by_cases hlt : t < ht.maxSize
      · exact Or.inl ⟨h1, hlt, h3⟩
      · exact Or.inr ⟨by omega, h2⟩
  · rw [doubled_timerIds_old (by omega)]
    exact ha.zero
  · exact ha.cb
  · exact ha.normal

/-- What putting a node in leaves of the heap but for the arrangement of the nodes. -/
structure InsertedNode (ht : PjTimerHeap) (e : Nat) (ht' : PjTimerHeap) : Prop where
  entries : ht'.entries = ht.entries
  perPoll : ht'.maxEntriesPerPoll = ht.maxEntriesPerPoll
  grpRefs : ht'.grpRefs = ht.grpRefs
  mem : ∀ x, ht'.InHeap x ↔ ht.InHeap x ∨ x = e

/-- The nodes of the heap and one behind them. -/
theorem push_mem (x : Nat) :
    (∃ k, k < ht.curSize + 1 ∧ Function.update ht.heap ht.curSize e k = x) ↔
      ht.InHeap x ∨ x = e := by
  constructor
  · rintro ⟨k, hk, rfl⟩
    by_cases hkc : k = ht.curSize
    · exact Or.inr (by rw [hkc, Function.update_self])
    · exact Or.inl ⟨k, by omega, by rw [Function.update_of_ne hkc]⟩
  · rintro (⟨k, hk, rfl⟩ | rfl)
    · exact ⟨k, by omega, Function.update_of_ne (by omega) _ _⟩
    · exact ⟨ht.curSize, by omega, Function.update_self _ _ _⟩

/-- `insert_node` makes room first when the heap is about to fill up. -/
theorem insertNode_spec
    (ha : Accounted ht (Function.update ht.heap ht.curSize e) (ht.curSize + 1) free)
    (hloc : ∀ i, i < ht.curSize → ht.timerIds (ht.idOf (ht.heap i)) = i)
    (ho : Ordered ht.keyOf ht.heap ht.curSize)
    (hcount : free.length + ht.curSize + 2 = ht.maxSize) (hgrow : ht.CanGrow) :
    ∃ ht' free', insertNode ht e = .ok ht' ∧ HeapInv ht' free' ∧ InsertedNode ht e ht' := by
  have hsmall := ha.numbered.small
  have hsum : sizeT (ht.curSize + 2) = ht.curSize + 2 := sizeT_of_lt (by omega)
  -- the heap after `grow_heap`, if that was called
  obtain ⟨ht2, free2, hht2, ha2, hloc2, hcount2, hroom2, hsame⟩ :
      ∃ ht2 free2, growIfFull ht = .ok ht2 ∧
        Accounted ht2 (Function.update ht.heap ht.curSize e) (ht.curSize + 1) free2 ∧
        (∀ i, i < ht.curSize → ht2.timerIds (ht.idOf (ht.heap i)) = i) ∧
        free2.length + (ht.curSize + 1) + 1 = ht2.maxSize ∧ ht.curSize + 1 + 2 ≤ ht2.maxSize ∧
        ht2 = { ht with maxSize := ht2.maxSize, timerIds := ht2.timerIds } := by
    rw [growIfFull, hsum]
    by_cases hg : ht.curSize + 2 ≥ ht.maxSize
    · have hlt2 : ht.maxSize < 1073741824 := hgrow.resolve_left (by omega)
      refine ⟨ht.doubled, _, by rw [if_pos hg, growHeap_ok hlt2],
        doubled_accounted ha (by omega) hlt2, fun i hi => ?_, ?_, ?_, rfl⟩
      · have hlt := ha.numbered.lt i (by omega)
        rw [Function.update_of_ne (by omega)] at hlt
        rw [doubled_timerIds_old hlt, hloc i hi]
      · show _ = ht.maxSize * 2
        simp [freshIds]
        omega
      · show _ ≤ ht.maxSize * 2
        omega
    · exact ⟨ht, free, if_neg hg, ha, hloc, by omega, by omega, rfl⟩
  have hheap : ht2.heap = ht.heap := by rw [hsame]
  have hcur : ht2.curSize = ht.curSize := by rw [hsame]
  have hid : ht2.idOf = ht.idOf := by rw [hsame]; rfl
  have hkey : ht2.keyOf = ht.keyOf := by rw [hsame]; rfl
  have hl2 : Located ht2 (Function.update ht.heap ht.curSize e) (ht.curSize + 1) ht.curSize := by
    intro i hi his
    rw [Function.update_of_ne his, hid]
    exact hloc2 i (by omega)
  have hup : UpOrder ht2.keyOf (Function.update ht.heap ht.curSize e) (ht.curSize + 1)
      ht.curSize := by
    rw [hkey]
    exact ho.push e
  obtain ⟨ht', hrun, hr⟩ := reheapUp_spec (ht.curSize + 1) ht2 ht.curSize _ (by rw [hheap])
    (by omega) (by omega) (by omega) ha2.numbered hl2 hup
  have hcur' : ht'.curSize = ht.curSize := by rw [hr.eq, hcur]
  refine ⟨{ ht' with curSize := ht.curSize + 1 }, free2, ?_, hr.heapInv ha2 hcount2 hroom2, ?_⟩
  · simp only [insertNode, hht2, hcur, hrun, bind, Except.bind, pure, Except.pure, hcur']
  · refine ⟨?_, ?_, ?_, fun x => ?_⟩
    · show ht'.entries = ht.entries
      rw [hr.eq, hsame]
    · show ht'.maxEntriesPerPoll = _
      rw [hr.eq, hsame]
    · show ht'.grpRefs = _
      rw [hr.eq, hsame]
    · rw [← push_mem x]
      exact hr.mem x

/-! ## Scheduling -/

/-- The heap when `schedule_entry` has given the entry a number and an expiry time. -/
def PjTimerHeap.take (ht : PjTimerHeap) (e : Nat) (t : Int) (v : PjTimeVal) : PjTimerHeap :=
  { ht with
    timerIdsFreelist := -ht.timerIds t
    entries := Function.update ht.entries e
      { ht.entries e with timerId := t, timerValue := v } }

theorem take_entries_other {t : Int} {v : PjTimeVal} {x : Nat} (hx : x ≠ e) :
    (ht.take e t v).entries x = ht.entries x := Function.update_of_ne hx _ _

theorem take_entries_self {t : Int} {v : PjTimeVal} :
    (ht.take e t v).entries e = { ht.entries e with timerId := t, timerValue := v } :=
  Function.update_self _ _ _

theorem take_accounted {t : Int} {v : PjTimeVal} (hi : HeapInv ht (t :: free))
    (he : ¬ ht.InHeap e) (hcb : (ht.entries e).cb = true) (hv : v.Normal) :
    Accounted (ht.take e t v) (Function.update ht.heap ht.curSize e) (ht.curSize + 1) free := by
  have ha := hi.accounted
  obtain ⟨ht1, ht2, hunused⟩ := (ha.mem_free t).1 (by simp)
  obtain ⟨hnotin, hnd⟩ := List.nodup_cons.1 ha.nodup
  have hne : ∀ i, i < ht.curSize → ht.heap i ≠ e := fun i hin hx => he ⟨i, hin, hx⟩
  have hself : (ht.take e t v).idOf e = t := by
    rw [PjTimerHeap.idOf, take_entries_self]
  have hother : ∀ x, x ≠ e → (ht.take e t v).idOf x = ht.idOf x := by
    intro x hx
    rw [PjTimerHeap.idOf, take_entries_other hx]
    rfl
  -- The cells in front keep their ids, the last one gets `t`.
  have hcell : ∀ i, i < ht.curSize →
      (ht.take e t v).idOf (Function.update ht.heap ht.curSize e i) = ht.idOf (ht.heap i) := by
    intro i hin
    rw [Function.update_of_ne (by omega), hother _ (hne i hin)]
  have hlast : (ht.take e t v).idOf (Function.update ht.heap ht.curSize e ht.curSize) = t := by
    rw [Function.update_self, hself]
  have split : ∀ i, i < ht.curSize + 1 → i < ht.curSize ∨ i = ht.curSize := fun i hin => by omega
  constructor
  · constructor
    · exact ha.numbered.small
    · intro i hin
      rcases split i hin with hin | rfl
      · rw [hcell i hin]
        exact ha.numbered.pos i hin
      · rw [hlast]
        exact ht1
    · intro i hin
      rcases split i hin with hin | rfl
      · rw [hcell i hin]
        exact ha.numbered.lt i hin
      · rw [hlast]
        exact ht2
    · intro i j hin hjn heq
      rcases split i hin with hin | rfl <;> rcases split j hjn with hjn | rfl
      · rw [hcell i hin, hcell j hjn] at heq
        exact ha.numbered.inj i j hin hjn heq
      · rw [hcell i hin, hlast] at heq
        exact absurd heq (hunused i hin)
      · rw [hlast, hcell j hjn] at heq
        exact absurd heq.symm (hunused j hjn)
      · rfl
  · intro x
    rw [push_mem x]
    by_cases hx : x = e
    · rw [hx, hself]
      exact ⟨fun _ => Or.inr rfl, fun _ => ht1⟩
    · rw [hother x hx, hi.active x]
      simp [hx]
  · exact ha.freelist.2.2
  · exact hnd
  · intro u
    have hu := ha.mem_free u
    rw [List.mem_cons] at hu
    show _ ↔ 1 ≤ u ∧ u < ht.maxSize ∧ _
    constructor
    · intro hm
      obtain ⟨h1, h2, h3⟩ := hu.1 (Or.inr hm)
      refine ⟨h1, h2, fun i hin => ?_⟩
      rcases split i hin with hin | rfl
      · rw [hcell i hin]
        exact h3 i hin
      · rw [hlast]
        exact fun h => hnotin (h ▸ hm)
    · rintro ⟨h1, h2, h3⟩
      have hut : u ≠ t := by
        have := h3 ht.curSize (by omega)
        rw [hlast] at this
        exact this.symm
      refine (hu.2 ⟨h1, h2, fun i hin => ?_⟩).resolve_left hut
      rw [← hcell i hin]
      exact h3 i (by omega)
  · exact ha.zero
  · intro x hx
    by_cases hxe : x = e
    · rw [hxe, take_entries_self]
      exact hcb
    · rw [hother x hxe] at hx
      rw [take_entries_other hxe]
      exact ha.cb x hx
  · intro x hx
    by_cases hxe : x = e
    · rw [hxe, take_entries_self]
      exact hv
    · rw [hother x hxe] at hx
      rw [take_entries_other hxe]
      exact ha.normal x hx

/-- What scheduling the entry `e` for the time `v` makes of the heap. -/
structure ScheduledEntry (ht : PjTimerHeap) (e : Nat) (v : PjTimeVal) (ht' : PjTimerHeap) :
    Prop where
  self : (ht'.entries e).timerValue = v
  other : ∀ x, x ≠ e → ht'.entries x = ht.entries x
  perPoll : ht'.maxEntriesPerPoll = ht.maxEntriesPerPoll
  mem : ∀ x, ht'.InHeap x ↔ ht.InHeap x ∨ x = e

/-- **`schedule_entry`** never fills the heap, so it never refuses an entry. -/
theorem scheduleEntry_spec {v : PjTimeVal} (hi : HeapInv ht free) (he : ¬ ht.InHeap e)
    (hcb : (ht.entries e).cb = true) (hv : v.Normal) (hgrow : ht.CanGrow) :
    ∃ ht' free', scheduleEntry ht e v = .ok (ht', .success) ∧ HeapInv ht' free' ∧
      ScheduledEntry ht e v ht' := by
  have hroom := hi.room
  have hcount := hi.count
  cases free with
  | nil => simp at hcount; omega
  | cons t rest =>
      have hpop := popFreelist_ok hi
      have hne : ∀ i, i < ht.curSize → ht.heap i ≠ e := fun i hin hx => he ⟨i, hin, hx⟩
      have hloc : ∀ i, i < ht.curSize →
          ht.timerIds ((ht.take e t v).idOf (ht.heap i)) = i := by
        intro i hin
        rw [PjTimerHeap.idOf, take_entries_other (hne i hin)]
        exact hi.located i hin
      have hord : Ordered (ht.take e t v).keyOf ht.heap ht.curSize := by
        refine hi.ordered.congr fun i hin => ?_
        rw [PjTimerHeap.keyOf, take_entries_other (hne i hin)]
        rfl
      obtain ⟨ht', free', hrun, hinv, hins⟩ := insertNode_spec
        (take_accounted hi he hcb hv) hloc hord
        (show rest.length + ht.curSize + 2 = ht.maxSize by simp at hcount; omega) hgrow
      refine ⟨ht', free', ?_, hinv, ?_, ?_, hins.perPoll, hins.mem⟩
      · have htake : PjTimerHeap.setEntry { ht with timerIdsFreelist := -ht.timerIds t } e
            { ht.entries e with timerId := t, timerValue := v } = ht.take e t v := rfl
        rw [scheduleEntry, if_pos (by omega), hpop]
        simp only [bind, Except.bind, htake, hrun]
        rfl
      · rw [hins.entries, take_entries_self]
      · intro x hx
        rw [hins.entries, take_entries_other hx]

end Timer
