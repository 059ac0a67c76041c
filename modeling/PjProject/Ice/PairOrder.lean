import PjProject.Ice.Pointers

set_option autoImplicit false

/-! # The order of the pairs

`CALC_CHECK_PRIO`, `CMP_CHECK_PRIO` and `sort_checklist` of `pjnath/src/pjnath/ice_session.c`. The
priority of a pair is put together from two halves of 32 bits: what is carried out of the lower one is
lost. Sorting takes the best of the remaining checks to the front of them (`sortLoop_sorted`), and a
pointer into the list goes on to lead to the check that it led to (`sortLoop_designated`).
-/

namespace Ice

/-! ## Priorities -/

/-- The priority of a pair in RFC 5245, for the priorities of the candidates of the controlling and
of the controlled agent. -/
def rfcPrio (g d : Nat) : Nat := 4294967296 * min g d + 2 * max g d + if g > d then 1 else 0

/-- `CMP_CHECK_PRIO`. -/
def cmpCheckPrio (c1 c2 : Check) : Ordering := compare c1.prio c2.prio

/-- A pair as the agent sees it. -/
def Sess.pairCheck (s : Sess) (lcand rcand : Cand) : Check :=
  ⟨0, 0, s.calcCheckPrio lcand rcand, .frozen, false, .success, none⟩

/-- The priorities are right for two pairs of candidates, of the controlling agent `s` and of the
controlled agent `t`: on both sides they are the ones of the RFC, and so is their order. -/
structure RightPrios (s t : Sess) (g d g' d' : Cand) : Prop where
  controlling : s.calcCheckPrio g d = rfcPrio g.prio d.prio ∧
    s.calcCheckPrio g' d' = rfcPrio g'.prio d'.prio
  controlled : t.calcCheckPrio d g = rfcPrio g.prio d.prio ∧
    t.calcCheckPrio d' g' = rfcPrio g'.prio d'.prio
  order : cmpCheckPrio (s.pairCheck g d) (s.pairCheck g' d') =
      compare (rfcPrio g.prio d.prio) (rfcPrio g'.prio d'.prio) ∧
    cmpCheckPrio (t.pairCheck d g) (t.pairCheck d' g') =
      compare (rfcPrio g.prio d.prio) (rfcPrio g'.prio d'.prio)

variable {s t : Sess} {g d g' d' : Cand}

theorem calcCheckPrio_controlling (h : s.role = .controlling) (g d : Cand) : s.calcCheckPrio g d =
    min g.prio d.prio * 4294967296 +
      (max g.prio d.prio * 2 + if g.prio > d.prio then 1 else 0) % 4294967296 := by
  simp [Sess.calcCheckPrio, h]

/-- Both agents come to the same number. -/
theorem calcCheckPrio_controlled (hs : s.role = .controlling) (ht : t.role ≠ .controlling) (g d : Cand) :
    t.calcCheckPrio d g = s.calcCheckPrio g d := by
  simp [Sess.calcCheckPrio, hs, ht]

/-- The carry out of twice the larger priority is what is lost. -/
theorem calcCheckPrio_iff (h : s.role = .controlling) (hg : g.prio < 4294967296)
    (hd : d.prio < 4294967296) :
    s.calcCheckPrio g d = rfcPrio g.prio d.prio ↔ max g.prio d.prio < 2147483648 := by
  rw [calcCheckPrio_controlling h]
  unfold rfcPrio
  have hmax : max g.prio d.prio < 4294967296 := max_lt hg hd
  generalize max g.prio d.prio = m at hmax ⊢
  split <;> omega

/-- **When the priorities of pairs are right**: the candidates have priorities below 2³¹. -/
theorem rightPrios_iff (hs : s.role = .controlling) (ht : t.role = .controlled)
    (hg : g.prio < 4294967296) (hd : d.prio < 4294967296) (hg' : g'.prio < 4294967296)
    (hd' : d'.prio < 4294967296) :
    RightPrios s t g d g' d' ↔
      max g.prio d.prio < 2147483648 ∧ max g'.prio d'.prio < 2147483648 := by
  have hrole : t.role ≠ .controlling := by simp [ht]
  constructor
  · intro h
    obtain ⟨h1, h2⟩ := h.controlling
    exact ⟨(calcCheckPrio_iff hs hg hd).mp h1, (calcCheckPrio_iff hs hg' hd').mp h2⟩
  · rintro ⟨hlt, hlt'⟩
    have h1 := (calcCheckPrio_iff hs hg hd).mpr hlt
    have h2 := (calcCheckPrio_iff hs hg' hd').mpr hlt'
    have h1' := (calcCheckPrio_controlled hs hrole g d).trans h1
    have h2' := (calcCheckPrio_controlled hs hrole g' d').trans h2
    refine ⟨⟨h1, h2⟩, ⟨h1', h2'⟩, ?_, ?_⟩
    · simp only [cmpCheckPrio, Sess.pairCheck, h1, h2]
    · simp only [cmpCheckPrio, Sess.pairCheck, h1', h2']

/-- A session in a role, and a candidate with a priority. -/
def agent (role : Role) : Sess := sessCreate role 0 1 false false

def candOf (prio : Nat) : Cand := ⟨1, 0, .host, [], prio, default, default⟩

/-- The priorities of host candidates. -/
theorem rightPrios_host :
    RightPrios (agent .controlling) (agent .controlled) (candOf 2130706431) (candOf 1694498815)
        (candOf 2130706175) (candOf 2130706431) ↔
      max 2130706431 1694498815 < 2147483648 ∧ max 2130706175 2130706431 < 2147483648 :=
  rightPrios_iff rfl rfl (by decide) (by decide) (by decide) (by decide)

/-- The remote candidate has the priority 2³¹: the pair comes behind one that it is before. -/
theorem rightPrios_carry :
    ¬ RightPrios (agent .controlling) (agent .controlled) (candOf 0) (candOf 2147483648)
      (candOf 0) (candOf 1) := by
  intro h
  have horder := h.order.1
  revert horder
  decide

/-! ## Sorting -/

/-- `sort_checklist` of a list that the pointers of the components lead into. -/
def sortChecklist (clist : List Check) (comp : List Comp) : List Check × List Comp :=
  sortLoop (clist.length - 1) 0 (clist, comp)

theorem sortValidList_eq (s : Sess) : s.sortValidList =
    { s with validList := (sortChecklist s.validList s.comp).1
             comp := (sortChecklist s.validList s.comp).2 } := rfl

theorem sortClist_eq (s : Sess) : s.sortClist = { s with clist := (sortChecklist s.clist []).1 } := rfl

/-- The pair that a pointer leads to. -/
def designated (l : List Check) (p : Option Nat) : Option (Option Check) := p.map (l[·]?)

/-- The pairs that the pointers of a component lead to. -/
def Comp.designated (l : List Check) (c : Comp) : Option (Option Check) × Option (Option Check) :=
  (Ice.designated l c.validCheck, Ice.designated l c.nominatedCheck)

/-- The priority of the check at a position. -/
def prioAt (l : List Check) (k : Nat) : Nat := (l.getD k default).prio

/-- The checks in front of `i` are in order, and before all the others. -/
def SortedTo (l : List Check) (i : Nat) : Prop :=
  ∀ a b, a < i → a < b → b < l.length → prioAt l b ≤ prioAt l a

variable {l : List Check} {i j k : Nat} {r : List Check × List Comp}

/-- What is found from `i` on has the highest priority there, and is `i` itself if that has it. -/
theorem highestFrom_spec (hi : i < l.length) :
    i ≤ highestFrom l i ∧ (∀ b, i ≤ b → b < l.length → prioAt l b ≤ prioAt l (highestFrom l i)) ∧
      ((∀ b, i ≤ b → b < l.length → prioAt l b ≤ prioAt l i) → highestFrom l i = i) := by
  -- by induction on the positions still to be looked at, with the best one so far
  have hfold : ∀ (n j h : Nat), i ≤ h → h < j → i ≤ (List.range' j n).foldl
        (fun h j => if (l.getD j default).prio > (l.getD h default).prio then j else h) h ∧
      (∀ b, b = h ∨ (j ≤ b ∧ b < j + n) → prioAt l b ≤ prioAt l ((List.range' j n).foldl
        (fun h j => if (l.getD j default).prio > (l.getD h default).prio then j else h) h)) ∧
      ((∀ b, j ≤ b → b < j + n → prioAt l b ≤ prioAt l h) → (List.range' j n).foldl
        (fun h j => if (l.getD j default).prio > (l.getD h default).prio then j else h) h = h) := by
    intro n
    induction n with
    | zero =>
        intro j h hih hhj
        refine ⟨hih, fun b hb => ?_, fun _ => rfl⟩
        obtain rfl : b = h := by omega
        exact le_rfl
    | succ n ih =>
        intro j h hih hhj
        rw [List.range'_succ, List.foldl_cons]
        by_cases hgt : (l.getD j default).prio > (l.getD h default).prio
        · rw [if_pos hgt]
          obtain ⟨hge, hbest, -⟩ := ih (j + 1) j (by omega) (by omega)
          refine ⟨hge, fun b hb => ?_, fun hall => ?_⟩
          · rcases hb with rfl | hb
            · exact (le_of_lt hgt).trans (hbest j (.inl rfl))
            · exact hbest b (by omega)
          · exact absurd (hall j le_rfl (by omega)) (not_le.mpr hgt)
        · rw [if_neg hgt]
          obtain ⟨hge, hbest, hsame⟩ := ih (j + 1) h hih (by omega)
          refine ⟨hge, fun b hb => ?_, fun hall => hsame fun b hb hlt => hall b (by omega) (by omega)⟩
          by_cases hbj : b = j
          · rw [hbj]
            exact (not_lt.mp hgt).trans (hbest h (.inl rfl))
          · exact hbest b (by omega)
  obtain ⟨hge, hbest, hsame⟩ := hfold (l.length - (i + 1)) (i + 1) i le_rfl (by omega)
  refine ⟨hge, fun b hib hb => hbest b (by omega), fun hall => hsame fun b hib hb => ?_⟩
  exact hall b (by omega) (by omega)

theorem prioAt_swapChecks (hi : i < l.length) (hj : j < l.length) (k : Nat) :
    prioAt (swapChecks l i j) k =
      if k = j then prioAt l i else if k = i then prioAt l j else prioAt l k := by
  unfold prioAt
  simp only [List.getD_eq_getElem?_getD]
  rw [getElem?_swapChecks hi hj]
  split
  · rfl
  · split <;> rfl

theorem perm_swapChecks (hi : i < l.length) (hj : j < l.length) : (swapChecks l i j).Perm l := by
  have hget : ∀ k (hk : k < l.length), l.getD k default = l[k] := by
    intro k hk
    rw [List.getD_eq_getElem?_getD, List.getElem?_eq_getElem hk]
    rfl
  unfold swapChecks
  rw [hget i hi, hget j hj]
  exact List.set_set_perm hi hj

/-- The best of the checks from `i` on goes to the position `i`. -/
theorem SortedTo.swap (h : SortedTo l i) (hi : i < l.length) (hj : i ≤ j) (hjl : j < l.length)
    (hbest : ∀ b, i ≤ b → b < l.length → prioAt l b ≤ prioAt l j) :
    SortedTo (swapChecks l i j) (i + 1) := by
  intro a b ha hab hb
  rw [length_swapChecks] at hb
  rw [prioAt_swapChecks hi hjl, prioAt_swapChecks hi hjl]
  by_cases hai : a = i
  · subst hai
    have hia : (if a = j then prioAt l a else if a = a then prioAt l j else prioAt l a) = prioAt l j := by
      split
      · rename_i haj
        rw [← haj]
      · simp
    rw [hia]
    split
    · exact hbest a le_rfl hi
    · split
      · exact le_rfl
      · exact hbest b (by omega) hb
  · rw [show (if a = j then prioAt l i else if a = i then prioAt l j else prioAt l a) = prioAt l a by
      rw [if_neg (by omega), if_neg hai]]
    split
    · exact h a i (by omega) (by omega) hi
    · split
      · exact h a j (by omega) (by omega) hjl
      · exact h a b (by omega) hab hb

/-- The loop sorts the list, which stays the same up to the order. -/
theorem sortLoop_sorted (fuel : Nat) : ∀ i (r : List Check × List Comp), SortedTo r.1 i →
    i + fuel + 1 = r.1.length ∨ fuel = 0 →
      SortedTo (sortLoop fuel i r).1 (i + fuel) ∧ (sortLoop fuel i r).1.Perm r.1 := by
  induction fuel with
  | zero => exact fun i r h _ => ⟨h, .refl _⟩
  | succ fuel ih =>
      intro i r h hlen
      have hi : i < r.1.length := by omega
      have hj := highestFrom_lt hi
      obtain ⟨hge, hbest, -⟩ := highestFrom_spec hi
      rw [sortLoop, show i + (fuel + 1) = i + 1 + fuel by omega]
      split
      · have hsorted := h.swap hi hge hj hbest
        obtain ⟨hrec, hperm⟩ := ih (i + 1) (swapChecks r.1 i (highestFrom r.1 i), r.2.map fun c =>
          ⟨swapPtr i (highestFrom r.1 i) c.validCheck, swapPtr i (highestFrom r.1 i) c.nominatedCheck⟩)
          hsorted (by rw [length_swapChecks]; omega)
        exact ⟨hrec, hperm.trans (perm_swapChecks hi hj)⟩
      · rename_i hsame
        rw [not_not.mp hsame] at hbest
        refine ih (i + 1) r (fun a b ha hab hb => ?_) (by omega)
        by_cases hai : a = i
        · rw [hai]
          exact hbest b (by omega) hb
        · exact h a b (by omega) hab hb

/-- A pointer follows its check when two checks change places. -/
theorem designated_swap (hi : i < l.length) (hj : j < l.length) (p : Option Nat) :
    designated (swapChecks l i j) (swapPtr i j p) = designated l p := by
  cases p with
  | none => simp [designated, swapPtr]
  | some k =>
      unfold designated swapPtr
      simp only [Option.some.injEq]
      by_cases hkj : k = j
      · rw [if_pos hkj, Option.map_some, getElem?_swapChecks hi hj, hkj]
        by_cases hij : i = j
        · simp [hij]
        · simp [hij]
      · rw [if_neg hkj]
        by_cases hki : k = i
        · simp [hki, getElem?_swapChecks hi hj]
        · simp [hki, hkj, getElem?_swapChecks hi hj]

theorem sortLoop_designated (fuel : Nat) : ∀ i (r : List Check × List Comp),
    i + fuel < r.1.length ∨ fuel = 0 →
      (sortLoop fuel i r).2.map (Comp.designated (sortLoop fuel i r).1) =
        r.2.map (Comp.designated r.1) := by
  induction fuel with
  | zero => exact fun i r _ => rfl
  | succ fuel ih =>
      intro i r hlen
      have hi : i < r.1.length := by omega
      have hj := highestFrom_lt hi
      rw [sortLoop]
      split
      · rw [ih _ _ (by rw [length_swapChecks]; omega), List.map_map]
        refine List.map_congr_left fun c _ => ?_
        simp only [Function.comp_apply, Comp.designated, designated_swap hi hj]
      · exact ih (i + 1) r (by omega)

theorem pairwise_of_sortedTo (h : SortedTo l (l.length - 1)) : l.Pairwise fun a b => b.prio ≤ a.prio := by
  rw [List.pairwise_iff_getElem]
  intro a b ha hb hab
  have hle := h a b (by omega) hab hb
  simpa [prioAt, List.getElem?_eq_getElem ha, List.getElem?_eq_getElem hb] using hle

/-- **What `sort_checklist` does**: the checks stay the same, the priorities do not rise, and every
pointer leads to the pair it led to. -/
theorem sortChecklist_spec (clist : List Check) (comp : List Comp) :
    (sortChecklist clist comp).1.Perm clist ∧
      ((sortChecklist clist comp).1.Pairwise fun a b => b.prio ≤ a.prio) ∧
      (sortChecklist clist comp).2.map (Comp.designated (sortChecklist clist comp).1) =
        comp.map (Comp.designated clist) := by
  have hsorted := sortLoop_sorted (clist.length - 1) 0 (clist, comp)
    (fun a b ha => absurd ha (by omega)) (by dsimp only; omega)
  rw [Nat.zero_add] at hsorted
  refine ⟨hsorted.2, pairwise_of_sortedTo ?_, ?_⟩
  · have hlen : (sortLoop (clist.length - 1) 0 (clist, comp)).1.length = clist.length :=
      hsorted.2.length_eq
    rw [sortChecklist, hlen]
    exact hsorted.1
  · exact sortLoop_designated (clist.length - 1) 0 (clist, comp) (by dsimp only; omega)

end Ice
