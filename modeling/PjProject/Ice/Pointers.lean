import PjProject.Ice.Frame

set_option autoImplicit false

/-! # Pointers into the valid list

The components point into the valid list, whose checks are moved by `sort_checklist`. `PointersOk P Q`
says that every `valid_check` leads to a pair of `P` and every `nominated_check` to one of `Q`, for
properties of a pair that may depend on the component. `sort_checklist` keeps this
(`sortLoop_spec`), and so does `update_comp_check` for a pair that has the properties
(`PointersOk.update`).

`PtrInv` is the invariant of the pointers: those of a component lead to valid pairs of it, to a
nominated one where the pointer says so, and they are set when there is such a pair. A pair that is
new, or whose nomination has changed, is excepted until `update_comp_check` has seen it
(`PtrInvBut`).
-/

namespace Ice

open Outcome

/-- The pointer, if it is set, leads to a check of `P`. -/
def PtrTo (l : List Check) (P : Check → Prop) (p : Option Nat) : Prop :=
  ∀ k, p = some k → ∃ c, l[k]? = some c ∧ P c

/-- The pointers of the component `i` lead to checks of `P i` and of `Q i`. -/
def PointersOk (P Q : Nat → Check → Prop) (l : List Check) (comp : List Comp) : Prop :=
  ∀ i c, comp[i]? = some c → PtrTo l (P i) c.validCheck ∧ PtrTo l (Q i) c.nominatedCheck

theorem PtrTo.none (l : List Check) (P : Check → Prop) : PtrTo l P none := nofun

theorem PtrTo.mono {l l' : List Check} {P P' : Check → Prop} {p : Option Nat} (h : PtrTo l P p)
    (hl : ∀ (k : Nat) (c : Check), l[k]? = some c → P c → ∃ c', l'[k]? = some c' ∧ P' c') : PtrTo l' P' p := by
  intro k hk
  rcases h k hk with ⟨c, hc, hp⟩
  exact hl k c hc hp

theorem PointersOk.mono {P Q P' Q' : Nat → Check → Prop} {l l' : List Check} {comp : List Comp}
    (h : PointersOk P Q l comp)
    (hP : ∀ (i k : Nat) (c : Check), l[k]? = some c → P i c → ∃ c', l'[k]? = some c' ∧ P' i c')
    (hQ : ∀ (i k : Nat) (c : Check), l[k]? = some c → Q i c → ∃ c', l'[k]? = some c' ∧ Q' i c') :
    PointersOk P' Q' l' comp :=
  fun i c hc => ⟨(h i c hc).1.mono (hP i), (h i c hc).2.mono (hQ i)⟩

/-! ## Sorting -/

theorem getElem?_swapChecks {l : List Check} {i j : Nat} (hi : i < l.length) (hj : j < l.length)
    (k : Nat) : (swapChecks l i j)[k]? = if k = j then l[i]? else if k = i then l[j]? else l[k]? := by
  have hget : ∀ k (hk : k < l.length), l.getD k default = l[k] := by
    intro k hk
    rw [List.getD_eq_getElem?_getD, List.getElem?_eq_getElem hk]
    rfl
  unfold swapChecks
  rw [hget i hi, hget j hj, List.getElem?_set, List.getElem?_set, List.length_set]
  by_cases hkj : k = j
  · rw [if_pos hkj, if_pos hkj.symm, if_pos (by omega), List.getElem?_eq_getElem hi]
  · rw [if_neg hkj, if_neg (fun h => hkj h.symm)]
    by_cases hki : k = i
    · rw [if_pos hki, if_pos hki.symm, if_pos (by omega), List.getElem?_eq_getElem hj]
    · rw [if_neg hki, if_neg (fun h => hki h.symm)]

theorem length_swapChecks (l : List Check) (i j : Nat) : (swapChecks l i j).length = l.length := by
  simp [swapChecks]

theorem mem_swapChecks {l : List Check} {i j : Nat} (hi : i < l.length) (hj : j < l.length)
    (c : Check) : c ∈ swapChecks l i j ↔ c ∈ l := by
  rw [List.mem_iff_getElem?, List.mem_iff_getElem?]
  constructor
  · rintro ⟨k, hk⟩
    rw [getElem?_swapChecks hi hj] at hk
    split at hk
    · exact ⟨i, hk⟩
    · split at hk
      · exact ⟨j, hk⟩
      · exact ⟨k, hk⟩
  · rintro ⟨k, hk⟩
    -- A check that is moved is found at the other place.
    by_cases hkj : k = j
    · refine ⟨i, ?_⟩
      rw [getElem?_swapChecks hi hj]
      split
      · rename_i hij
        rw [hij, ← hkj]
        exact hk
      · rw [if_pos rfl, ← hkj]
        exact hk
    · by_cases hki : k = i
      · refine ⟨j, ?_⟩
        rw [getElem?_swapChecks hi hj, if_pos rfl, ← hki]
        exact hk
      · refine ⟨k, ?_⟩
        rw [getElem?_swapChecks hi hj, if_neg hkj, if_neg hki]
        exact hk

/-- A pointer follows its check. -/
theorem PtrTo.swap {l : List Check} {P : Check → Prop} {p : Option Nat} (h : PtrTo l P p) {i j : Nat}
    (hi : i < l.length) (hj : j < l.length) : PtrTo (swapChecks l i j) P (swapPtr i j p) := by
  intro k hk
  unfold swapPtr at hk
  rw [getElem?_swapChecks hi hj]
  split at hk
  · rename_i hpj
    cases hk
    rcases h j hpj with ⟨c, hc, hp⟩
    refine ⟨c, ?_, hp⟩
    split
    · rename_i hij
      rw [hij]
      exact hc
    · rw [if_pos rfl]
      exact hc
  · rename_i hpj
    split at hk
    · rename_i hpi
      cases hk
      rw [if_pos rfl]
      exact h i hpi
    · rename_i hpi
      have hkj : k ≠ j := fun hkj => hpj (by rw [hk, hkj])
      have hki : k ≠ i := fun hki => hpi (by rw [hk, hki])
      rw [if_neg hkj, if_neg hki]
      exact h k hk

theorem highestFrom_lt {l : List Check} {i : Nat} (hi : i < l.length) : highestFrom l i < l.length := by
  have hfold : ∀ (js : List Nat) (h : Nat), h < l.length → (∀ j ∈ js, j < l.length) →
      js.foldl (fun h j => if (l.getD j default).prio > (l.getD h default).prio then j else h) h <
        l.length := by
    intro js
    induction js with
    | nil => exact fun h hh _ => hh
    | cons j js ih =>
        intro h hh hjs
        refine ih _ ?_ fun x hx => hjs x (List.mem_cons_of_mem j hx)
        dsimp only
        split
        · exact hjs j List.mem_cons_self
        · exact hh
  refine hfold _ i hi fun j hj => ?_
  rw [List.mem_range'_1] at hj
  omega

/-- Which pointers are set. -/
def Comp.isSet (c : Comp) : Bool × Bool := (c.validCheck.isSome, c.nominatedCheck.isSome)

theorem isSome_swapPtr (i j : Nat) (p : Option Nat) : (swapPtr i j p).isSome = p.isSome := by
  unfold swapPtr
  split
  · rename_i h
    rw [h]
    rfl
  · split
    · rename_i h
      rw [h]
      rfl
    · rfl

/-- What sorting keeps. -/
structure Sorted (P Q : Nat → Check → Prop) (r r' : List Check × List Comp) : Prop where
  pointers : PointersOk P Q r.1 r.2 → PointersOk P Q r'.1 r'.2
  mem : ∀ c, c ∈ r'.1 ↔ c ∈ r.1
  isSet : r'.2.map Comp.isSet = r.2.map Comp.isSet

theorem sortLoop_spec (P Q : Nat → Check → Prop) (fuel : Nat) :
    ∀ i r, i + fuel < r.1.length ∨ fuel = 0 → Sorted P Q r (sortLoop fuel i r) := by
  induction fuel with
  | zero => exact fun i r _ => ⟨id, fun _ => Iff.rfl, rfl⟩
  | succ fuel ih =>
      intro i r hlen
      have hi : i < r.1.length := by omega
      have hj := highestFrom_lt hi
      rw [sortLoop]
      split
      · have hrec := ih (i + 1) (swapChecks r.1 i (highestFrom r.1 i), r.2.map fun c =>
          ⟨swapPtr i (highestFrom r.1 i) c.validCheck, swapPtr i (highestFrom r.1 i) c.nominatedCheck⟩)
          (by rw [length_swapChecks]; omega)
        refine ⟨fun hp => hrec.pointers fun k c hc => ?_, fun c => ?_, hrec.isSet.trans ?_⟩
        · rw [List.getElem?_map] at hc
          cases hk : r.2[k]? with
          | none =>
              rw [hk] at hc
              cases hc
          | some c0 =>
              rw [hk] at hc
              cases hc
              exact ⟨(hp k c0 hk).1.swap hi hj, (hp k c0 hk).2.swap hi hj⟩
        · rw [hrec.mem c]
          exact mem_swapChecks hi hj c
        · rw [List.map_map]
          refine List.map_congr_left fun c _ => ?_
          simp only [Function.comp_apply, Comp.isSet, isSome_swapPtr]
      · exact ih (i + 1) r (by omega)

theorem sortValidList_spec (P Q : Nat → Check → Prop) (s : Sess) :
    Sorted P Q (s.validList, s.comp) (s.sortValidList.validList, s.sortValidList.comp) :=
  sortLoop_spec P Q _ 0 _ (by dsimp only; omega)

theorem mem_sortClist (s : Sess) (c : Check) : c ∈ s.sortClist.clist ↔ c ∈ s.clist :=
  (sortLoop_spec (fun _ _ => True) (fun _ _ => True) _ 0 (s.clist, []) (by dsimp only; omega)).mem c

/-! ## `update_comp_check` -/

theorem PtrTo.better {l : List Check} {P : Check → Prop} {p : Option Nat} (h : PtrTo l P p)
    {k : Nat} {c : Check} (hc : l[k]? = some c) (hp : P c) : PtrTo l P (betterPtr l p k) := by
  unfold betterPtr
  cases p with
  | none =>
      rintro j hj
      cases hj
      exact ⟨c, hc, hp⟩
  | some j =>
      dsimp only
      split
      · rintro j' hj'
        cases hj'
        exact ⟨c, hc, hp⟩
      · exact h

theorem isSome_betterPtr (l : List Check) (p : Option Nat) (k : Nat) :
    (betterPtr l p k).isSome = true := by
  unfold betterPtr
  cases p with
  | none => rfl
  | some j =>
      dsimp only
      split <;> rfl

/-- What `update_comp_check` leaves. -/
structure Updated (compId k : Nat) (v : Check) (s s' : Sess) : Prop where
  pos : 1 ≤ compId
  exists_comp : (s.comp[compId - 1]?).isSome = true
  eq : s' = { s with comp := s.comp.modify (compId - 1) fun c =>
    ⟨betterPtr s.validList c.validCheck k,
     if v.nominated then betterPtr s.validList c.nominatedCheck k else c.nominatedCheck⟩ }

theorem updateCompCheck_spec {s : Sess} {compId k : Nat} {v : Check} (hv : s.validList[k]? = some v) :
    Holds (Updated compId k v s) AnyFault (updateCompCheck s compId k) := by
  have hget : s.validList.getD k default = v := by
    rw [List.getD_eq_getElem?_getD, hv]
    rfl
  unfold updateCompCheck
  rw [hget]
  cases compId with
  | zero => trivial
  | succ i =>
      cases hi : s.comp[i]? with
      | none =>
          have hfind : s.findComp (i + 1) = .error .noComponent := by
            simp [Sess.findComp, hi]
          rw [hfind]
          trivial
      | some c =>
          have hfind : s.findComp (i + 1) = .ok c := by
            simp [Sess.findComp, hi]
          rw [hfind]
          exact ⟨by omega, by rw [show i + 1 - 1 = i from rfl, hi]; rfl, rfl⟩

theorem PointersOk.update {P Q : Nat → Check → Prop} {s s' : Sess} {compId k : Nat} {v : Check}
    (h : PointersOk P Q s.validList s.comp) (hv : s.validList[k]? = some v)
    (hP : P (compId - 1) v) (hQ : v.nominated = true → Q (compId - 1) v)
    (hu : Updated compId k v s s') : PointersOk P Q s'.validList s'.comp := by
  rw [hu.eq]
  intro i c hc
  rw [List.getElem?_modify] at hc
  split at hc
  · rename_i hi
    cases hci : s.comp[i]? with
    | none =>
        rw [hci] at hc
        cases hc
    | some c0 =>
        rw [hci] at hc
        cases hc
        have h0 := h i c0 hci
        rw [hi] at hP hQ
        refine ⟨h0.1.better hv hP, ?_⟩
        split
        · rename_i hn
          exact h0.2.better hv (hQ hn)
        · exact h0.2
  · exact h i c (by simpa using hc)

/-! ## The invariant -/

/-- The check is of the component `i + 1`. -/
def ofComp (lcand : List Cand) (i : Nat) (c : Check) : Prop :=
  (lcand.getD c.lcand default).compId = i + 1

/-- The check is of the component `i + 1` and nominated. -/
def nominatedOfComp (lcand : List Cand) (i : Nat) (c : Check) : Prop :=
  ofComp lcand i c ∧ c.nominated = true

/-- The pointers of the component of the pair are set, as far as the pair is valid and nominated. -/
def PtrSet (lcand : List Cand) (comp : List Comp) (v : Check) : Prop :=
  ∀ (i : Nat) (c : Comp), comp[i]? = some c → ofComp lcand i v →
    c.validCheck.isSome = true ∧ (v.nominated = true → c.nominatedCheck.isSome = true)

/-- The invariant, but for the pointers to the pair `k`, which may have to be set. -/
structure PtrInvBut (k : Option Nat) (s : Sess) : Prop where
  lcand_lt : ∀ v ∈ s.validList, v.lcand < s.lcand.length
  pointers : PointersOk (ofComp s.lcand) (nominatedOfComp s.lcand) s.validList s.comp
  isSet : ∀ (j : Nat) (v : Check), k ≠ some j → s.validList[j]? = some v → PtrSet s.lcand s.comp v

/-- The invariant of the pointers. -/
def PtrInv (s : Sess) : Prop := PtrInvBut none s

variable {s s' : Sess}

theorem ptrInv_sessCreate (role : Role) (tb n : Nat) (aggressive wantNom : Bool) :
    PtrInv (sessCreate role tb n aggressive wantNom) := by
  refine ⟨nofun, fun i c hc => ?_, nofun⟩
  have hnone : c = ⟨none, none⟩ := List.eq_of_mem_replicate (List.mem_of_getElem? hc)
  rw [hnone]
  exact ⟨PtrTo.none _ _, PtrTo.none _ _⟩

/-- Operations that keep local candidates, valid list and pointers keep the invariant. -/
theorem PtrInv.frame (h : PtrInv s) (hl : s'.lcand = s.lcand) (hv : s'.validList = s.validList)
    (hc : s'.comp = s.comp) : PtrInv s' := by
  constructor
  · rw [hl, hv]
    exact h.lcand_lt
  · rw [hl, hv, hc]
    exact h.pointers
  · rw [hl, hv, hc]
    exact h.isSet

theorem PtrInv.performed (h : PtrInv s) (hp : Performed s s') : PtrInv s' :=
  h.frame hp.lcand hp.validList hp.comp

theorem getD_append_of_lt (l l' : List Cand) {i : Nat} (hi : i < l.length) :
    (l ++ l').getD i default = l.getD i default := by
  rw [List.getD_eq_getElem?_getD, List.getD_eq_getElem?_getD, List.getElem?_append_left hi]

/-- A local candidate behind the others changes no pair. -/
theorem PtrInv.addLcand (h : PtrInv s) (cand : Cand) :
    PtrInv { s with lcand := s.lcand ++ [cand] } := by
  have hof : ∀ (i k : Nat) (v : Check), s.validList[k]? = some v →
      (ofComp (s.lcand ++ [cand]) i v ↔ ofComp s.lcand i v) := by
    intro i k v hk
    have hlt : v.lcand < s.lcand.length := h.lcand_lt v (List.mem_of_getElem? hk)
    unfold ofComp
    rw [getD_append_of_lt _ _ hlt]
  refine ⟨fun v hv => ?_, ?_, fun j v hj hv i c hc hi => ?_⟩
  · rw [List.length_append]
    exact Nat.lt_add_right _ (h.lcand_lt v hv)
  · exact h.pointers.mono (fun i k v hk hv => ⟨v, hk, (hof i k v hk).mpr hv⟩)
      fun i k v hk hv => ⟨v, hk, (hof i k v hk).mpr hv.1, hv.2⟩
  · exact h.isSet j v hj hv i c hc ((hof i j v hv).mp hi)

/-- Components may be disabled. -/
theorem PtrInv.takeComp (h : PtrInv s) (n : Nat) : PtrInv { s with comp := s.comp.take n } := by
  have hget : ∀ (i : Nat) (c : Comp), (s.comp.take n)[i]? = some c → s.comp[i]? = some c := by
    intro i c hc
    rw [List.getElem?_take] at hc
    split at hc
    · exact hc
    · cases hc
  exact ⟨h.lcand_lt, fun i c hc => h.pointers i c (hget i c hc),
    fun j v hj hv i c hc => h.isSet j v hj hv i c (hget i c hc)⟩

theorem getElem?_renominate (l : List Check) (k : Nat) (b : Bool) {j : Nat} {v : Check}
    (hj : l[j]? = some v) :
    (l.modify k fun v => { v with nominated := b })[j]? =
      some (if k = j then { v with nominated := b } else v) := by
  rw [List.getElem?_modify, hj]
  split <;> rfl

/-- A pair of the changed list is a pair of the list, but for its nomination. -/
theorem renominate_getElem? {l : List Check} {k : Nat} {b : Bool} {j : Nat} {v : Check}
    (hj : (l.modify k fun v => { v with nominated := b })[j]? = some v) :
    ∃ v0, l[j]? = some v0 ∧ v = if k = j then { v0 with nominated := b } else v0 := by
  cases h0 : l[j]? with
  | none =>
      rw [List.getElem?_modify, h0] at hj
      cases hj
  | some v0 =>
      rw [getElem?_renominate l k b h0] at hj
      exact ⟨v0, rfl, (Option.some.inj hj).symm⟩

/-- A valid pair may be nominated, and it may lose the nomination where no pointer relies on it. -/
theorem PtrInv.renominate (h : PtrInv s) (k : Nat) (b : Bool)
    (hb : b = true ∨ ∀ c ∈ s.comp, c.nominatedCheck ≠ some k) :
    PtrInvBut (some k)
      { s with validList := s.validList.modify k fun v => { v with nominated := b } } := by
  refine ⟨fun v hv => ?_, fun i c hc => ⟨?_, fun j hj => ?_⟩, fun j v hj hv => ?_⟩
  · rcases List.mem_iff_getElem?.mp hv with ⟨j, hj⟩
    rcases renominate_getElem? hj with ⟨v0, hv0, heq⟩
    have hlt := h.lcand_lt v0 (List.mem_of_getElem? hv0)
    rw [heq]
    split
    · exact hlt
    · exact hlt
  · refine (h.pointers i c hc).1.mono fun j v hj hv => ⟨_, getElem?_renominate _ k b hj, ?_⟩
    split
    · exact hv
    · exact hv
  · rcases (h.pointers i c hc).2 j hj with ⟨v, hv, hnom⟩
    refine ⟨_, getElem?_renominate _ k b hv, ?_⟩
    split
    · rename_i hkj
      rcases hb with hb | hb
      · exact ⟨hnom.1, hb⟩
      · rw [← hkj] at hj
        exact absurd hj (hb c (List.mem_of_getElem? hc))
    · exact hnom
  · rcases renominate_getElem? hv with ⟨v0, hv0, heq⟩
    rw [if_neg fun hkj => hj (congrArg some hkj)] at heq
    rw [heq]
    exact h.isSet j v0 nofun hv0

/-- A new valid pair. -/
theorem PtrInv.append (h : PtrInv s) {v : Check} (hv : v.lcand < s.lcand.length) :
    PtrInvBut (some s.validList.length) { s with validList := s.validList ++ [v] } := by
  have hkeep : ∀ (k : Nat) (w : Check), s.validList[k]? = some w →
      (s.validList ++ [v])[k]? = some w := by
    intro k w hw
    rw [List.getElem?_append_left (List.getElem?_eq_some_iff.mp hw).1]
    exact hw
  refine ⟨fun w hw => ?_, ?_, fun j w hj hw => ?_⟩
  · rcases List.mem_append.mp hw with hw | hw
    · exact h.lcand_lt w hw
    · rw [List.mem_singleton.mp hw]
      exact hv
  · exact h.pointers.mono (fun i k w hw hp => ⟨w, hkeep k w hw, hp⟩)
      fun i k w hw hp => ⟨w, hkeep k w hw, hp⟩
  · have hlt := (List.getElem?_eq_some_iff.mp hw).1
    rw [List.length_append, List.length_singleton] at hlt
    have hjne : j ≠ s.validList.length := fun hjl => hj (by rw [hjl])
    rw [List.getElem?_append_left (by omega)] at hw
    exact h.isSet j w nofun hw

/-- `update_comp_check` only sets pointers. -/
theorem Updated.ptrSet {compId k : Nat} {v w : Check} (hu : Updated compId k v s s')
    (hw : PtrSet s.lcand s.comp w) : PtrSet s'.lcand s'.comp w := by
  rw [hu.eq]
  intro i c hc hof
  rw [List.getElem?_modify] at hc
  cases hi : s.comp[i]? with
  | none =>
      rw [hi] at hc
      cases hc
  | some c0 =>
      have hset := hw i c0 hi hof
      rw [hi] at hc
      have hc := Option.some.inj hc
      rw [← hc]
      split
      · refine ⟨isSome_betterPtr _ _ _, fun hn => ?_⟩
        dsimp only
        split
        · exact isSome_betterPtr _ _ _
        · exact hset.2 hn
      · exact hset

/-- The pointers of the pair's own component are set. -/
theorem Updated.ptrSet_self {compId k : Nat} {v : Check} (hu : Updated compId k v s s')
    (hcomp : (s.lcandOf v).compId = compId) : PtrSet s'.lcand s'.comp v := by
  rw [hu.eq]
  intro i c hc hof
  have hi : compId - 1 = i := by
    have hof : (s.lcandOf v).compId = i + 1 := hof
    omega
  rw [List.getElem?_modify] at hc
  cases h0 : s.comp[i]? with
  | none =>
      rw [h0] at hc
      cases hc
  | some c0 =>
      rw [h0] at hc
      have hc := Option.some.inj hc
      dsimp only at hc
      rw [if_pos hi] at hc
      rw [← hc]
      refine ⟨isSome_betterPtr _ _ _, fun hn => ?_⟩
      dsimp only
      rw [if_pos hn]
      exact isSome_betterPtr _ _ _

/-- `update_comp_check` restores the invariant. -/
theorem PtrInvBut.updateCompCheck {compId k : Nat} {v : Check} (h : PtrInvBut (some k) s)
    (hv : s.validList[k]? = some v) (hcomp : (s.lcandOf v).compId = compId) :
    Holds (fun s' => Updated compId k v s s' ∧ PtrInv s') AnyFault (updateCompCheck s compId k) := by
  refine (updateCompCheck_spec hv).mono fun s' hu => ⟨hu, ?_⟩
  have hof : ofComp s.lcand (compId - 1) v := by
    have hpos := hu.pos
    show (s.lcandOf v).compId = compId - 1 + 1
    omega
  have hp := h.pointers.update hv hof (fun hn => ⟨hof, hn⟩) hu
  have hvl : s'.validList = s.validList := by rw [hu.eq]
  have hl : s'.lcand = s.lcand := by rw [hu.eq]
  constructor
  · rw [hvl, hl]
    exact h.lcand_lt
  · rw [hl]
    exact hp
  · intro j w _ hw
    rw [hvl] at hw
    by_cases hjk : j = k
    · rw [hjk, hv] at hw
      cases hw
      exact hu.ptrSet_self hcomp
    · exact hu.ptrSet (h.isSet j w (fun hkj => hjk (Option.some.inj hkj).symm) hw)

/-- The pointers follow the pairs when the valid list is sorted. -/
theorem PtrInv.sortValidList (h : PtrInv s) : PtrInv s.sortValidList := by
  have hsort := sortValidList_spec (ofComp s.lcand) (nominatedOfComp s.lcand) s
  refine ⟨fun v hv => h.lcand_lt v ((hsort.mem v).mp hv), hsort.pointers h.pointers,
    fun j v _ hv i c hc hof => ?_⟩
  rcases List.mem_iff_getElem?.mp ((hsort.mem v).mp (List.mem_of_getElem? hv)) with ⟨j0, hj0⟩
  -- The component has as many pointers set as before.
  have hmap : (s.sortValidList.comp.map Comp.isSet)[i]? = (s.comp.map Comp.isSet)[i]? := by
    rw [hsort.isSet]
  rw [List.getElem?_map, List.getElem?_map, hc] at hmap
  cases h0 : s.comp[i]? with
  | none =>
      rw [h0] at hmap
      cases hmap
  | some c0 =>
      rw [h0] at hmap
      have heq : c.isSet = c0.isSet := Option.some.inj hmap
      have hset := h.isSet j0 v nofun hj0 i c0 h0 hof
      have h1 : c.validCheck.isSome = c0.validCheck.isSome := congrArg Prod.fst heq
      have h2 : c.nominatedCheck.isSome = c0.nominatedCheck.isSome := congrArg Prod.snd heq
      rw [h1, h2]
      exact hset

/-! ## A valid pair -/

/-- The pair of the candidate `lcand` for the check, if it is in the valid list already, stays
nominated when it is the nominated pair of a component. -/
def Sess.staysNominated (s : Sess) (check : Check) (lcand : Nat) : Bool :=
  match s.validList.findIdx? fun v => v.lcand == lcand && v.rcand == check.rcand with
  | none => true
  | some k => check.nominated || s.comp.all fun c => c.nominatedCheck != some k

/-- The part of `on_stun_request_complete` that makes the pair valid. -/
def validate (s : Sess) (check : Check) (lcand : Nat) : Except Fault Sess := do
  let (s, k) ← addValid s check lcand
  let s ← updateCompCheck s (s.lcand.getD lcand default).compId k
  return s.sortValidList

theorem checkSucceeded_eq (s : Sess) (ckid : Nat) (check : Check) (lcand : Nat) :
    checkSucceeded s ckid check lcand = (do
      let s ← validate s check lcand
      return (← onCheckComplete (s.checkSetState ckid .succeeded .success) ckid).1) := by
  unfold checkSucceeded validate
  cases addValid s check lcand with
  | error e => rfl
  | ok r =>
      show (updateCompCheck r.1 _ r.2 >>= _) = ((updateCompCheck r.1 _ r.2 >>= _) >>= _)
      cases updateCompCheck r.1 (r.1.lcand.getD lcand default).compId r.2 <;> rfl

/-- A pair of the list `l` is one of `l0`, but for its nomination, or the new one. -/
def FromPairs (l0 : List Check) (p : Nat × Nat) (l : List Check) : Prop :=
  ∀ v ∈ l, (∃ v0 ∈ l0, v.pair = v0.pair ∧ v.state = v0.state) ∨ (v.pair = p ∧ v.state = .succeeded)

/-- What `addValid` leaves: the pair is in the valid list, and its pointers have to be set. -/
structure Added (s : Sess) (p : Nat × Nat) (r : Sess × Nat) : Prop where
  eq : ∃ l, r.1 = { s with validList := l }
  get : ∃ v, r.1.validList[r.2]? = some v ∧ v.lcand = p.1
  ptr : PtrInvBut (some r.2) r.1
  mem : FromPairs s.validList p r.1.validList

theorem addValid_spec (h : PtrInv s) {check : Check} {lcand : Nat} (hl : lcand < s.lcand.length)
    (hstays : s.staysNominated check lcand = true) :
    Holds (Added s (lcand, check.rcand)) AnyFault (addValid s check lcand) := by
  unfold addValid
  unfold Sess.staysNominated at hstays
  cases hk : s.validList.findIdx? fun v => v.lcand == lcand && v.rcand == check.rcand with
  | some k =>
      rw [hk] at hstays
      simp only [Bool.or_eq_true, List.all_eq_true, bne_iff_ne] at hstays
      rcases List.findIdx?_eq_some_iff_getElem.mp hk with ⟨hlt, hv, _⟩
      rw [Bool.and_eq_true] at hv
      refine ⟨⟨_, rfl⟩, ⟨_, getElem?_renominate _ k _ (List.getElem?_eq_getElem hlt), ?_⟩,
        h.renominate k check.nominated hstays, fun v hv => Or.inl ?_⟩
      · rw [if_pos rfl]
        exact beq_iff_eq.mp hv.1
      · rcases List.mem_iff_getElem?.mp hv with ⟨j, hj⟩
        rcases renominate_getElem? hj with ⟨v0, hv0, heq⟩
        refine ⟨v0, List.mem_of_getElem? hv0, ?_⟩
        rw [heq]
        split <;> exact ⟨rfl, rfl⟩
  | none =>
      refine Holds.ite (fun _ => trivial) fun _ => Holds.ok ⟨⟨_, rfl⟩, ?_, h.append hl, fun v hv => ?_⟩
      · refine ⟨s.newCheck lcand check.rcand .succeeded check.nominated, ?_, rfl⟩
        rw [List.getElem?_append_right (Nat.le_refl _), Nat.sub_self]
        rfl
      · rcases List.mem_append.mp hv with hv | hv
        · exact Or.inl ⟨v, hv, rfl, rfl⟩
        · rw [List.mem_singleton.mp hv]
          exact Or.inr ⟨rfl, rfl⟩

/-- The local candidate is one that is there, or a new one behind the others. -/
theorem lcandForMapped_cases (env : Env) {check : Check} {transportId lcand : Nat} {mapped : Addr}
    (hr : (lcandForMapped env s check transportId mapped).2 = .ok lcand) :
    (s.lcand.findIdx? (fun c => mapped == c.addr) = some lcand ∧
      (lcandForMapped env s check transportId mapped).1 = s) ∨
    ((lcandForMapped env s check transportId mapped).1 = { s with lcand := s.lcand ++
        [⟨(s.lcandOf check).compId, transportId, .prflx, env.foundation (s.lcandOf check).baseAddr,
          calcCandPrio .prflx 65535 (s.lcandOf check).compId, mapped,
          (s.lcandOf check).baseAddr⟩] } ∧
      lcand = s.lcand.length) := by
  unfold lcandForMapped at hr ⊢
  cases hi : s.lcand.findIdx? fun c => mapped == c.addr with
  | some i =>
      rw [hi] at hr
      cases hr
      exact Or.inl ⟨rfl, rfl⟩
  | none =>
      right
      rw [hi] at hr
      dsimp only at hr ⊢
      unfold addCand at hr ⊢
      split at hr
      · cases hr
      · rename_i hcomp
        rw [if_neg hcomp]
        split at hr
        · cases hr
        · rename_i hfull
          rw [if_neg hfull]
          cases hr
          exact ⟨rfl, rfl⟩

theorem lt_lcandForMapped (env : Env) {check : Check} {transportId lcand : Nat} {mapped : Addr}
    (hr : (lcandForMapped env s check transportId mapped).2 = .ok lcand) :
    lcand < (lcandForMapped env s check transportId mapped).1.lcand.length := by
  rcases lcandForMapped_cases env hr with ⟨hi, heq⟩ | ⟨heq, hl⟩
  · rw [heq]
    exact (List.findIdx?_eq_some_iff_getElem.mp hi).1
  · rw [heq, hl]
    dsimp only
    rw [List.length_append]
    exact Nat.lt_succ_self _

/-- No valid pair has a new candidate. -/
theorem PtrInv.staysNominated_lcandForMapped (env : Env) (h : PtrInv s) {check : Check}
    {transportId lcand : Nat} {mapped : Addr}
    (hr : (lcandForMapped env s check transportId mapped).2 = .ok lcand)
    (hok : ∀ j, s.lcand.findIdx? (fun c => mapped == c.addr) = some j →
      s.staysNominated check j = true) :
    (lcandForMapped env s check transportId mapped).1.staysNominated check lcand = true := by
  rcases lcandForMapped_cases env hr with ⟨hi, heq⟩ | ⟨heq, hl⟩
  · rw [heq]
    exact hok lcand hi
  · rw [heq, hl]
    unfold Sess.staysNominated
    have hnone : s.validList.findIdx? (fun v => v.lcand == s.lcand.length &&
        v.rcand == check.rcand) = none := by
      rw [List.findIdx?_eq_none_iff]
      intro v hv
      rw [beq_eq_false_iff_ne.mpr (Nat.ne_of_lt (h.lcand_lt v hv))]
      rfl
    dsimp only
    rw [hnone]

theorem PtrInv.addCand (h : PtrInv s) (compId transportId : Nat) (type : CandType)
    (localPref : Nat) (foundation : List UInt8) (addr baseAddr : Addr) :
    PtrInv (addCand s compId transportId type localPref foundation addr baseAddr).1 := by
  unfold Ice.addCand
  split
  · exact h
  · split
    · exact h
    · exact h.addLcand _

theorem PtrInv.lcandForMapped (env : Env) (h : PtrInv s) (check : Check) (transportId : Nat)
    (mapped : Addr) : PtrInv (lcandForMapped env s check transportId mapped).1 := by
  unfold Ice.lcandForMapped
  split
  · exact h
  · exact h.addCand _ _ _ _ _ _ _

/-- What `validate` leaves. -/
structure Validated (s : Sess) (p : Nat × Nat) (s' : Sess) : Prop where
  eq : ∃ l comp, s' = { s with validList := l, comp := comp }
  ptr : PtrInv s'
  mem : FromPairs s.validList p s'.validList

theorem validate_spec (h : PtrInv s) {check : Check} {lcand : Nat} (hl : lcand < s.lcand.length)
    (hstays : s.staysNominated check lcand = true) :
    Holds (Validated s (lcand, check.rcand)) AnyFault (validate s check lcand) := by
  unfold validate
  refine Holds.bind (addValid_spec h hl hstays) fun r hr => ?_
  rcases r with ⟨s1, k⟩
  rcases hr.get with ⟨v, hv, hvl⟩
  refine Holds.bind (hr.ptr.updateCompCheck (v := v) hv (by unfold Sess.lcandOf; rw [hvl]))
    fun s2 hs2 => Holds.pure ⟨?_, hs2.2.sortValidList, fun w hw => ?_⟩
  · rcases hr.eq with ⟨l, heq⟩
    have heq1 : s1 = { s with validList := l } := heq
    refine ⟨s2.sortValidList.validList, s2.sortValidList.comp, ?_⟩
    unfold Sess.sortValidList
    rw [hs2.1.eq, heq1]
  · have hsort := sortValidList_spec (fun _ _ => True) (fun _ _ => True) s2
    have hw2 := (hsort.mem w).mp hw
    rw [hs2.1.eq] at hw2
    exact hr.mem w hw2

/-! ## Nomination by a request -/

/-- What the nomination of valid pairs leaves. -/
structure Renominated (s s' : Sess) : Prop where
  eq : ∃ l comp, s' = { s with validList := l, comp := comp }
  ptr : PtrInv s'
  mem : ∀ v ∈ s'.validList, ∃ v0 ∈ s.validList, v.pair = v0.pair ∧ v.state = v0.state

theorem Renominated.refl (h : PtrInv s) : Renominated s s :=
  ⟨⟨_, _, rfl⟩, h, fun v hv => ⟨v, hv, rfl, rfl⟩⟩

theorem Renominated.trans {s'' : Sess} (h : Renominated s s') (h' : Renominated s' s'') :
    Renominated s s'' := by
  refine ⟨?_, h'.ptr, fun v hv => ?_⟩
  · rcases h.eq with ⟨l, comp, heq⟩
    rcases h'.eq with ⟨l', comp', heq'⟩
    exact ⟨l', comp', by rw [heq', heq]⟩
  · rcases h'.mem v hv with ⟨v1, hv1, hp1, hs1⟩
    rcases h.mem v1 hv1 with ⟨v0, hv0, hp0, hs0⟩
    exact ⟨v0, hv0, hp1.trans hp0, hs1.trans hs0⟩

/-- The pairs that a request nominates are each updated in their own component. -/
theorem nominateValid_spec (c : Check) (fuel : Nat) :
    ∀ j s, PtrInv s → j + fuel = s.validList.length →
      Holds (Renominated s) AnyFault (nominateValid c fuel j s) := by
  induction fuel with
  | zero => exact fun j s h _ => Renominated.refl h
  | succ fuel ih =>
      intro j s h hlen
      have hj : j < s.validList.length := by omega
      have hget : s.validList[j]? = some (s.validList.getD j default) := by
        rw [List.getD_eq_getElem?_getD, List.getElem?_eq_getElem hj]
        rfl
      rw [nominateValid]
      dsimp only
      refine Holds.ite (fun _ => ?_) fun _ => ih (j + 1) s h (by omega)
      have h1 := h.renominate j true (Or.inl rfl)
      have hv := getElem?_renominate s.validList j true hget
      rw [if_pos rfl] at hv
      refine Holds.bind (h1.updateCompCheck hv rfl) fun s2 hs2 => ?_
      have h2 : Renominated s s2 := by
        refine ⟨⟨s2.validList, s2.comp, by rw [hs2.1.eq]⟩, hs2.2, fun v hv => ?_⟩
        rw [hs2.1.eq] at hv
        rcases List.mem_iff_getElem?.mp hv with ⟨i, hi⟩
        rcases renominate_getElem? hi with ⟨v0, hv0, heq⟩
        refine ⟨v0, List.mem_of_getElem? hv0, ?_⟩
        rw [heq]
        split <;> exact ⟨rfl, rfl⟩
      have hlen2 : s2.validList.length = s.validList.length := by
        rw [hs2.1.eq]
        exact List.length_modify ..
      exact (ih (j + 1) s2 hs2.2 (by omega)).mono fun s3 hs3 => h2.trans hs3

theorem nominatePairs_spec (h : PtrInv s) (c : Check) (rcheck : RxCheck) :
    Holds (Renominated s) AnyFault (nominatePairs s c rcheck) := by
  unfold nominatePairs
  exact Holds.ite (fun _ => nominateValid_spec c _ 0 s h (Nat.zero_add _))
    fun _ => Renominated.refl h

end Ice
