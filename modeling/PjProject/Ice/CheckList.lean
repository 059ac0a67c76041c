import PjProject.Ice.PairOrder

set_option autoImplicit false

/-! # The construction of the checklist

`pj_ice_sess_create_check_list` of `pjnath/src/pjnath/ice_session.c` with the status that it returns.
The local and the remote candidates are paired, the pairs are sorted, reflexive candidates are replaced
by their bases, and of two pairs with the same remote candidate and the same base the later one is
removed. `Paired` is what a checklist should be.

Some of the errors are found when the remote candidates have been saved and checks have been added.
What is written then is left there.
-/

namespace Ice

/-- What `pj_ice_sess_create_check_list` returns. -/
inductive CreateStatus
  | success
  | einval
  | etoomany
  | enotfound
  | nohostcand
  deriving DecidableEq

/-- `pj_ice_sess_create_check_list`: the status and the session. -/
def createCheckListStatus (s : Sess) (rcand : List Cand) : CreateStatus × Sess :=
  if rcand = [] then (.einval, s)
  else if maxCand < rcand.length + s.rcandCnt then (.etoomany, s)
  else
    let s1 := s.saveRcand rcand
    let s2 := s1.withClist s1.allPairs.1
    if s1.allPairs.2 = false then (.etoomany, s2)
    else if s2.clist = [] then (.enotfound, s2)
    else
      let s3 := s2.sortClist
      (if (replaceSrflx s3 s3.clist).2 = false then .nohostcand else .success,
        s3.pruned (((s.usable rcand).map (·.compId)).foldl max 0))

/-- The session is the one that the operation leaves. -/
theorem createCheckListStatus_eq (s : Sess) (rcand : List Cand) :
    (createCheckListStatus s rcand).2 = createCheckList s rcand := by
  rw [createCheckList_eq]
  unfold createCheckListStatus
  by_cases h1 : rcand = []
  · simp [h1]
  by_cases h2 : maxCand < rcand.length + s.rcandCnt
  · simp [h1, h2]
  simp only [h1, h2, or_self, if_false]
  by_cases h3 : (s.saveRcand rcand).allPairs.2 = false
  · simp [h3]
  by_cases h4 : (s.saveRcand rcand).allPairs.1 = []
  · simp [h3, h4, Sess.withClist]
  · simp [h3, h4, Sess.withClist]

/-! ## What a checklist should be -/

/-- The base address of the local candidate of a check. -/
def Sess.baseOf (s : Sess) (c : Check) : Addr := (s.lcandOf c).baseAddr

/-- The local candidate `b` is checked for the local candidate `i`: the host candidate that is the base
of a server reflexive one. -/
def Sess.ChecksFor (s : Sess) (i b : Nat) : Prop :=
  if (s.lcand.getD i default).type = .srflx then
    b < s.lcand.length ∧ (s.lcand.getD b default).type = .host ∧
      (s.lcand.getD b default).addr = (s.lcand.getD i default).baseAddr
  else b = i

/-- The checklist of the candidates: the session `t` has the checks of the pairs of its local and
remote candidates. -/
structure Paired (t : Sess) : Prop where
  sorted : t.clist.Pairwise fun c d => d.prio ≤ c.prio
  complete : ∀ i j, i < t.lcand.length → j < t.rcandCnt → t.pairs i j = true →
    ∃ b, t.ChecksFor i b ∧
      ((∃ c ∈ t.clist, c.lcand = b ∧ c.rcand = j ∧
          c.prio = t.calcCheckPrio (t.lcand.getD i default) (t.rcand.getD j default)) ∨
        ∃ c ∈ t.clist, c.rcand = j ∧ t.baseOf c = (t.lcand.getD b default).baseAddr ∧
          t.calcCheckPrio (t.lcand.getD i default) (t.rcand.getD j default) ≤ c.prio)
  distinct : t.clist.Pairwise fun c d => ¬ (c.rcand = d.rcand ∧ t.baseOf c = t.baseOf d)

/-- The remote candidates of a session. -/
def Sess.remotes (s : Sess) : List Cand := s.rcand.take s.rcandCnt

/-- The call does what it should: with success the remote candidates of the components are those of the
session, and the checklist is right; with an error the checklist and the remote candidates stay. -/
def CreatesOrKeeps (s : Sess) (rcand : List Cand) : Prop :=
  let r := createCheckListStatus s rcand
  if r.1 = .success then
    r.2.lcand = s.lcand ∧ r.2.role = s.role ∧ r.2.remotes = s.usable rcand ∧ Paired r.2
  else r.2.clist = s.clist ∧ r.2.remotes = s.remotes

/-! ## The pairs -/

/-- The pairs of candidates in the order they are looked at. -/
def Sess.indices (s : Sess) : List (Nat × Nat) :=
  (List.range s.lcand.length).flatMap fun i => (List.range s.rcandCnt).map fun j => (i, j)

/-- The checks of pairs that match. -/
def Sess.checksOf (s : Sess) (l : List (Nat × Nat)) : List Check :=
  (l.filter fun p => s.pairs p.1 p.2).map fun p => s.newCheck p.1 p.2 .frozen false

/-- The checklist is full before the last pair. -/
def Sess.TooMany (s : Sess) : Prop :=
  ∃ n < s.indices.length, maxChecks ≤ s.clist.length + (s.checksOf (s.indices.take n)).length

/-- No check at all. -/
def Sess.NonePaired (s : Sess) : Prop := s.clist ++ s.checksOf s.indices = []

/-- The local candidate is server reflexive. -/
def Sess.srflx (s : Sess) (c : Check) : Bool := (s.lcandOf c).type == .srflx

/-- The base of a reflexive candidate is no local candidate. -/
def Sess.Baseless (s : Sess) (c : Check) : Prop := s.srflx c = true ∧ s.findBase (s.lcandOf c) = none

/-- A check is about to be added whose base is no local candidate. -/
def Sess.BaseMissing (s : Sess) : Prop := ∃ c ∈ s.clist ++ s.checksOf s.indices, s.Baseless c

/-- What is written before the error is found is what was there: a checklist that is full has no room
for any more, and otherwise there is no pair that matches, the checks are in order, and the first
reflexive one among them is without a base. -/
def Sess.Unmoved (s : Sess) : Prop :=
  (s.TooMany → maxChecks ≤ s.clist.length) ∧
    (¬ s.TooMany → s.checksOf s.indices = [] ∧ (s.clist.Pairwise fun c d => d.prio ≤ c.prio) ∧
      ∀ c, s.clist.find? s.srflx = some c → s.Baseless c)

/-- The condition on the candidates: the call ends before anything is written, there are checks, not
too many of them and none without a base, or nothing is changed by what is written. -/
def CreateFits (s : Sess) (rcand : List Cand) : Prop :=
  rcand = [] ∨ maxCand < rcand.length + s.rcandCnt ∨
    let s1 := s.saveRcand rcand
    (¬ s1.TooMany ∧ ¬ s1.NonePaired ∧ ¬ s1.BaseMissing) ∨
      (s.usable rcand = s.remotes ∧ s1.Unmoved)

variable {s t : Sess} {l : List (Nat × Nat)} {clist : List Check} {c : Check}

theorem checksOf_cons (p : Nat × Nat) : s.checksOf (p :: l) =
    (if s.pairs p.1 p.2 then [s.newCheck p.1 p.2 .frozen false] else []) ++ s.checksOf l := by
  unfold Sess.checksOf
  rw [List.filter_cons]
  split <;> simp

/-- All pairs are looked at unless the list is full before. -/
theorem generateChecks_spec (l : List (Nat × Nat)) (clist : List Check) :
    ((generateChecks s l clist).2 = true → (generateChecks s l clist).1 = clist ++ s.checksOf l) ∧
      ((generateChecks s l clist).2 = false → maxChecks ≤ (generateChecks s l clist).1.length ∧
        (maxChecks ≤ clist.length → (generateChecks s l clist).1 = clist)) ∧
      ((generateChecks s l clist).2 = false ↔
        ∃ n < l.length, maxChecks ≤ clist.length + (s.checksOf (l.take n)).length) := by
  induction l generalizing clist with
  | nil => simp [generateChecks, Sess.checksOf]
  | cons p l ih =>
      obtain ⟨i, j⟩ := p
      rw [generateChecks]
      by_cases hfull : maxChecks ≤ clist.length
      · rw [if_pos hfull]
        refine ⟨by simp, fun _ => ⟨hfull, fun _ => rfl⟩, ?_⟩
        simp only [true_iff]
        exact ⟨0, by simp, by omega⟩
      · rw [if_neg hfull]
        -- the first pair of a list that is not full is never the one that is too many
        have hshift : (∃ n < ((i, j) :: l).length,
            maxChecks ≤ clist.length + (s.checksOf (((i, j) :: l).take n)).length) ↔
            ∃ n < l.length, maxChecks ≤ clist.length + (s.checksOf ((i, j) :: l.take n)).length := by
          constructor
          · rintro ⟨n, hn, hle⟩
            cases n with
            | zero =>
                simp [Sess.checksOf] at hle
                omega
            | succ n => exact ⟨n, by simpa using hn, hle⟩
          · rintro ⟨n, hn, hle⟩
            exact ⟨n + 1, by simpa using hn, hle⟩
        rw [hshift]
        simp only [checksOf_cons]
        by_cases hpair : s.pairs i j = true
        · rw [if_pos hpair, if_pos hpair]
          obtain ⟨hok, hbad, hiff⟩ := ih (clist ++ [s.newCheck i j .frozen false])
          refine ⟨fun h => ?_, fun h => ⟨(hbad h).1, fun hc => absurd hc hfull⟩, hiff.trans ?_⟩
          · rw [hok h, List.append_assoc]
          · simp only [List.length_append, List.length_singleton, Nat.add_assoc]
        · rw [if_neg hpair, if_neg hpair, List.nil_append]
          obtain ⟨hok, hbad, hiff⟩ := ih clist
          exact ⟨hok, fun h => ⟨(hbad h).1, fun hc => absurd hc hfull⟩, hiff⟩

/-! ## Bases -/

/-- A check with the base of its local candidate. -/
def Sess.replaced (s : Sess) (c : Check) : Check :=
  if s.srflx c then { c with lcand := (s.findBase (s.lcandOf c)).getD c.lcand } else c

/-- The base that is found is a host candidate with the base address. -/
theorem findBase_some {b : Nat} {cand : Cand} (h : s.findBase cand = some b) :
    b < s.lcand.length ∧ (s.lcand.getD b default).type = .host ∧
      (s.lcand.getD b default).addr = cand.baseAddr := by
  unfold Sess.findBase at h
  rw [List.findIdx?_eq_some_iff_getElem] at h
  obtain ⟨hlt, hp, -⟩ := h
  simp only [Bool.and_eq_true, beq_iff_eq] at hp
  rw [List.getD_eq_getElem?_getD, List.getElem?_eq_getElem hlt]
  exact ⟨hlt, hp.1, hp.2.symm⟩

/-- The loop stops at a reflexive candidate without a base. -/
theorem replaceSrflx_stop (h : s.Baseless c) (l : List Check) : replaceSrflx s (c :: l) = (c :: l, false) := by
  have hs : (s.lcandOf c).type = .srflx := by simpa [Sess.srflx] using h.1
  rw [replaceSrflx, if_pos hs, h.2]

theorem replaceSrflx_cons (h : ¬ s.Baseless c) (l : List Check) : replaceSrflx s (c :: l) =
    (s.replaced c :: (replaceSrflx s l).1, (replaceSrflx s l).2) := by
  rw [replaceSrflx]
  unfold Sess.replaced
  by_cases hs : (s.lcandOf c).type = .srflx
  · have hsrflx : s.srflx c = true := by simp [Sess.srflx, hs]
    rw [if_pos hs]
    cases hb : s.findBase (s.lcandOf c) with
    | none => exact absurd ⟨hsrflx, hb⟩ h
    | some b => simp [hsrflx]
  · have hsrflx : s.srflx c = false := by simp [Sess.srflx, hs]
    rw [if_neg hs]
    simp [hsrflx]

/-- A check that is replaced is another one. -/
theorem replaced_ne (hs : s.srflx c = true) (hb : s.findBase (s.lcandOf c) ≠ none) :
    s.replaced c ≠ c := by
  obtain ⟨b, hb⟩ := Option.ne_none_iff_exists'.mp hb
  intro heq
  have hlcand : b = c.lcand := by
    have := congrArg Check.lcand heq
    simpa [Sess.replaced, hs, hb] using this
  have hhost := (findBase_some hb).2.1
  rw [hlcand] at hhost
  simp only [Sess.srflx, Sess.lcandOf, hhost] at hs
  exact absurd hs (by decide)

/-- The loop replaces every reflexive candidate, unless it comes to one without a base. -/
theorem replaceSrflx_spec (l : List Check) :
    ((replaceSrflx s l).2 = false ↔ ∃ c ∈ l, s.Baseless c) ∧
      ((replaceSrflx s l).2 = true → (replaceSrflx s l).1 = l.map s.replaced) ∧
      (replaceSrflx s l).1.map Check.prio = l.map Check.prio ∧
      ((replaceSrflx s l).2 = false →
        ((replaceSrflx s l).1 = l ↔ ∀ c, l.find? s.srflx = some c → s.Baseless c)) := by
  induction l with
  | nil => simp [replaceSrflx]
  | cons c l ih =>
      by_cases hbad : s.Baseless c
      · rw [replaceSrflx_stop hbad]
        have hfind : (c :: l).find? s.srflx = some c := by simp [hbad.1]
        simp only [hfind, Option.some.injEq, forall_eq', hbad]
        simp [hbad]
      · rw [replaceSrflx_cons hbad]
        obtain ⟨hiff, hok, hprio, hsame⟩ := ih
        have hprio' : (s.replaced c).prio = c.prio := by
          unfold Sess.replaced
          split <;> rfl
        refine ⟨by simp [hiff, hbad], fun h => by simp [hok h], by simp [hprio, hprio'], fun h => ?_⟩
        by_cases hs : s.srflx c = true
        · -- the first reflexive candidate has a base, and is replaced
          have hne : s.findBase (s.lcandOf c) ≠ none := fun hn => hbad ⟨hs, hn⟩
          simp [hs, replaced_ne hs hne, hbad]
        · have hc : s.replaced c = c := by simp [Sess.replaced, hs]
          simp [hs, hc, hsame h]

/-! ## Duplicates -/

/-- Two checks are duplicates if they have the remote candidate and the base in common. -/
theorem duplicate_iff {d : Check} : s.duplicate c d = true ↔ c.rcand = d.rcand ∧ s.baseOf c = s.baseOf d := by
  unfold Sess.duplicate Sess.baseOf
  simp only [Bool.or_eq_true, Bool.and_eq_true, beq_iff_eq]
  constructor
  · rintro (⟨hl, hr⟩ | ⟨hr, hb⟩)
    · exact ⟨hr, by rw [Sess.lcandOf, Sess.lcandOf, hl]⟩
    · exact ⟨hr.symm, hb.symm⟩
  · rintro ⟨hr, hb⟩
    exact .inr ⟨hr.symm, hb.symm⟩

theorem removeDuplicates_sublist (fuel : Nat) (l : List Check) :
    (removeDuplicates s fuel l).Sublist l := by
  induction fuel generalizing l with
  | zero => simp [removeDuplicates]
  | succ fuel ih =>
      cases l with
      | nil => simp [removeDuplicates]
      | cons c l =>
          rw [removeDuplicates]
          exact ((ih _).trans List.filter_sublist).cons_cons c

/-- No check that is left has a duplicate, and of one that is removed a duplicate is left that is not
behind it. -/
theorem removeDuplicates_spec (fuel : Nat) (l : List Check) (hlen : l.length ≤ fuel)
    (hsorted : l.Pairwise fun c d => d.prio ≤ c.prio) :
    ((removeDuplicates s fuel l).Pairwise fun c d => s.duplicate c d = false) ∧
      ∀ c ∈ l, c ∈ removeDuplicates s fuel l ∨
        ∃ d ∈ removeDuplicates s fuel l, s.duplicate d c = true ∧ c.prio ≤ d.prio := by
  induction fuel generalizing l with
  | zero =>
      have hnil : l = [] := List.length_eq_zero_iff.mp (by omega)
      simp [hnil, removeDuplicates]
  | succ fuel ih =>
      cases l with
      | nil => simp [removeDuplicates]
      | cons c l =>
          rw [removeDuplicates]
          obtain ⟨hfirst, hrest⟩ := List.pairwise_cons.mp hsorted
          have hlen' : (l.filter fun d => !s.duplicate c d).length ≤ fuel :=
            (List.length_filter_le _ _).trans (by simpa using hlen)
          obtain ⟨hpair, hmem⟩ := ih _ hlen' (hrest.sublist List.filter_sublist)
          constructor
          · refine List.pairwise_cons.mpr ⟨fun d hd => ?_, hpair⟩
            have := (List.mem_filter.mp ((removeDuplicates_sublist fuel _).mem hd)).2
            simpa using this
          · intro d hd
            rcases List.mem_cons.mp hd with rfl | hd
            · exact .inl List.mem_cons_self
            · by_cases hdup : s.duplicate c d = true
              · exact .inr ⟨c, List.mem_cons_self, hdup, hfirst d hd⟩
              · rcases hmem d (List.mem_filter.mpr ⟨hd, by simpa using hdup⟩) with h | ⟨e, he, hde⟩
                · exact .inl (List.mem_cons_of_mem c h)
                · exact .inr ⟨e, List.mem_cons_of_mem c he, hde⟩

/-! ## What is written -/

/-- The list is sorted by `sort_checklist` already. -/
theorem sortLoop_of_sorted (fuel i : Nat) {r : List Check × List Comp}
    (h : r.1.Pairwise fun c d => d.prio ≤ c.prio) (hlen : i + fuel < r.1.length ∨ fuel = 0) :
    sortLoop fuel i r = r := by
  induction fuel generalizing i with
  | zero => rfl
  | succ fuel ih =>
      have hi : i < r.1.length := by omega
      have hsame : highestFrom r.1 i = i := by
        refine (highestFrom_spec hi).2.2 fun b hib hb => ?_
        rcases hib.eq_or_lt with rfl | hlt
        · exact le_rfl
        · have hle := List.pairwise_iff_getElem.mp h i b hi hb hlt
          simpa [prioAt, List.getElem?_eq_getElem hi, List.getElem?_eq_getElem hb] using hle
      rw [sortLoop]
      simp only [hsame, ne_eq, not_true, if_false]
      exact ih (i + 1) (by omega)

theorem pairwise_prio {l : List Check} : (l.Pairwise fun c d => d.prio ≤ c.prio) ↔
    (l.map Check.prio).Pairwise fun m n => n ≤ m := by
  rw [List.pairwise_map]

/-- A list that is the same after sorting, and after the bases of some of its checks have been put in,
was in order. -/
theorem sorted_of_same {l l' : List Check} (h : l'.map Check.prio = (sortChecklist l []).1.map Check.prio)
    (hl : l' = l) : l.Pairwise fun c d => d.prio ≤ c.prio := by
  rw [pairwise_prio, ← hl, h, ← pairwise_prio]
  exact (sortChecklist_spec l []).2.1

theorem remotes_saveRcand (s : Sess) (rcand : List Cand) :
    (s.saveRcand rcand).remotes = s.usable rcand := by
  unfold Sess.remotes Sess.saveRcand
  exact List.take_left

theorem mem_indices {i j : Nat} : (i, j) ∈ s.indices ↔ i < s.lcand.length ∧ j < s.rcandCnt := by
  simp [Sess.indices]

theorem tooMany_iff : s.allPairs.2 = false ↔ s.TooMany := (generateChecks_spec s.indices s.clist).2.2

theorem allPairs_ok (h : ¬ s.TooMany) : s.allPairs.1 = s.clist ++ s.checksOf s.indices := by
  refine (generateChecks_spec s.indices s.clist).1 ?_
  by_contra hne
  exact h (tooMany_iff.mp (Bool.eq_false_of_not_eq_true hne))

/-- The checklist after an error is the one before just if what is written is what was there. -/
theorem unmoved_iff_tooMany (h : s.TooMany) : s.allPairs.1 = s.clist ↔ s.Unmoved := by
  obtain ⟨hfull, hsame⟩ := (generateChecks_spec s.indices s.clist).2.1 (tooMany_iff.mpr h)
  constructor
  · intro heq
    have hlen : maxChecks ≤ s.allPairs.1.length := hfull
    rw [heq] at hlen
    exact ⟨fun _ => hlen, fun hn => absurd h hn⟩
  · intro hu
    exact hsame (hu.1 h)

theorem unmoved_iff_baseMissing (h : ¬ s.TooMany) (hbase : s.BaseMissing) :
    (replaceSrflx s (sortChecklist (s.clist ++ s.checksOf s.indices) []).1).1 = s.clist ↔ s.Unmoved := by
  obtain ⟨hperm, -, -⟩ := sortChecklist_spec (s.clist ++ s.checksOf s.indices) []
  obtain ⟨hiff, -, hprio, hsame⟩ :=
    replaceSrflx_spec (s := s) (sortChecklist (s.clist ++ s.checksOf s.indices) []).1
  have hfalse := hiff.mpr (by
    obtain ⟨c, hc, hbad⟩ := hbase
    exact ⟨c, hperm.mem_iff.mpr hc, hbad⟩)
  have hsort : ∀ {l : List Check}, (l.Pairwise fun c d => d.prio ≤ c.prio) → (sortChecklist l []).1 = l := by
    intro l hl
    rw [sortChecklist, sortLoop_of_sorted _ _ hl (by dsimp only; omega)]
  constructor
  · intro heq
    have hnone : s.checksOf s.indices = [] := by
      have hlen := congrArg List.length hprio
      rw [heq, List.length_map, List.length_map, hperm.length_eq, List.length_append] at hlen
      exact List.length_eq_zero_iff.mp (by omega)
    rw [hnone, List.append_nil] at heq hprio hsame hfalse
    have hsorted := sorted_of_same hprio heq
    rw [hsort hsorted] at heq hsame hfalse
    exact ⟨fun ht => absurd ht h, fun _ => ⟨hnone, hsorted, (hsame hfalse).mp heq⟩⟩
  · intro hu
    obtain ⟨hnone, hsorted, hfind⟩ := hu.2 h
    rw [hnone, List.append_nil, hsort hsorted] at hsame hfalse ⊢
    exact (hsame hfalse).mpr hfind

theorem replaceSrflx_withClist (clist l : List Check) :
    replaceSrflx (s.withClist clist) l = replaceSrflx s l := by
  induction l with
  | nil => rfl
  | cons c l ih =>
      rw [replaceSrflx, replaceSrflx, ih]
      rfl

theorem removeDuplicates_withClist (clist : List Check) (fuel : Nat) (l : List Check) :
    removeDuplicates (s.withClist clist) fuel l = removeDuplicates s fuel l := by
  induction fuel generalizing l with
  | zero => simp [removeDuplicates]
  | succ fuel ih =>
      cases l with
      | nil => simp [removeDuplicates]
      | cons c l =>
          rw [removeDuplicates, removeDuplicates, ih]
          rfl

/-- The session `t` has the candidates and the role of `s`. -/
structure SameCands (s t : Sess) : Prop where
  lcand : t.lcand = s.lcand
  rcand : t.rcand = s.rcand
  rcandCnt : t.rcandCnt = s.rcandCnt
  role : t.role = s.role

/-- What is left of the sorted list `l`. -/
theorem pruned_withClist (l : List Check) (highest : Nat) :
    SameCands s ((s.withClist l).pruned highest) ∧ ((s.withClist l).pruned highest).clist =
      if (replaceSrflx s l).2 = false then (replaceSrflx s l).1
      else removeDuplicates s (replaceSrflx s l).1.length (replaceSrflx s l).1 := by
  unfold Sess.pruned
  rw [show (s.withClist l).clist = l from rfl, replaceSrflx_withClist]
  simp only [removeDuplicates_withClist]
  cases (replaceSrflx s l).2 with
  | false => exact ⟨⟨rfl, rfl, rfl, rfl⟩, rfl⟩
  | true => exact ⟨⟨rfl, rfl, rfl, rfl⟩, rfl⟩

/-- The local candidate of a check that is replaced is checked for the one that it had. -/
theorem checksFor_replaced (h : ¬ s.Baseless c) : s.ChecksFor c.lcand (s.replaced c).lcand := by
  unfold Sess.ChecksFor Sess.replaced
  by_cases hs : (s.lcandOf c).type = .srflx
  · have hsrflx : s.srflx c = true := by simp [Sess.srflx, hs]
    obtain ⟨b, hb⟩ := Option.ne_none_iff_exists'.mp fun hn => h ⟨hsrflx, hn⟩
    rw [if_pos (show (s.lcand.getD c.lcand default).type = .srflx from hs), if_pos hsrflx, hb]
    exact findBase_some hb
  · have hsrflx : s.srflx c = false := by simp [Sess.srflx, hs]
    rw [if_neg (show ¬ (s.lcand.getD c.lcand default).type = .srflx from hs), hsrflx]
    rfl

/-- What is found in the list is what is said of the two candidates. -/
theorem replaced_fields (c : Check) : (s.replaced c).rcand = c.rcand ∧ (s.replaced c).prio = c.prio := by
  unfold Sess.replaced
  split <;> exact ⟨rfl, rfl⟩

/-- With no error the checklist is what it should be. -/
theorem paired_of_success (hmany : ¬ s.TooMany) (hbase : ¬ s.BaseMissing) {l : List Check}
    (hl : (sortChecklist s.allPairs.1 []).1 = l) (highest : Nat) :
    (replaceSrflx s l).2 = true ∧ Paired ((s.withClist l).pruned highest) := by
  obtain ⟨hperm, hsorted, -⟩ := sortChecklist_spec s.allPairs.1 []
  rw [hl] at hperm hsorted
  rw [allPairs_ok hmany] at hperm
  obtain ⟨hiff, hok, hprio, -⟩ := replaceSrflx_spec (s := s) l
  have hhas : ∀ c ∈ l, ¬ s.Baseless c := fun c hc hbad => hbase ⟨c, hperm.mem_iff.mp hc, hbad⟩
  have htrue : (replaceSrflx s l).2 = true := by
    by_contra hne
    obtain ⟨c, hc, hbad⟩ := hiff.mp (Bool.eq_false_of_not_eq_true hne)
    exact hhas c hc hbad
  refine ⟨htrue, ?_⟩
  have hsorted' : (l.map s.replaced).Pairwise fun c d => d.prio ≤ c.prio := by
    rw [pairwise_prio, ← hok htrue, hprio, ← pairwise_prio]
    exact hsorted
  obtain ⟨hdistinct, hleft⟩ := removeDuplicates_spec (s := s) _ (l.map s.replaced) le_rfl hsorted'
  have hsub := removeDuplicates_sublist (s := s) (l.map s.replaced).length (l.map s.replaced)
  obtain ⟨⟨hlcand, hrcand, hcnt, hrole⟩, hclist⟩ := pruned_withClist (s := s) l highest
  rw [htrue, if_neg (by simp), hok htrue] at hclist
  generalize (s.withClist l).pruned highest = t at hlcand hrcand hcnt hrole hclist ⊢
  have hbaseOf : ∀ c, t.baseOf c = s.baseOf c := by
    intro c
    unfold Sess.baseOf Sess.lcandOf
    rw [hlcand]
  constructor
  · rw [hclist]
    exact hsorted'.sublist hsub
  · intro i j hi hj hpairs
    rw [hlcand] at hi
    rw [hcnt] at hj
    have hpairs' : s.pairs i j = true := by
      unfold Sess.pairs at hpairs ⊢
      rwa [hlcand, hrcand] at hpairs
    have hcalc : ∀ a b, t.calcCheckPrio a b = s.calcCheckPrio a b := by
      intro a b
      unfold Sess.calcCheckPrio
      rw [hrole]
    -- the check of the pair, and what has become of it
    have hmem : s.newCheck i j .frozen false ∈ l := by
      rw [hperm.mem_iff, List.mem_append]
      refine .inr (List.mem_map.mpr ⟨(i, j), List.mem_filter.mpr ⟨mem_indices.mpr ⟨hi, hj⟩, hpairs'⟩, rfl⟩)
    obtain ⟨hrc, hpr⟩ := replaced_fields (s := s) (s.newCheck i j .frozen false)
    have hfor : t.ChecksFor i (s.replaced (s.newCheck i j .frozen false)).lcand := by
      unfold Sess.ChecksFor
      rw [hlcand]
      exact checksFor_replaced (hhas _ hmem)
    refine ⟨_, hfor, ?_⟩
    rw [hclist, hcalc, hlcand, hrcand]
    rcases hleft _ (List.mem_map_of_mem hmem) with hin | ⟨d, hd, hdup, hle⟩
    · exact .inl ⟨_, hin, rfl, hrc, hpr⟩
    · obtain ⟨hrcand', hbase'⟩ := duplicate_iff.mp hdup
      rw [hpr] at hle
      exact .inr ⟨d, hd, hrcand'.trans hrc, (hbaseOf d).trans hbase', hle⟩
  · rw [hclist]
    refine hdistinct.imp fun {c d} hdup => ?_
    rw [hbaseOf, hbaseOf, ← duplicate_iff, hdup]
    simp

/-! ## The status and what is left -/

/-- What becomes of the saved candidates: the errors in the order they are found. -/
theorem createCheckListStatus_cases {rcand : List Cand} (hne : rcand ≠ [])
    (hroom : rcand.length + s.rcandCnt ≤ maxCand) {t : Sess} (ht : s.saveRcand rcand = t) :
    (t.TooMany → createCheckListStatus s rcand = (.etoomany, t.withClist t.allPairs.1)) ∧
      (¬ t.TooMany → t.NonePaired → createCheckListStatus s rcand = (.enotfound, t.withClist [])) ∧
      (¬ t.TooMany → ¬ t.NonePaired → ∀ l, (sortChecklist t.allPairs.1 []).1 = l →
        createCheckListStatus s rcand =
          (if (replaceSrflx t l).2 = false then .nohostcand else .success,
            (t.withClist l).pruned (((s.usable rcand).map (·.compId)).foldl max 0))) := by
  unfold createCheckListStatus
  rw [if_neg hne, if_neg (not_lt.mpr hroom), ht]
  refine ⟨fun hmany => ?_, fun hmany hnone => ?_, fun hmany hnone l hl => ?_⟩
  · simp only [tooMany_iff.mpr hmany, if_true]
  · have hclist : (t.withClist t.allPairs.1).clist = [] := (allPairs_ok hmany).trans hnone
    have hok : ¬ t.allPairs.2 = false := fun h => hmany (tooMany_iff.mp h)
    dsimp only
    rw [if_neg hok, if_pos hclist, show t.allPairs.1 = [] from hclist]
  · have hclist : ¬ (t.withClist t.allPairs.1).clist = [] := fun h =>
      hnone ((allPairs_ok hmany).symm.trans h)
    have hok : ¬ t.allPairs.2 = false := fun h => hmany (tooMany_iff.mp h)
    have hsort : (t.withClist t.allPairs.1).sortClist = t.withClist l := by
      rw [sortClist_eq, ← hl]
      rfl
    dsimp only
    rw [if_neg hok, if_neg hclist, hsort, show (t.withClist l).clist = l from rfl, replaceSrflx_withClist]

theorem remotes_of_sameCands {t' : Sess} (h : SameCands t t') : t'.remotes = t.remotes := by
  unfold Sess.remotes
  rw [h.rcand, h.rcandCnt]

/-- **When the construction of the checklist succeeds or changes nothing.** -/
theorem createsOrKeeps_iff (s : Sess) (rcand : List Cand) : CreatesOrKeeps s rcand ↔ CreateFits s rcand := by
  unfold CreatesOrKeeps CreateFits
  by_cases hnil : rcand = []
  · simp [createCheckListStatus, hnil]
  by_cases hroom : maxCand < rcand.length + s.rcandCnt
  · simp [createCheckListStatus, hnil, hroom]
  have hremotes := remotes_saveRcand s rcand
  have hs : (s.saveRcand rcand).clist = s.clist ∧ (s.saveRcand rcand).lcand = s.lcand ∧
      (s.saveRcand rcand).role = s.role := ⟨rfl, rfl, rfl⟩
  generalize ht : s.saveRcand rcand = t at hremotes hs
  obtain ⟨hclist, hlcand, hrole⟩ := hs
  obtain ⟨hmany, hnone, hrest⟩ := createCheckListStatus_cases hnil (not_lt.mp hroom) ht
  simp only [hnil, hroom, false_or]
  by_cases h1 : t.TooMany
  · rw [hmany h1]
    have hkept := unmoved_iff_tooMany h1
    simp only [h1, not_true, false_and, false_or, reduceCtorEq, if_false]
    rw [← hkept, hclist, ← hremotes]
    exact and_comm
  by_cases h2 : t.NonePaired
  · rw [hnone h1 h2]
    obtain ⟨hold, hnew⟩ := List.append_eq_nil_iff.mp h2
    have hunmoved : t.Unmoved := ⟨fun h => absurd h h1, fun _ => ⟨hnew, by simp [hold], by simp [hold]⟩⟩
    simp only [h1, h2, hunmoved, not_true, false_and, and_false, false_or, and_true, reduceCtorEq, if_false]
    rw [← hclist, hold, ← hremotes]
    exact and_iff_right rfl
  rw [hrest h1 h2 _ rfl]
  by_cases h3 : t.BaseMissing
  · have hfalse : (replaceSrflx t (sortChecklist t.allPairs.1 []).1).2 = false := by
      obtain ⟨hperm, -, -⟩ := sortChecklist_spec t.allPairs.1 []
      rw [allPairs_ok h1] at hperm
      obtain ⟨c, hc, hbad⟩ := h3
      rw [allPairs_ok h1]
      exact (replaceSrflx_spec _).1.mpr ⟨c, hperm.mem_iff.mpr hc, hbad⟩
    have hkept := unmoved_iff_baseMissing h1 h3
    obtain ⟨hcands, hl⟩ := pruned_withClist (s := t) (sortChecklist t.allPairs.1 []).1
      (((s.usable rcand).map (·.compId)).foldl max 0)
    rw [if_pos hfalse] at hl
    simp only [hfalse, h3, not_true, and_false, false_or, reduceCtorEq, if_false, if_true]
    rw [hl, remotes_of_sameCands hcands, hremotes, ← hkept, hclist, allPairs_ok h1, hclist]
    exact and_comm
  · obtain ⟨htrue, hpaired⟩ := paired_of_success h1 h3 (l := (sortChecklist t.allPairs.1 []).1) rfl
      (((s.usable rcand).map (·.compId)).foldl max 0)
    obtain ⟨hcands, -⟩ := pruned_withClist (s := t) (sortChecklist t.allPairs.1 []).1
      (((s.usable rcand).map (·.compId)).foldl max 0)
    simp only [htrue, h1, h2, h3, not_false_iff, and_self, true_or, iff_true, reduceCtorEq, if_false, if_true]
    exact ⟨hcands.lcand.trans hlcand, hcands.role.trans hrole,
      (remotes_of_sameCands hcands).trans hremotes, hpaired⟩

/-- A session whose only local candidate is server reflexive, and the candidate of the other side. -/
def reflexiveOnly : Sess :=
  { sessCreate .controlling 7 1 false false with
    lcand := [⟨1, 0, .srflx, [83], calcCandPrio .srflx 65535 1, ⟨false, 3405803777, 4000⟩,
      ⟨false, 3232235777, 4000⟩⟩] }

def someRemote : Cand := ⟨1, 0, .host, [72], calcCandPrio .host 65535 1, ⟨false, 3221225985, 5000⟩,
  ⟨false, 3221225985, 5000⟩⟩

/-- The call fails for want of the base, and leaves a check and a remote candidate. -/
theorem reflexiveOnly_left : ¬ CreatesOrKeeps reflexiveOnly [someRemote] := by
  intro h
  have hstatus : (createCheckListStatus reflexiveOnly [someRemote]).1 = .nohostcand := by decide
  have hclist : (createCheckListStatus reflexiveOnly [someRemote]).2.clist ≠ reflexiveOnly.clist := by
    decide
  unfold CreatesOrKeeps at h
  simp only [hstatus, reduceCtorEq, if_false] at h
  exact hclist h.1

end Ice
