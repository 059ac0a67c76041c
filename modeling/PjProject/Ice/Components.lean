import PjProject.Ice.Pointers

set_option autoImplicit false

/-! # Components of a pair

A check pairs a local and a remote candidate, and both are to be of one component; the component's
pointers are to lead to valid pairs of it (`ComponentsConsistent`). The checklist is built so, but
later the candidates are looked up by their address only: the remote candidate of a request by its
source address, the local candidate of a response by its mapped address, and the base of a server
reflexive candidate by its base address. `components_consistent`: where these lookups find
candidates of the right component (`lookupsOk`), and a checklist is created once, every reachable
state is consistent. A request of component 1 from an address of component 2 breaks it
(`request_crosses_components`).
-/

namespace Ice

open Machine Outcome

/-! ## The property -/

/-- The pairs of the checklist and of the valid list are each of one component, and the pointers of
a component lead to pairs of it that have succeeded, and to a nominated one. -/
structure ComponentsConsistent (s : Sess) : Prop where
  clist : ∀ c ∈ s.clist, (s.lcandOf c).compId = (s.rcandOf c).compId
  validList : ∀ v ∈ s.validList, (s.lcandOf v).compId = (s.rcandOf v).compId
  pointers : PointersOk
    (fun i v => (s.lcandOf v).compId = i + 1 ∧ v.state = .succeeded)
    (fun i v => (s.lcandOf v).compId = i + 1 ∧ v.state = .succeeded ∧ v.nominated = true)
    s.validList s.comp

/-! ## The lookups -/

/-- The base of a server reflexive candidate is of its component. -/
def Sess.baseOk (s : Sess) (cand : Cand) : Bool :=
  match s.findBase cand with
  | none => true
  | some j => (s.lcand.getD j default).compId == cand.compId

/-- The remote candidate with the source address of a request is of the request's component. -/
def Sess.sourceOk (s : Sess) (compId : Nat) (srcAddr : Addr) : Bool :=
  match s.findRcand srcAddr with
  | none => true
  | some j => (s.rcand.getD j default).compId == compId

/-- The early requests are as `sourceOk` asks for, and two from one address are of one component. -/
def Sess.earlyOk (s : Sess) (l : List RxCheck) : Bool :=
  l.all fun r => s.sourceOk r.compId r.srcAddr &&
    l.all fun r' => r.srcAddr != r'.srcAddr || r.compId == r'.compId

/-- The local candidate with the mapped address of a response is of the component of the check, and
its pair stays nominated. -/
def Sess.mappedOk (s : Sess) (check : Check) (mapped : Addr) : Bool :=
  match s.lcand.findIdx? fun c => mapped == c.addr with
  | none => true
  | some j => (s.lcand.getD j default).compId == (s.lcandOf check).compId && s.staysNominated check j

/-- The condition on an operation: its lookups find candidates of the right component, and it does
not create a second checklist. -/
def lookupsOk (s : Sess) : Op → Bool
  | .createCheckList _ => s.clist.isEmpty && s.lcand.all fun c => c.type != .srflx || s.baseOk c
  | .startCheck => s.earlyOk s.earlyCheck
  | .rxRequest rq => s.sourceOk rq.compId rq.srcAddr
  | .response id (.response srcAddr (some mapped)) =>
      match s.pending.find? fun r => r.id == id with
      | none => true
      | some req =>
          match s.clist[req.ckid]? with
          | none => true
          | some check => (s.rcandOf check).addr != srcAddr || s.mappedOk check mapped
  | _ => true

/-! ## The invariant -/

/-- The candidates of a pair are there, and are of one component. -/
structure PairOk (lcand rcand : List Cand) (cnt : Nat) (p : Nat × Nat) : Prop where
  fst_lt : p.1 < lcand.length
  snd_lt : p.2 < cnt
  comp : (lcand.getD p.1 default).compId = (rcand.getD p.2 default).compId

/-- What every reachable state satisfies. -/
structure CompInv (s : Sess) : Prop where
  cnt : s.rcandCnt ≤ s.rcand.length
  clist : ∀ p ∈ s.clist.map Check.pair, PairOk s.lcand s.rcand s.rcandCnt p
  valid : ∀ v ∈ s.validList, PairOk s.lcand s.rcand s.rcandCnt v.pair ∧ v.state = .succeeded
  empty : s.clist.map Check.pair = [] → s.validList = []
  ptr : PtrInv s

theorem CompInv.consistent {s : Sess} (h : CompInv s) : ComponentsConsistent s := by
  have hmem : ∀ {k : Nat} {v : Check}, s.validList[k]? = some v → v ∈ s.validList :=
    fun hk => List.mem_of_getElem? hk
  refine ⟨fun c hc => (h.clist c.pair (List.mem_map_of_mem hc)).comp,
    fun v hv => (h.valid v hv).1.comp, h.ptr.pointers.mono (fun i k v hk hp => ?_) fun i k v hk hp => ?_⟩
  · exact ⟨v, hk, hp, (h.valid v (hmem hk)).2⟩
  · exact ⟨v, hk, hp.1, (h.valid v (hmem hk)).2, hp.2⟩

theorem compInv_sessCreate (role : Role) (tb n : Nat) (aggressive wantNom : Bool) :
    CompInv (sessCreate role tb n aggressive wantNom) :=
  ⟨Nat.le_refl 0, nofun, nofun, fun _ => rfl, ptrInv_sessCreate role tb n aggressive wantNom⟩

variable {s s' : Sess}

/-- Operations that keep candidates, pairs and pointers keep the invariant. -/
theorem CompInv.performed (h : CompInv s) (hp : Performed s s') : CompInv s' := by
  constructor
  · rw [hp.rcand, hp.rcandCnt]
    exact h.cnt
  · rw [hp.pairs, hp.lcand, hp.rcand, hp.rcandCnt]
    exact h.clist
  · rw [hp.validList, hp.lcand, hp.rcand, hp.rcandCnt]
    exact h.valid
  · rw [hp.pairs, hp.validList]
    exact h.empty
  · exact h.ptr.performed hp

theorem CompInv.touch (h : CompInv s) (ht : Touch s s') : CompInv s' := h.performed ht.performed

theorem CompInv.performCheck (env : Env) (h : CompInv s) (ckid : Nat) (nominate : Bool) :
    Holds (fun r => CompInv r.1) AnyFault (performCheck env s ckid nominate) :=
  (performed_performCheck env s ckid nominate).mono fun _ hp => h.performed hp

/-! ## New candidates -/

/-- A local candidate behind the others changes no pair. -/
theorem CompInv.addLcand (h : CompInv s) (cand : Cand) :
    CompInv { s with lcand := s.lcand ++ [cand] } := by
  have hpair : ∀ p, PairOk s.lcand s.rcand s.rcandCnt p →
      PairOk (s.lcand ++ [cand]) s.rcand s.rcandCnt p := by
    intro p hp
    refine ⟨?_, hp.snd_lt, ?_⟩
    · rw [List.length_append]
      exact Nat.lt_add_right _ hp.fst_lt
    · rw [getD_append_of_lt _ _ hp.fst_lt]
      exact hp.comp
  exact ⟨h.cnt, fun p hp => hpair p (h.clist p hp),
    fun v hv => ⟨hpair _ (h.valid v hv).1, (h.valid v hv).2⟩, h.empty, h.ptr.addLcand cand⟩

theorem CompInv.addCand (h : CompInv s) (compId transportId : Nat) (type : CandType)
    (localPref : Nat) (foundation : List UInt8) (addr baseAddr : Addr) :
    CompInv (addCand s compId transportId type localPref foundation addr baseAddr).1 := by
  unfold Ice.addCand
  split
  · exact h
  · split
    · exact h
    · exact h.addLcand _

theorem getD_addRcand (h : s.rcandCnt ≤ s.rcand.length) (cand : Cand) {j : Nat}
    (hj : j < s.rcandCnt) : (s.addRcand cand).rcand.getD j default = s.rcand.getD j default := by
  have hlen : j < (s.rcand.take s.rcandCnt).length := by
    rw [List.length_take]
    omega
  unfold Sess.addRcand
  rw [List.append_assoc, getD_append_of_lt _ _ hlen, List.getD_eq_getElem?_getD,
    List.getElem?_take_of_lt hj, List.getD_eq_getElem?_getD]

theorem getD_addRcand_self (h : s.rcandCnt ≤ s.rcand.length) (cand : Cand) :
    (s.addRcand cand).rcand.getD s.rcandCnt default = cand := by
  have hlen : (s.rcand.take s.rcandCnt).length = s.rcandCnt := by
    rw [List.length_take]
    omega
  unfold Sess.addRcand
  rw [List.getD_eq_getElem?_getD, List.append_assoc,
    List.getElem?_append_right (Nat.le_of_eq hlen), hlen, Nat.sub_self]
  rfl

/-- A remote candidate behind the others changes no pair. -/
theorem CompInv.addRcand (h : CompInv s) (cand : Cand) : CompInv (s.addRcand cand) := by
  have hpair : ∀ p, PairOk s.lcand s.rcand s.rcandCnt p →
      PairOk s.lcand (s.addRcand cand).rcand (s.rcandCnt + 1) p := by
    intro p hp
    refine ⟨hp.fst_lt, Nat.lt_succ_of_lt hp.snd_lt, ?_⟩
    rw [getD_addRcand h.cnt cand hp.snd_lt]
    exact hp.comp
  refine ⟨?_, fun p hp => hpair p (h.clist p hp),
    fun v hv => ⟨hpair _ (h.valid v hv).1, (h.valid v hv).2⟩, h.empty, h.ptr.frame rfl rfl rfl⟩
  have hcnt := h.cnt
  unfold Sess.addRcand
  simp only [List.length_append, List.length_take, List.length_cons, List.length_nil,
    List.length_drop]
  omega

/-! ## The checklist -/

theorem generateChecks_mem (s : Sess) (l : List (Nat × Nat)) :
    ∀ clist, ∀ c ∈ (generateChecks s l clist).1,
      c ∈ clist ∨ c.pair ∈ l ∧ s.pairs c.lcand c.rcand = true := by
  induction l with
  | nil => exact fun clist c hc => Or.inl hc
  | cons p l ih =>
      rcases p with ⟨i, j⟩
      intro clist c hc
      rw [generateChecks] at hc
      split at hc
      · exact Or.inl hc
      · split at hc
        · rename_i hp
          rcases ih _ c hc with hmem | hmem
          · rcases List.mem_append.mp hmem with hmem | hmem
            · exact Or.inl hmem
            · rw [List.mem_singleton.mp hmem]
              exact Or.inr ⟨List.mem_cons_self, hp⟩
          · exact Or.inr ⟨List.mem_cons_of_mem _ hmem.1, hmem.2⟩
        · rcases ih _ c hc with hmem | hmem
          · exact Or.inl hmem
          · exact Or.inr ⟨List.mem_cons_of_mem _ hmem.1, hmem.2⟩

theorem pairOk_of_pairs {c : Check} (hp : s.pairs c.lcand c.rcand = true)
    (hl : c.lcand < s.lcand.length) (hr : c.rcand < s.rcandCnt) :
    PairOk s.lcand s.rcand s.rcandCnt c.pair := by
  unfold Sess.pairs at hp
  rw [Bool.and_eq_true] at hp
  exact ⟨hl, hr, beq_iff_eq.mp hp.1⟩

/-- The pairs of a checklist that is created are each of one component. -/
theorem generateChecks_pairOk (s : Sess) (c : Check)
    (hc : c ∈ (generateChecks s ((List.range s.lcand.length).flatMap fun i =>
      (List.range s.rcandCnt).map fun j => (i, j)) []).1) :
    PairOk s.lcand s.rcand s.rcandCnt c.pair := by
  rcases generateChecks_mem s _ [] c hc with hmem | ⟨hmem, hp⟩
  · cases hmem
  · rw [List.mem_flatMap] at hmem
    rcases hmem with ⟨i, hi, hj⟩
    rw [List.mem_map] at hj
    rcases hj with ⟨j, hj, hij⟩
    have hl : c.lcand = i := (congrArg Prod.fst hij).symm
    have hr : c.rcand = j := (congrArg Prod.snd hij).symm
    exact pairOk_of_pairs hp (by rw [hl]; exact List.mem_range.mp hi)
      (by rw [hr]; exact List.mem_range.mp hj)

/-- A base is a local candidate, of the same component where `baseOk` says so. -/
theorem findBase_spec {cand : Cand} {j : Nat} (hj : s.findBase cand = some j)
    (hok : s.baseOk cand = true) :
    j < s.lcand.length ∧ (s.lcand.getD j default).compId = cand.compId := by
  unfold Sess.baseOk at hok
  rw [hj] at hok
  unfold Sess.findBase at hj
  exact ⟨(List.findIdx?_eq_some_iff_getElem.mp hj).1, beq_iff_eq.mp hok⟩

/-- To replace reflexive candidates by their bases changes no component. -/
theorem replaceSrflx_pairOk (hbase : ∀ c ∈ s.lcand, c.type = .srflx → s.baseOk c = true)
    (l : List Check) :
    (∀ c ∈ l, PairOk s.lcand s.rcand s.rcandCnt c.pair) →
      ∀ c ∈ (replaceSrflx s l).1, PairOk s.lcand s.rcand s.rcandCnt c.pair := by
  induction l with
  | nil => exact fun _ => nofun
  | cons c l ih =>
      intro hl
      have hc := hl c List.mem_cons_self
      have hrec := ih fun d hd => hl d (List.mem_cons_of_mem c hd)
      rw [replaceSrflx]
      split
      · rename_i htype
        cases hj : s.findBase (s.lcandOf c) with
        | none => exact hl
        | some j =>
            intro d hd
            rcases List.mem_cons.mp hd with hd | hd
            · have hmem : s.lcandOf c ∈ s.lcand := by
                have hlt : c.lcand < s.lcand.length := hc.fst_lt
                unfold Sess.lcandOf
                rw [List.getD_eq_getElem?_getD, List.getElem?_eq_getElem hlt]
                exact List.getElem_mem hlt
              have hb := findBase_spec hj (hbase _ hmem htype)
              rw [hd]
              exact ⟨hb.1, hc.snd_lt, hb.2.trans hc.comp⟩
            · exact hrec d hd
      · intro d hd
        rcases List.mem_cons.mp hd with hd | hd
        · rw [hd]
          exact hc
        · exact hrec d hd

theorem removeDuplicates_subset (s : Sess) (fuel : Nat) :
    ∀ l, ∀ c ∈ removeDuplicates s fuel l, c ∈ l := by
  induction fuel with
  | zero =>
      intro l c hc
      exact hc
  | succ fuel ih =>
      intro l
      cases l with
      | nil => exact fun c hc => hc
      | cons d l =>
          intro c hc
          rw [removeDuplicates] at hc
          rcases List.mem_cons.mp hc with hc | hc
          · rw [hc]
            exact List.mem_cons_self
          · exact List.mem_cons_of_mem d (List.mem_filter.mp (ih _ c hc)).1

/-- A session whose valid list is empty needs nothing but pairs of one component. -/
theorem compInv_of_nil (hcnt : s.rcandCnt ≤ s.rcand.length)
    (hclist : ∀ c ∈ s.clist, PairOk s.lcand s.rcand s.rcandCnt c.pair) (hvalid : s.validList = [])
    (hptr : PtrInv s) : CompInv s := by
  refine ⟨hcnt, fun p hp => ?_, by rw [hvalid]; nofun, fun _ => hvalid, hptr⟩
  rcases List.mem_map.mp hp with ⟨c, hc, hcp⟩
  rw [← hcp]
  exact hclist c hc

theorem compInv_pruned (hcnt : s.rcandCnt ≤ s.rcand.length)
    (hclist : ∀ c ∈ s.clist, PairOk s.lcand s.rcand s.rcandCnt c.pair) (hvalid : s.validList = [])
    (hptr : PtrInv s) (hbase : ∀ c ∈ s.lcand, c.type = .srflx → s.baseOk c = true) (highest : Nat) :
    CompInv (s.pruned highest) := by
  have hrep := replaceSrflx_pairOk hbase s.clist hclist
  unfold Sess.pruned
  dsimp only
  split
  · exact compInv_of_nil hcnt hrep hvalid (hptr.frame rfl rfl rfl)
  · exact compInv_of_nil hcnt (fun c hc => hrep c (removeDuplicates_subset s _ _ c hc)) hvalid
      ((hptr.takeComp highest).frame rfl rfl rfl)

theorem CompInv.createCheckList (h : CompInv s) (rcand : List Cand)
    (hok : lookupsOk s (.createCheckList rcand) = true) : CompInv (createCheckList s rcand) := by
  rw [lookupsOk, Bool.and_eq_true, List.isEmpty_iff, List.all_eq_true] at hok
  rcases hok with ⟨hempty, hbase⟩
  have hvalid : s.validList = [] := h.empty (by rw [hempty]; rfl)
  have hbase' : ∀ c ∈ s.lcand, c.type = .srflx → s.baseOk c = true := by
    intro c hc htype
    have hc' := hbase c hc
    rw [htype] at hc'
    exact hc'
  have hcnt : (s.saveRcand rcand).rcandCnt ≤ (s.saveRcand rcand).rcand.length := by
    unfold Sess.saveRcand
    rw [List.length_append]
    exact Nat.le_add_right _ _
  have hgen : ∀ c ∈ (s.saveRcand rcand).allPairs.1,
      PairOk s.lcand (s.saveRcand rcand).rcand (s.saveRcand rcand).rcandCnt c.pair := by
    intro c hc
    unfold Sess.allPairs at hc
    rw [show (s.saveRcand rcand).clist = [] from hempty] at hc
    exact generateChecks_pairOk _ c hc
  rw [createCheckList_eq]
  split
  · exact h
  · dsimp only
    split
    · exact compInv_of_nil hcnt hgen hvalid (h.ptr.frame rfl rfl rfl)
    · apply compInv_pruned
      · exact hcnt
      · exact fun c hc => hgen c ((mem_sortClist _ c).mp hc)
      · exact hvalid
      · exact h.ptr.frame rfl rfl rfl
      · exact hbase'

/-! ## Incoming requests -/

/-- The remote candidates are the same. -/
structure SameRcand (s s' : Sess) : Prop where
  rcand : s'.rcand = s.rcand
  rcandCnt : s'.rcandCnt = s.rcandCnt

theorem Performed.sameRcand (h : Performed s s') : SameRcand s s' := ⟨h.rcand, h.rcandCnt⟩

theorem SameRcand.trans {s'' : Sess} (h : SameRcand s s') (h' : SameRcand s' s'') :
    SameRcand s s'' :=
  ⟨h'.rcand.trans h.rcand, h'.rcandCnt.trans h.rcandCnt⟩

theorem CompInv.nominatePairs (h : CompInv s) (c : Check) (rcheck : RxCheck) :
    Holds (fun s' => CompInv s' ∧ SameRcand s s') AnyFault (nominatePairs s c rcheck) := by
  refine (nominatePairs_spec h.ptr c rcheck).mono fun s' hs' => ?_
  rcases hs'.eq with ⟨l, comp, heq⟩
  have hptr := hs'.ptr
  have hmem := hs'.mem
  rw [heq] at hptr hmem ⊢
  refine ⟨⟨h.cnt, h.clist, fun v hv => ?_, fun hnil => ?_, hptr⟩, rfl, rfl⟩
  · rcases hmem v hv with ⟨v0, hv0, hp, hst⟩
    rw [hp, hst]
    exact h.valid v0 hv0
  · refine List.eq_nil_iff_forall_not_mem.mpr fun v hv => ?_
    rcases hmem v hv with ⟨v0, hv0, _⟩
    rw [h.empty hnil] at hv0
    cases hv0

theorem CompInv.triggeredCheck (env : Env) (h : CompInv s) (i : Nat) (rcheck : RxCheck) :
    Holds (fun s' => CompInv s' ∧ SameRcand s s') AnyFault (triggeredCheck env s i rcheck) := by
  unfold Ice.triggeredCheck
  dsimp only
  have hmod : Touch s (s.modifyCheck i fun c =>
      { c with nominated := rcheck.useCandidate || c.nominated }) :=
    touch_modifyCheck s i fun _ => rfl
  have h1 := h.touch hmod
  have hsame := hmod.performed.sameRcand
  generalize s.modifyCheck i (fun c => { c with nominated := rcheck.useCandidate || c.nominated }) =
    s1 at h1 hsame ⊢
  have hperform : ∀ nominate, Holds (fun r => CompInv r.1 ∧ SameRcand s r.1) AnyFault
      (Ice.performCheck env s1 i nominate) := fun nominate =>
    (performed_performCheck env s1 i nominate).mono fun r hr =>
      ⟨h1.performed hr, hsame.trans hr.sameRcand⟩
  split
  · exact Holds.bind (hperform _) fun r hr => Holds.pure hr
  · exact Holds.bind (hperform _) fun r hr => Holds.pure hr
  · exact Holds.pure ⟨h1, hsame⟩
  · refine Holds.bind (h1.nominatePairs _ rcheck) fun s2 hs2 => ?_
    refine Holds.bind (touch_onCheckComplete s2 i) fun r hr => Holds.pure ⟨hs2.1.touch hr, ?_⟩
    exact hsame.trans (hs2.2.trans hr.performed.sameRcand)
  · exact Holds.pure ⟨h1, hsame⟩

/-- The lookups that were right before the request `r` are right after it, but for one with the
source address of `r` and another component. -/
def KeepsSources (r : RxCheck) (s s' : Sess) : Prop :=
  ∀ compId addr, s.sourceOk compId addr = true → (addr = r.srcAddr → compId = r.compId) →
    s'.sourceOk compId addr = true

theorem SameRcand.keepsSources (h : SameRcand s s') (r : RxCheck) : KeepsSources r s s' := by
  intro compId addr hok _
  unfold Sess.sourceOk Sess.findRcand at hok ⊢
  rw [h.rcand, h.rcandCnt]
  exact hok

theorem KeepsSources.sameRcand {r : RxCheck} {s'' : Sess} (h : KeepsSources r s s')
    (h' : SameRcand s' s'') : KeepsSources r s s'' :=
  fun compId addr hok hr => h'.keepsSources r compId addr (h compId addr hok hr) hr

theorem findRcand_addRcand (h : s.rcandCnt ≤ s.rcand.length) (cand : Cand) (addr : Addr) :
    (s.addRcand cand).findRcand addr =
      (s.findRcand addr).or (if cand.addr == addr then some s.rcandCnt else none) := by
  have hlen : (s.rcand.take s.rcandCnt).length = s.rcandCnt := by
    rw [List.length_take]
    omega
  unfold Sess.findRcand Sess.addRcand
  have htake : (s.rcand.take s.rcandCnt ++ [cand] ++ s.rcand.drop (s.rcandCnt + 1)).take
      (s.rcandCnt + 1) = s.rcand.take s.rcandCnt ++ [cand] := by
    apply List.take_left'
    rw [List.length_append, hlen]
    rfl
  rw [htake, List.findIdx?_append, hlen]
  cases hc : cand.addr == addr <;> simp [hc]

theorem keepsSources_addRcand (h : s.rcandCnt ≤ s.rcand.length) {r : RxCheck} {cand : Cand}
    (haddr : cand.addr = r.srcAddr) (hcomp : cand.compId = r.compId) :
    KeepsSources r s (s.addRcand cand) := by
  intro compId addr hok hr
  unfold Sess.sourceOk at hok ⊢
  rw [findRcand_addRcand h]
  cases hf : s.findRcand addr with
  | some j =>
      rw [hf] at hok
      have hj : j < s.rcandCnt := by
        have hlt := (List.findIdx?_eq_some_iff_getElem.mp hf).1
        rw [List.length_take] at hlt
        omega
      show ((s.addRcand cand).rcand.getD j default).compId == compId
      rw [getD_addRcand h cand hj]
      exact hok
  | none =>
      by_cases ha : cand.addr = addr
      · rw [ha, beq_self_eq_true, if_pos rfl]
        show ((s.addRcand cand).rcand.getD s.rcandCnt default).compId == compId
        rw [getD_addRcand_self h, beq_iff_eq, hcomp, hr (ha.symm.trans haddr)]
      · rw [beq_eq_false_iff_ne.mpr ha]
        rfl

/-- The remote candidate of a request is of the request's component. -/
theorem rcandFor_spec {env : Env} {r : RxCheck} {s1 : Sess} {j : Nat} (h : CompInv s)
    (hok : s.sourceOk r.compId r.srcAddr = true) (hr : rcandFor env s r = some (s1, j)) :
    CompInv s1 ∧ KeepsSources r s s1 ∧ j < s1.rcandCnt ∧
      (s1.rcand.getD j default).compId = r.compId := by
  unfold rcandFor at hr
  split at hr
  · rename_i i hi
    cases hr
    unfold Sess.sourceOk at hok
    rw [hi] at hok
    have hlt := (List.findIdx?_eq_some_iff_getElem.mp hi).1
    rw [List.length_take] at hlt
    exact ⟨h, SameRcand.keepsSources ⟨rfl, rfl⟩ r, by omega, beq_iff_eq.mp hok⟩
  · split at hr
    · cases hr
    · cases hr
      refine ⟨h.addRcand _, keepsSources_addRcand h.cnt rfl rfl, Nat.lt_succ_self _, ?_⟩
      rw [getD_addRcand_self h.cnt]

/-- The local candidate of a request is that of a check of its component. -/
theorem lcandFor_spec {r : RxCheck} {l : Nat} (h : CompInv s) (hl : s.lcandFor r = some l) :
    l < s.lcand.length ∧ (s.lcand.getD l default).compId = r.compId := by
  unfold Sess.lcandFor at hl
  rcases Option.map_eq_some_iff.mp hl with ⟨c, hc, hcl⟩
  have hp := List.find?_some hc
  rw [Bool.and_eq_true] at hp
  have hlt := (h.clist c.pair (List.mem_map_of_mem (List.mem_of_find?_eq_some hc))).fst_lt
  rw [← hcl]
  exact ⟨hlt, beq_iff_eq.mp hp.1⟩

/-- A pair of one component may be added to the checklist. -/
theorem CompInv.addCheck (h : CompInv s) {c : Check}
    (hc : PairOk s.lcand s.rcand s.rcandCnt c.pair) :
    CompInv { s with clist := s.clist ++ [c] } := by
  refine ⟨h.cnt, fun p hp => ?_, h.valid, fun hnil => ?_, h.ptr.frame rfl rfl rfl⟩
  · rw [List.map_append] at hp
    rcases List.mem_append.mp hp with hp | hp
    · exact h.clist p hp
    · rw [List.mem_singleton.mp hp]
      exact hc
  · rw [List.map_append] at hnil
    exact absurd (List.append_eq_nil_iff.mp hnil).2 (List.cons_ne_nil _ _)

theorem CompInv.handleIncomingCheck (env : Env) (h : CompInv s) (r : RxCheck)
    (hok : s.sourceOk r.compId r.srcAddr = true) :
    Holds (fun s' => CompInv s' ∧ KeepsSources r s s') AnyFault (handleIncomingCheck env s r) := by
  unfold Ice.handleIncomingCheck
  refine Holds.bind (holds_findComp s _) fun _ _ => ?_
  split
  · exact Holds.pure ⟨h, SameRcand.keepsSources ⟨rfl, rfl⟩ r⟩
  · rename_i s1 rcand hr
    rcases rcandFor_spec h hok hr with ⟨h1, hkeep, hlt, hrcomp⟩
    split
    · exact Holds.pure ⟨h1, hkeep⟩
    · rename_i lcand hl
      have hl := lcandFor_spec h1 hl
      split
      · exact (h1.triggeredCheck env _ r).mono fun s' hs' => ⟨hs'.1, hkeep.sameRcand hs'.2⟩
      · refine Holds.ite (fun _ => ?_) fun _ => Holds.pure ⟨h1, hkeep⟩
        dsimp only
        have h2 : CompInv { s1 with clist := s1.clist ++
            [s1.newCheck lcand rcand .waiting r.useCandidate] } :=
          h1.addCheck ⟨hl.1, hlt, hl.2.trans hrcomp.symm⟩
        refine Holds.bind (performed_performCheck env _ _ _) fun r' hr' =>
          Holds.pure ⟨h2.performed hr', hkeep.sameRcand ?_⟩
        exact ⟨hr'.rcand, hr'.rcandCnt⟩

theorem earlyOk_iff {l : List RxCheck} : s.earlyOk l = true ↔ ∀ r ∈ l,
    s.sourceOk r.compId r.srcAddr = true ∧ ∀ r' ∈ l, r.srcAddr = r'.srcAddr → r.compId = r'.compId := by
  unfold Sess.earlyOk
  simp only [List.all_eq_true, Bool.and_eq_true, Bool.or_eq_true, bne_iff_ne, beq_iff_eq, ne_eq,
    imp_iff_not_or]

theorem CompInv.earlyChecks (env : Env) (l : List RxCheck) :
    ∀ s, CompInv s → s.earlyOk l = true → Holds CompInv AnyFault (earlyChecks env l s) := by
  induction l with
  | nil => exact fun s h _ => h
  | cons r l ih =>
      intro s h hok
      rw [earlyOk_iff] at hok
      refine Holds.bind (h.handleIncomingCheck env r (hok r List.mem_cons_self).1) fun s' hs' => ?_
      refine ih s' hs'.1 (earlyOk_iff.mpr fun r1 hr1 => ?_)
      have h1 := hok r1 (List.mem_cons_of_mem r hr1)
      exact ⟨hs'.2 _ _ h1.1 (h1.2 r List.mem_cons_self),
        fun r2 hr2 => h1.2 r2 (List.mem_cons_of_mem r hr2)⟩

theorem map_pair_startWaiting (s : Sess) (compId : Nat) (l : List Check) :
    ∀ flist, (startWaiting s compId flist l).map Check.pair = l.map Check.pair := by
  induction l with
  | nil => exact fun _ => rfl
  | cons c l ih =>
      intro flist
      rw [startWaiting]
      split
      · rw [List.map_cons, ih, List.map_cons]
        split <;> rfl
      · rw [List.map_cons, ih, List.map_cons]

theorem CompInv.startCheck (env : Env) (h : CompInv s) (hok : s.earlyOk s.earlyCheck = true) :
    Holds CompInv AnyFault (startCheck env s) := by
  unfold Ice.startCheck
  refine Holds.ite (fun _ => h) fun _ => ?_
  dsimp only
  have hnom : Performed s (if s.aggressive then { s with isNominating := true } else s) := by
    split <;> exact ⟨rfl, rfl, rfl, rfl, rfl, rfl⟩
  have hearly : (if s.aggressive then { s with isNominating := true } else s).earlyCheck =
      s.earlyCheck := by
    split <;> rfl
  generalize (if s.aggressive then { s with isNominating := true } else s) = s1 at hnom hearly ⊢
  split
  · exact h.performed hnom
  · rename_i i _
    have hwait : Performed s { s1 with
        clist := s1.clist.take i ++ startWaiting s1 1 [] (s1.clist.drop i) } := by
      refine ⟨hnom.lcand, hnom.rcand, hnom.rcandCnt, hnom.validList, hnom.comp, ?_⟩
      rw [List.map_append, map_pair_startWaiting, ← List.map_append, List.take_append_drop]
      exact hnom.pairs
    refine Holds.bind (CompInv.earlyChecks env _ _ (h.performed hwait) ?_) fun s' hs' =>
      Holds.pure (hs'.performed ⟨rfl, rfl, rfl, rfl, rfl, rfl⟩)
    rw [hearly]
    rw [earlyOk_iff] at hok ⊢
    refine fun r hr => ⟨?_, (hok r hr).2⟩
    exact hwait.sameRcand.keepsSources r _ _ (hok r hr).1 fun _ => rfl

/-! ## Responses -/

theorem CompInv.failCheck (h : CompInv s) (ckid : Nat) (err : IceStatus) :
    Holds CompInv AnyFault (failCheck s ckid err) :=
  (touch_failCheck s ckid err).mono fun _ ht => h.touch ht

theorem CompInv.checkSucceeded (h : CompInv s) (ckid : Nat) {check : Check} {lcand : Nat}
    (hpair : PairOk s.lcand s.rcand s.rcandCnt (lcand, check.rcand))
    (hclist : s.clist ≠ []) (hstays : s.staysNominated check lcand = true) :
    Holds CompInv AnyFault (checkSucceeded s ckid check lcand) := by
  rw [checkSucceeded_eq]
  refine Holds.bind (validate_spec h.ptr hpair.fst_lt hstays) fun s1 hv => ?_
  have h1 : CompInv s1 := by
    rcases hv.eq with ⟨l, comp, heq⟩
    have hptr := hv.ptr
    have hmem := hv.mem
    rw [heq] at hptr hmem ⊢
    refine ⟨h.cnt, h.clist, fun v hvl => ?_, fun hnil => ?_, hptr⟩
    · rcases hmem v hvl with ⟨v0, hv0, hp, hst⟩ | ⟨hp, hst⟩
      · rw [hp, hst]
        exact h.valid v0 hv0
      · rw [hp]
        exact ⟨hpair, hst⟩
    · exact absurd (List.map_eq_nil_iff.mp hnil) hclist
  refine Holds.bind (touch_onCheckComplete _ ckid) fun r hr => Holds.pure ?_
  exact (h1.touch (touch_checkSetState _ ckid _ _)).touch hr

/-- The local candidate with the mapped address is of the component of the check. -/
theorem pairOk_lcandForMapped (env : Env) (h : CompInv s) {check : Check}
    (hcheck : check.pair ∈ s.clist.map Check.pair) (transportId : Nat) {mapped : Addr}
    (hok : s.mappedOk check mapped = true) {lcand : Nat}
    (hr : (lcandForMapped env s check transportId mapped).2 = .ok lcand) :
    let s' := (lcandForMapped env s check transportId mapped).1
    PairOk s'.lcand s'.rcand s'.rcandCnt (lcand, check.rcand) := by
  have hp := h.clist _ hcheck
  have hlt := lt_lcandForMapped env hr
  dsimp only
  unfold Sess.mappedOk at hok
  rcases lcandForMapped_cases env hr with ⟨hi, heq⟩ | ⟨heq, hl⟩
  · rw [hi, Bool.and_eq_true] at hok
    rw [heq] at hlt ⊢
    exact ⟨hlt, hp.snd_lt, (beq_iff_eq.mp hok.1).trans hp.comp⟩
  · rw [heq] at hlt ⊢
    refine ⟨hlt, hp.snd_lt, ?_⟩
    dsimp only
    rw [hl, List.getD_eq_getElem?_getD, List.getElem?_append_right (Nat.le_refl _), Nat.sub_self]
    exact hp.comp

theorem CompInv.lcandForMapped (env : Env) (h : CompInv s) (check : Check) (transportId : Nat)
    (mapped : Addr) : CompInv (lcandForMapped env s check transportId mapped).1 := by
  unfold Ice.lcandForMapped
  split
  · exact h
  · exact h.addCand _ _ _ _ _ _ _

theorem CompInv.onStunRequestComplete (env : Env) (h : CompInv s) {req : Request}
    {result : TsxResult}
    (hok : ∀ srcAddr mapped check, result = .response srcAddr (some mapped) →
      s.clist[req.ckid]? = some check → (s.rcandOf check).addr = srcAddr →
      s.mappedOk check mapped = true) :
    Holds CompInv AnyFault (onStunRequestComplete env s req result) := by
  have h1 := h.touch (touch_received s req)
  apply holds_onStunRequestComplete
  · intro check _
    have hrole : CompInv { s.received req with role := conflictRole req.roleAttr } :=
      h1.performed ⟨rfl, rfl, rfl, rfl, rfl, rfl⟩
    exact CompInv.performCheck env (hrole.touch (touch_checkSetState _ _ _ _)) _ _
  · exact fun err => h1.failCheck _ _
  · intro check mapped err _
    exact (h1.lcandForMapped env check req.transportId mapped).failCheck _ _
  · intro srcAddr mapped check lcand hr hcheck haddr hl
    rcases getElem?_received hcheck with ⟨check0, hcheck0, hceq⟩
    have hmapped : (s.received req).mappedOk check mapped = true := by
      rw [hceq] at haddr ⊢
      exact hok srcAddr mapped check0 hr hcheck0 haddr
    have hmem : check.pair ∈ (s.received req).clist.map Check.pair :=
      List.mem_map_of_mem (List.mem_of_getElem? hcheck)
    refine (h1.lcandForMapped env check req.transportId mapped).checkSucceeded _
      (pairOk_lcandForMapped env h1 hmem req.transportId hmapped hl) ?_
      (h1.ptr.staysNominated_lcandForMapped env hl fun j hj => ?_)
    · rw [lcandForMapped_clist]
      exact List.ne_nil_of_mem (List.mem_of_getElem? hcheck)
    · unfold Sess.mappedOk at hmapped
      rw [hj, Bool.and_eq_true] at hmapped
      exact hmapped.2

/-! ## Runs -/

theorem compInv_step (env : Env) (s : Sess) (op : Op) (h : CompInv s)
    (hok : lookupsOk s op = true) : Holds CompInv AnyFault (step env s op) := by
  cases op with
  | addCand compId transportId type localPref foundation addr baseAddr =>
      exact h.addCand _ _ _ _ _ _ _
  | createCheckList rcand => exact h.createCheckList rcand hok
  | startCheck => exact h.startCheck env hok
  | timer =>
      refine Holds.ite (fun _ => ?_) fun _ => h
      exact (touch_onTimer s).mono fun s' ht => h.touch ht
  | periodicTimer =>
      refine Holds.ite (fun _ => ?_) fun _ => h
      unfold startPeriodicCheck
      dsimp only
      have h1 : CompInv { s with clistTimer := { s.clistTimer.fired with id := 0 } } :=
        h.touch (touch_timer s _ _)
      split
      · exact h1
      · refine Holds.bind (h1.performCheck env _ _) fun r hr => Holds.pure ?_
        split
        · exact hr.touch (touch_timer r.1 _ _)
        · exact hr
  | rxRequest rq =>
      show Holds CompInv AnyFault (onStunRxRequest env s rq)
      unfold onStunRxRequest
      split
      · exact h
      · split
        · exact h.performed ⟨rfl, rfl, rfl, rfl, rfl, rfl⟩
        · rename_i _ priority _ _ role _
          refine Holds.ite (fun _ => h.performed ⟨rfl, rfl, rfl, rfl, rfl, rfl⟩) fun _ => ?_
          have h1 : CompInv { s with role := role } := h.performed ⟨rfl, rfl, rfl, rfl, rfl, rfl⟩
          exact (h1.handleIncomingCheck env ⟨rq.compId, rq.transportId, rq.srcAddr, rq.useCandidate,
            priority⟩ hok).mono fun s' hs' => hs'.1
  | response id result =>
      show Holds CompInv AnyFault (match s.pending.find? fun r => r.id == id with
        | none => _
        | some req => _)
      cases hfind : s.pending.find? fun r => r.id == id with
      | none => exact h
      | some req =>
          refine h.onStunRequestComplete env fun srcAddr mapped check hr hc haddr => ?_
          rw [hr, lookupsOk, hfind] at hok
          dsimp only at hok
          rw [hc] at hok
          simpa [haddr] using hok

/-- **Component consistency.** In a run in which every lookup of a candidate by its address finds
one of the right component, every reachable state is consistent. -/
theorem components_consistent (env : Env) (role : Role) (tb n : Nat) (aggressive wantNom : Bool)
    (ops : List Op)
    (hm : Meets (step env) (fun s op => lookupsOk s op = true)
      (sessCreate role tb n aggressive wantNom) ops) :
    Holds ComponentsConsistent AnyFault
      (run (step env) (sessCreate role tb n aggressive wantNom) ops) :=
  (run_holds (fun s op h hok => compInv_step env s op h hok) ops _
    (compInv_sessCreate role tb n aggressive wantNom) hm).mono fun _ h => h.consistent

/-- Two components with a check each; both checks are answered. -/
def answeredRun : List Op :=
  [.addCand 1 0 .host 65535 [72] ⟨false, 1, 4000⟩ ⟨false, 1, 4000⟩,
   .addCand 2 1 .host 65535 [72] ⟨false, 1, 4001⟩ ⟨false, 1, 4001⟩,
   .createCheckList [plainCand 1 5000, plainCand 2 5001], .startCheck, .periodicTimer, .periodicTimer,
   .response 0 (.response ⟨false, 1, 5000⟩ (some ⟨false, 1, 4000⟩)),
   .response 1 (.response ⟨false, 1, 5001⟩ (some ⟨false, 1, 4001⟩))]

theorem components_consistent_answered :
    ∃ s, run (step plainEnv) (sessCreate .controlling 5 2 true true) answeredRun = .ok s ∧
      s.validList.length = 2 ∧ ComponentsConsistent s := by
  have h : checkRun (step plainEnv) lookupsOk (fun s => s.validList.length == 2)
      (sessCreate .controlling 5 2 true true) answeredRun = true := by
    decide
  rcases checkRun_sound _ _ _ _ _ h with ⟨hm, s, hs, hp⟩
  have hcons := components_consistent plainEnv .controlling 5 2 true true answeredRun hm
  rw [hs] at hcons
  exact ⟨s, hs, beq_iff_eq.mp hp, hcons⟩

/-- A request of the first component from the address of a candidate of the second one. -/
def crossingRun : List Op :=
  [.addCand 1 0 .host 65535 [72] ⟨false, 1, 4000⟩ ⟨false, 1, 4000⟩,
   .addCand 2 1 .host 65535 [72] ⟨false, 1, 4001⟩ ⟨false, 1, 4001⟩,
   .createCheckList [plainCand 1 5000, plainCand 2 5001], .startCheck,
   .rxRequest ⟨7, 1, 0, ⟨false, 1, 5001⟩, some 100, false, none⟩]

theorem request_crosses_components :
    ∃ s, run (step plainEnv) (sessCreate .controlled 5 2 false true) crossingRun = .ok s ∧
      ¬ ComponentsConsistent s := by
  have h : checkRun (step plainEnv) (fun _ _ => true)
      (fun s => s.clist.any fun c => (s.lcandOf c).compId != (s.rcandOf c).compId)
      (sessCreate .controlled 5 2 false true) crossingRun = true := by
    decide
  rcases checkRun_sound _ _ _ _ _ h with ⟨-, s, hs, hp⟩
  rcases List.any_eq_true.mp hp with ⟨c, hc, hne⟩
  exact ⟨s, hs, fun hcons => absurd (hcons.clist c hc) (bne_iff_ne.mp hne)⟩

end Ice
