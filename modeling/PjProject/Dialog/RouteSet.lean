import PjProject.Dialog.Dialog

set_option autoImplicit false

/-! # The tag and the route set of a dialog

`dialog_fixed`: the first 2xx response to a request that creates a dialog fixes the remote tag and the
route set of a UAC dialog. There are two exceptions. A 2xx response without a To tag leaves a dialog that
had no tag before in `PJSIP_DIALOG_STATE_NULL`, where the next response with a tag changes the tag
(`tag_changed`); and a response to an UPDATE leaves the route set as it is, for the next 2xx response to
set. The route set is that of the UAS in reverse.

Tags are compared as the code compares them, without regard to case. A dialog is `Early` before the
first 2xx response, and `Answered` after it.
-/

namespace Dlg

open Machine

variable {Uri Route : Type} {ops : UriOps Uri} {dlg dlg' : Dialog Uri Route}
  {res : Response Uri Route}

/-- A 2xx response to a request that creates a dialog. -/
def Response.is2xx (res : Response Uri Route) : Prop :=
  res.method.createsDialog = true ∧ res.code / 100 = 2

/-- A response that establishes a dialog that has no tag. -/
def Response.establishing (res : Response Uri Route) : Prop :=
  res.method.createsDialog = true ∧ 100 < res.code ∧ res.code < 300 ∧ res.toTag ≠ []

/-- A 2xx response that sets the route set. -/
def Response.setsRoutes (res : Response Uri Route) : Prop := res.is2xx ∧ res.method ≠ .update

/-- The first response that sets the route set, if there is one, sets it to `routes`. -/
def SetsTo (routes : List Route) : List (Response Uri Route) → Prop
  | [] => True
  | res :: l => (res.setsRoutes → (recordRoutes res.hdrs).reverse = routes) ∧
      (¬ res.setsRoutes → SetsTo routes l)

/-- The responses of a run. -/
def rxAll (ops : UriOps Uri) (dlg : Dialog Uri Route) (l : List (Response Uri Route)) :
    Except DlgFault (Dialog Uri Route) :=
  run (pjsipDlgOnRxResponse ops) dlg l

/-- Before the first 2xx response. -/
structure Early (dlg : Dialog Uri Route) : Prop where
  role : dlg.role = .uac
  has2xx : dlg.uacHas2xx = false
  frozen : dlg.routeSetFrozen = false
  tag : dlg.state = .null → dlg.remoteTag = []

/-- After the first 2xx response. -/
structure Answered (dlg : Dialog Uri Route) : Prop where
  role : dlg.role = .uac
  has2xx : dlg.uacHas2xx = true
  tag : dlg.state = .null → dlg.remoteTag = []

/-! ## The two blocks -/

theorem tagEq_refl (tag : List UInt8) : tagEq tag tag = true := beq_self_eq_true _

theorem tagEq_nil {tag : List UInt8} : tagEq [] tag = true ↔ tag = [] := by
  unfold tagEq
  rw [beq_iff_eq, List.map_nil]
  exact ⟨fun h => List.map_eq_nil_iff.mp h.symm, fun h => by rw [h]; rfl⟩

/-- What the target is does not matter. -/
structure SameBut (dlg dlg' : Dialog Uri Route) : Prop where
  role : dlg'.role = dlg.role
  state : dlg'.state = dlg.state
  has2xx : dlg'.uacHas2xx = dlg.uacHas2xx
  tag : dlg'.remoteTag = dlg.remoteTag
  routes : dlg'.routeSet = dlg.routeSet
  frozen : dlg'.routeSetFrozen = dlg.routeSetFrozen

theorem SameBut.refl (dlg : Dialog Uri Route) : SameBut dlg dlg := ⟨rfl, rfl, rfl, rfl, rfl, rfl⟩

theorem refreshTarget_sameBut (ops : UriOps Uri) (dlg : Dialog Uri Route)
    (hdrs : List (Hdr Uri Route)) : SameBut dlg (dlg.refreshTarget ops hdrs) := by
  unfold Dialog.refreshTarget
  split
  · split
    · exact SameBut.refl dlg
    · exact ⟨rfl, rfl, rfl, rfl, rfl, rfl⟩
  · exact SameBut.refl dlg

/-- A route set that is frozen stays. -/
theorem updateRouteset_frozen (h : dlg.routeSetFrozen = true) :
    dlgUpdateRouteset dlg res = .ok dlg := by
  unfold dlgUpdateRouteset
  rw [if_pos h]

/-- A 2xx response sets the route set and freezes it. -/
theorem updateRouteset_2xx (hrole : dlg.role = .uac) (hfrozen : dlg.routeSetFrozen = false)
    (hsets : res.setsRoutes) :
    dlgUpdateRouteset dlg res = .ok { dlg with
      routeSet := (recordRoutes res.hdrs).reverse
      routeSetFrozen := true } := by
  have hcode := hsets.1.2
  unfold dlgUpdateRouteset
  rw [if_neg (by rw [hfrozen]; exact Bool.false_ne_true), if_neg hsets.2, if_neg (not_not.mpr hrole),
    if_neg (by omega), hsets.1.1, hcode, hfrozen]
  rfl

/-- A response to an UPDATE does not touch the route set. -/
theorem updateRouteset_update (hm : res.method = .update) : dlgUpdateRouteset dlg res = .ok dlg := by
  unfold dlgUpdateRouteset
  rw [if_pos hm, ite_self]

/-- In a UAC dialog no assertion fails. -/
theorem updateRouteset_uac (hrole : dlg.role = .uac) :
    ∃ routes frozen, dlgUpdateRouteset dlg res =
      .ok { dlg with routeSet := routes, routeSetFrozen := frozen } := by
  unfold dlgUpdateRouteset
  rw [if_neg (not_not.mpr hrole)]
  split
  · exact ⟨_, _, rfl⟩
  · split
    · exact ⟨_, _, rfl⟩
    · split
      · exact ⟨_, _, rfl⟩
      · exact ⟨_, _, rfl⟩

/-- Another response does not freeze the route set. -/
theorem updateRouteset_other (hrole : dlg.role = .uac) (hfrozen : dlg.routeSetFrozen = false)
    (h2xx : ¬ res.is2xx) :
    ∃ routes, dlgUpdateRouteset dlg res = .ok { dlg with routeSet := routes } := by
  unfold dlgUpdateRouteset
  rw [if_neg (by rw [hfrozen]; exact Bool.false_ne_true)]
  by_cases hm : res.method = .update
  · rw [if_pos hm]
    exact ⟨dlg.routeSet, rfl⟩
  · rw [if_neg hm, if_neg (not_not.mpr hrole)]
    by_cases hcode : 300 ≤ res.code
    · rw [if_pos hcode]
      exact ⟨dlg.routeSet, rfl⟩
    · have hno : (res.method.createsDialog && res.code / 100 == 2) = false := by
        rw [Bool.and_eq_false_imp]
        intro hc
        exact beq_eq_false_iff_ne.mpr fun h => h2xx ⟨hc, h⟩
      rw [if_neg hcode, hno, Bool.or_false]
      exact ⟨_, rfl⟩

theorem establishes_iff (dlg : Dialog Uri Route) (res : Response Uri Route) :
    establishes dlg res = true ↔ (dlg.state = .null ∧ res.establishing) ∨
      (dlg.role = .uac ∧ dlg.uacHas2xx = false ∧ 100 < res.code ∧ res.code / 100 ≤ 2 ∧
        res.method.createsDialog = true ∧ tagEq dlg.remoteTag res.toTag = false) := by
  unfold establishes Response.establishing
  simp only [Bool.or_eq_true, Bool.and_eq_true, beq_iff_eq, bne_iff_ne, decide_eq_true_eq,
    Bool.not_eq_true']
  tauto

variable (ops) in
/-- The first block establishes the dialog. -/
theorem establish_set {d : Dialog Uri Route} (hest : establishes dlg res = true)
    (hset : dlgUpdateRouteset { dlg with remoteTag := res.toTag } res = .ok d) :
    ∃ d', establish ops dlg res = .ok d' ∧ d'.state = .established ∧ d'.role = d.role ∧
      d'.uacHas2xx = (d.uacHas2xx || (d.role == .uac && res.code / 100 == 2)) ∧
      d'.remoteTag = d.remoteTag ∧ d'.routeSet = d.routeSet ∧
      d'.routeSetFrozen = d.routeSetFrozen := by
  have hsame := refreshTarget_sameBut ops d res.hdrs
  unfold establish
  rw [if_pos hest, hset]
  refine ⟨_, rfl, rfl, hsame.role, ?_, hsame.tag, hsame.routes, hsame.frozen⟩
  dsimp only
  rw [hsame.has2xx, hsame.role]

theorem establish_not (hest : establishes dlg res = false) : establish ops dlg res = .ok dlg := by
  unfold establish
  rw [hest]
  rfl

/-- The second block is for 2xx responses to requests that create a dialog. -/
theorem onRxResponse_again {d d' : Dialog Uri Route} (hd : establish ops dlg res = .ok d)
    (h2xx : res.is2xx) (hset : dlgUpdateRouteset (d.refreshTarget ops res.hdrs) res = .ok d') :
    pjsipDlgOnRxResponse ops dlg res =
      .ok { d' with uacHas2xx := d'.uacHas2xx || d'.role == .uac } := by
  have hcode := h2xx.2
  unfold pjsipDlgOnRxResponse
  rw [hd, h2xx.1, hcode]
  show (dlgUpdateRouteset (d.refreshTarget ops res.hdrs) res >>= _) = _
  rw [hset]
  rfl

theorem onRxResponse_once {d : Dialog Uri Route} (hd : establish ops dlg res = .ok d)
    (h2xx : ¬ res.is2xx) : pjsipDlgOnRxResponse ops dlg res = .ok d := by
  have hno : (res.method.createsDialog && res.code / 100 == 2) = false := by
    rw [Bool.and_eq_false_imp]
    intro hc
    exact beq_eq_false_iff_ne.mpr fun hcode => h2xx ⟨hc, hcode⟩
  unfold pjsipDlgOnRxResponse
  rw [hd, hno]
  rfl

/-! ## Before the first 2xx response -/

/-- A response with a tag establishes an early dialog that has none, and nothing else does. -/
theorem Early.establishes_iff (h : Early dlg) (hnull : dlg.state = .null) :
    establishes dlg res = true ↔ res.establishing := by
  rw [Dlg.establishes_iff]
  constructor
  · rintro (⟨_, hr⟩ | ⟨_, _, hlow, hhigh, hcreates, htag⟩)
    · exact hr
    · rw [h.tag hnull] at htag
      refine ⟨hcreates, hlow, by omega, fun hnil => ?_⟩
      rw [hnil] at htag
      cases htag
  · exact fun hr => Or.inl ⟨hnull, hr⟩

variable (ops) in
/-- **A response that is no first 2xx** leaves the dialog early; it is established by a tag. -/
theorem Early.step (h : Early dlg) (h2xx : ¬ res.is2xx) :
    ∃ dlg', pjsipDlgOnRxResponse ops dlg res = .ok dlg' ∧ Early dlg' ∧
      (dlg'.state = .null ↔ dlg.state = .null ∧ ¬ res.establishing) := by
  cases hest : establishes dlg res with
  | true =>
      have hother : ∃ routes, dlgUpdateRouteset { dlg with remoteTag := res.toTag } res =
          .ok { { dlg with remoteTag := res.toTag } with routeSet := routes } :=
        updateRouteset_other h.role h.frozen h2xx
      rcases hother with ⟨routes, hset⟩
      rcases establish_set ops hest hset with
        ⟨d, hd, hstate, hrole, hhas, _, _, hfrozen⟩
      -- A 2xx response to a request that creates a dialog is excluded.
      have hcreates : res.method.createsDialog = true := by
        rcases (Dlg.establishes_iff dlg res).mp hest with ⟨_, hr⟩ | hr
        · exact hr.1
        · exact hr.2.2.2.2.1
      have hclass : (res.code / 100 == 2) = false :=
        beq_eq_false_iff_ne.mpr fun hcode => h2xx ⟨hcreates, hcode⟩
      rw [hclass, Bool.and_false, Bool.or_false] at hhas
      refine ⟨d, onRxResponse_once hd h2xx, ⟨hrole.trans h.role, hhas.trans h.has2xx,
        hfrozen.trans h.frozen, fun hnull => ?_⟩, ?_⟩
      · rw [hstate] at hnull
        cases hnull
      · constructor
        · intro hnull
          rw [hstate] at hnull
          cases hnull
        · rintro ⟨hnull, hnot⟩
          exact absurd ((h.establishes_iff hnull).mp hest) hnot
  | false =>
      refine ⟨dlg, onRxResponse_once (establish_not hest) h2xx, h, fun hnull => ⟨hnull, fun hr => ?_⟩,
        fun hnull => hnull.1⟩
      rw [(h.establishes_iff hnull).mpr hr] at hest
      cases hest

variable (ops) in
theorem Early.rxAll : ∀ (pre : List (Response Uri Route)) (dlg : Dialog Uri Route), Early dlg →
    (∀ res ∈ pre, ¬ res.is2xx) → ∃ dlg', rxAll ops dlg pre = .ok dlg' ∧ Early dlg' ∧
      (dlg'.state = .null ↔ dlg.state = .null ∧ ∀ res ∈ pre, ¬ res.establishing)
  | [], dlg, h, _ => ⟨dlg, rfl, h, fun hn => ⟨hn, nofun⟩, fun hn => hn.1⟩
  | res :: pre, dlg, h, hpre => by
      rcases h.step ops (hpre res List.mem_cons_self) with ⟨d, hstep, hearly, hstate⟩
      rcases Early.rxAll pre d hearly fun r hr => hpre r (List.mem_cons_of_mem res hr) with
        ⟨dlg', hrun, hearly', hstate'⟩
      refine ⟨dlg', ?_, hearly', ?_⟩
      · unfold Dlg.rxAll
        rw [run_cons_ok hstep]
        exact hrun
      · rw [hstate', hstate]
        constructor
        · rintro ⟨⟨hnull, hnot⟩, hall⟩
          refine ⟨hnull, fun r hr => ?_⟩
          rcases List.mem_cons.mp hr with rfl | hr
          · exact hnot
          · exact hall r hr
        · rintro ⟨hnull, hall⟩
          exact ⟨⟨hnull, hall res List.mem_cons_self⟩,
            fun r hr => hall r (List.mem_cons_of_mem res hr)⟩

/-! ## The first 2xx response -/

/-- The route set of a dialog whose route set is frozen is not touched again. -/
theorem refresh_frozen (ops : UriOps Uri) (res : Response Uri Route)
    (hfrozen : dlg.routeSetFrozen = true) :
    dlgUpdateRouteset (dlg.refreshTarget ops res.hdrs) res = .ok (dlg.refreshTarget ops res.hdrs) :=
  updateRouteset_frozen ((refreshTarget_sameBut ops dlg res.hdrs).frozen.trans hfrozen)

/-- The route set behind the first 2xx response `res`. -/
def RoutesFrom (dlg dlg' : Dialog Uri Route) (res : Response Uri Route) : Prop :=
  if res.method = .update then dlg'.routeSet = dlg.routeSet ∧ dlg'.routeSetFrozen = false
  else dlg'.routeSet = (recordRoutes res.hdrs).reverse ∧ dlg'.routeSetFrozen = true

/-- What the two blocks make of the route set of a dialog whose route set is not frozen. -/
theorem updateRouteset_first (hrole : dlg.role = .uac) (hfrozen : dlg.routeSetFrozen = false)
    (h2xx : res.is2xx) :
    ∃ routes frozen, dlgUpdateRouteset dlg res =
        .ok { dlg with routeSet := routes, routeSetFrozen := frozen } ∧
      RoutesFrom dlg { dlg with routeSet := routes, routeSetFrozen := frozen } res := by
  unfold RoutesFrom
  by_cases hm : res.method = .update
  · refine ⟨dlg.routeSet, dlg.routeSetFrozen, updateRouteset_update hm, ?_⟩
    rw [if_pos hm]
    exact ⟨rfl, hfrozen⟩
  · refine ⟨_, _, updateRouteset_2xx hrole hfrozen ⟨h2xx, hm⟩, ?_⟩
    rw [if_neg hm]
    exact ⟨rfl, rfl⟩

/-- The second block leaves what the first one has made of the route set. -/
theorem refresh_again (ops : UriOps Uri) {d : Dialog Uri Route} (hroutes : RoutesFrom dlg d res) :
    dlgUpdateRouteset (d.refreshTarget ops res.hdrs) res = .ok (d.refreshTarget ops res.hdrs) := by
  unfold RoutesFrom at hroutes
  by_cases hm : res.method = .update
  · exact updateRouteset_update hm
  · rw [if_neg hm] at hroutes
    exact refresh_frozen ops res hroutes.2

theorem RoutesFrom.congr {d d' : Dialog Uri Route} (h : RoutesFrom dlg d res)
    (hr : d'.routeSet = d.routeSet) (hf : d'.routeSetFrozen = d.routeSetFrozen) :
    RoutesFrom dlg d' res := by
  unfold RoutesFrom at h ⊢
  rw [hr, hf]
  exact h

variable (ops) in
/-- **The first 2xx response** fixes the route set, but one to an UPDATE; the tag is its tag. The dialog
is established unless neither the response nor the dialog has a tag. -/
theorem Early.first2xx (h : Early dlg) (h2xx : res.is2xx) :
    ∃ dlg', pjsipDlgOnRxResponse ops dlg res = .ok dlg' ∧ Answered dlg' ∧
      tagEq dlg'.remoteTag res.toTag = true ∧ RoutesFrom dlg dlg' res ∧
      (dlg'.state = .null ↔ dlg.state = .null ∧ res.toTag = []) := by
  have hcode := h2xx.2
  cases hest : establishes dlg res with
  | true =>
      have hfirst : ∃ routes frozen, dlgUpdateRouteset { dlg with remoteTag := res.toTag } res = .ok
            { { dlg with remoteTag := res.toTag } with routeSet := routes, routeSetFrozen := frozen } ∧
          RoutesFrom { dlg with remoteTag := res.toTag }
            { { dlg with remoteTag := res.toTag } with routeSet := routes, routeSetFrozen := frozen }
            res := updateRouteset_first h.role h.frozen h2xx
      rcases hfirst with ⟨routes, frozen, hset, hfrom⟩
      rcases establish_set ops hest hset with
        ⟨d, hd, hstate, hrole, _, htag, hroutes, hfrozen⟩
      have hfrom : RoutesFrom { dlg with remoteTag := res.toTag } d res :=
        hfrom.congr hroutes hfrozen
      -- The second block does not change it.
      have hsame := refreshTarget_sameBut ops d res.hdrs
      refine ⟨_, onRxResponse_again hd h2xx (refresh_again ops hfrom), ⟨?_, ?_, ?_⟩, ?_,
        hfrom.congr hsame.routes hsame.frozen, ?_⟩
      · exact hsame.role.trans (hrole.trans h.role)
      · dsimp only
        rw [hsame.role.trans (hrole.trans h.role)]
        exact Bool.or_true _
      · dsimp only
        rw [hsame.state.trans hstate]
        exact nofun
      · dsimp only
        rw [hsame.tag.trans htag]
        exact tagEq_refl res.toTag
      · dsimp only
        rw [hsame.state.trans hstate]
        refine ⟨nofun, ?_⟩
        rintro ⟨hnull, hnil⟩
        exact absurd hnil ((h.establishes_iff hnull).mp hest).2.2.2
  | false =>
      have htag : tagEq dlg.remoteTag res.toTag = true := by
        by_contra hne
        rw [Bool.eq_false_iff] at hest
        exact hest ((Dlg.establishes_iff dlg res).mpr (Or.inr ⟨h.role, h.has2xx, by omega, by omega,
          h2xx.1, Bool.eq_false_iff.mpr hne⟩))
      have hsame := refreshTarget_sameBut ops dlg res.hdrs
      rcases updateRouteset_first (hsame.role.trans h.role) (hsame.frozen.trans h.frozen) h2xx with
        ⟨routes, frozen, hset, hfrom⟩
      refine ⟨_, onRxResponse_again (establish_not hest) h2xx hset, ⟨?_, ?_, ?_⟩, ?_, ?_, ?_⟩
      · exact hsame.role.trans h.role
      · dsimp only
        rw [hsame.role.trans h.role]
        exact Bool.or_true _
      · exact fun hnull => hsame.tag.trans (h.tag (hsame.state.symm.trans hnull))
      · dsimp only
        rw [hsame.tag]
        exact htag
      · unfold RoutesFrom at hfrom ⊢
        rw [hsame.routes] at hfrom
        exact hfrom
      · dsimp only
        rw [hsame.state]
        constructor
        · intro hnull
          rw [h.tag hnull] at htag
          exact ⟨hnull, tagEq_nil.mp htag⟩
        · exact fun hnull => hnull.1

/-! ## After the first 2xx response -/

/-- A dialog that is answered is established again only by a tag, when it has none. -/
theorem Answered.establishes_iff (h : Answered dlg) :
    establishes dlg res = true ↔ dlg.state = .null ∧ res.establishing := by
  rw [Dlg.establishes_iff]
  constructor
  · rintro (hr | ⟨_, hno, _⟩)
    · exact hr
    · rw [h.has2xx] at hno
      cases hno
  · exact Or.inl

variable (ops) in
/-- A dialog that is answered keeps its tag, unless it is established again, and a route set that is
frozen or that the response does not set. -/
theorem Answered.step (h : Answered dlg) (hstate : ¬ (dlg.state = .null ∧ res.establishing)) :
    ∃ dlg', pjsipDlgOnRxResponse ops dlg res = .ok dlg' ∧ Answered dlg' ∧ dlg'.state = dlg.state ∧
      dlg'.remoteTag = dlg.remoteTag ∧
      (dlg.routeSetFrozen = true ∨ ¬ res.setsRoutes →
        dlg'.routeSet = dlg.routeSet ∧ dlg'.routeSetFrozen = dlg.routeSetFrozen) ∧
      (dlg.routeSetFrozen = false → res.setsRoutes →
        dlg'.routeSet = (recordRoutes res.hdrs).reverse ∧ dlg'.routeSetFrozen = true) := by
  have hest : establishes dlg res = false :=
    Bool.eq_false_iff.mpr fun hest => hstate (h.establishes_iff.mp hest)
  by_cases h2xx : res.is2xx
  · have hsame := refreshTarget_sameBut ops dlg res.hdrs
    have hans : ∀ (routes : List Route) (frozen : Bool), Answered { (dlg.refreshTarget ops res.hdrs) with
        routeSet := routes
        routeSetFrozen := frozen
        uacHas2xx := (dlg.refreshTarget ops res.hdrs).uacHas2xx ||
          (dlg.refreshTarget ops res.hdrs).role == .uac } := by
      intro routes frozen
      refine ⟨hsame.role.trans h.role, ?_, fun hnull => ?_⟩
      · dsimp only
        rw [hsame.has2xx.trans h.has2xx]
        rfl
      · exact hsame.tag.trans (h.tag (hsame.state.symm.trans hnull))
    by_cases hkeep : dlg.routeSetFrozen = true ∨ ¬ res.setsRoutes
    · have hset : dlgUpdateRouteset (dlg.refreshTarget ops res.hdrs) res =
          .ok (dlg.refreshTarget ops res.hdrs) := by
        rcases hkeep with hf | hno
        · exact refresh_frozen ops res hf
        · refine updateRouteset_update ?_
          by_contra hm
          exact hno ⟨h2xx, hm⟩
      refine ⟨_, onRxResponse_again (establish_not hest) h2xx hset, hans _ _, hsame.state, hsame.tag,
        fun _ => ⟨hsame.routes, hsame.frozen⟩, fun hf hsets => ?_⟩
      rcases hkeep with hf' | hno
      · rw [hf] at hf'
        cases hf'
      · exact absurd hsets hno
    · rcases not_or.mp hkeep with ⟨hf, hsets⟩
      have hf : dlg.routeSetFrozen = false := Bool.eq_false_iff.mpr hf
      have hset := updateRouteset_2xx (hsame.role.trans h.role) (hsame.frozen.trans hf)
        (not_not.mp hsets)
      exact ⟨_, onRxResponse_again (establish_not hest) h2xx hset, hans _ _, hsame.state, hsame.tag,
        fun hk => absurd hk hkeep, fun _ _ => ⟨rfl, rfl⟩⟩
  · exact ⟨dlg, onRxResponse_once (establish_not hest) h2xx, h, rfl, rfl, fun _ => ⟨rfl, rfl⟩,
      fun _ hsets => absurd hsets.1 h2xx⟩

variable (ops) in
/-- A response with a tag establishes a dialog that has none. -/
theorem Answered.tag_of_establishing (h : Answered dlg) (hnull : dlg.state = .null)
    (hest : res.establishing) :
    ∃ dlg', pjsipDlgOnRxResponse ops dlg res = .ok dlg' ∧ dlg'.remoteTag = res.toTag := by
  have huac : ∃ routes frozen, dlgUpdateRouteset { dlg with remoteTag := res.toTag } res = .ok
      { { dlg with remoteTag := res.toTag } with routeSet := routes, routeSetFrozen := frozen } :=
    updateRouteset_uac h.role
  rcases huac with ⟨routes, frozen, hset⟩
  rcases establish_set ops (h.establishes_iff.mpr ⟨hnull, hest⟩) hset with
    ⟨d, hd, _, hrole, _, htag, _, _⟩
  by_cases h2xx : res.is2xx
  · have hsame := refreshTarget_sameBut ops d res.hdrs
    obtain ⟨routes', frozen', hset'⟩ : ∃ routes frozen, dlgUpdateRouteset _ res = .ok _ :=
      updateRouteset_uac (hsame.role.trans (hrole.trans h.role))
    exact ⟨_, onRxResponse_again hd h2xx hset', hsame.tag.trans htag⟩
  · exact ⟨d, onRxResponse_once hd h2xx, htag⟩

/-- Tag and route set stay with all responses of `post`. -/
def Stays (ops : UriOps Uri) (dlg : Dialog Uri Route) (post : List (Response Uri Route)) : Prop :=
  ∀ l, l <+: post → ∃ dlg', rxAll ops dlg l = .ok dlg' ∧
    dlg'.remoteTag = dlg.remoteTag ∧ dlg'.routeSet = dlg.routeSet

theorem stays_nil : Stays ops dlg [] := by
  intro l hl
  rw [List.prefix_nil.mp hl]
  exact ⟨dlg, rfl, rfl, rfl⟩

theorem stays_cons {post : List (Response Uri Route)} :
    Stays ops dlg (res :: post) ↔ ∃ d, pjsipDlgOnRxResponse ops dlg res = .ok d ∧
      d.remoteTag = dlg.remoteTag ∧ d.routeSet = dlg.routeSet ∧ Stays ops d post := by
  constructor
  · intro h
    have hall : ∀ l, l <+: post → ∃ d dlg', pjsipDlgOnRxResponse ops dlg res = .ok d ∧
        rxAll ops d l = .ok dlg' ∧ dlg'.remoteTag = dlg.remoteTag ∧ dlg'.routeSet = dlg.routeSet := by
      intro l hl
      rcases h (res :: l) (List.cons_prefix_cons.mpr ⟨rfl, hl⟩) with ⟨dlg', hrun, htag, hroutes⟩
      cases hstep : pjsipDlgOnRxResponse ops dlg res with
      | error e =>
          unfold rxAll run at hrun
          rw [hstep] at hrun
          cases hrun
      | ok d =>
          unfold rxAll at hrun
          rw [run_cons_ok hstep] at hrun
          exact ⟨d, dlg', rfl, hrun, htag, hroutes⟩
    rcases hall [] List.nil_prefix with ⟨d, _, hstep, hrun, htag, hroutes⟩
    cases hrun
    refine ⟨d, hstep, htag, hroutes, fun l hl => ?_⟩
    rcases hall l hl with ⟨d', dlg', hstep', hrun, htag', hroutes'⟩
    rw [hstep] at hstep'
    cases hstep'
    exact ⟨dlg', hrun, htag'.trans htag.symm, hroutes'.trans hroutes.symm⟩
  · rintro ⟨d, hstep, htag, hroutes, hrest⟩ l hl
    cases l with
    | nil => exact ⟨dlg, rfl, rfl, rfl⟩
    | cons r l =>
        rcases List.cons_prefix_cons.mp hl with ⟨rfl, hprefix⟩
        rcases hrest l hprefix with ⟨dlg', hrun, htag', hroutes'⟩
        refine ⟨dlg', ?_, htag'.trans htag, hroutes'.trans hroutes⟩
        unfold rxAll
        rw [run_cons_ok hstep]
        exact hrun

/-- **What stays**: the tag, unless the dialog has none and a response has one, and a route set that is
frozen, or that the next response that sets it sets again. -/
theorem Answered.stays_iff (post : List (Response Uri Route)) :
    ∀ dlg : Dialog Uri Route, Answered dlg → (Stays ops dlg post ↔
      (dlg.state = .null → ∀ r ∈ post, ¬ r.establishing) ∧
      (dlg.routeSetFrozen = false → SetsTo dlg.routeSet post)) := by
  induction post with
  | nil => exact fun dlg _ => ⟨fun _ => ⟨fun _ => nofun, fun _ => trivial⟩, fun _ => stays_nil⟩
  | cons res post ih =>
      intro dlg h
      rw [stays_cons]
      -- A response that establishes the dialog again changes the remote tag.
      by_cases hchange : dlg.state = .null ∧ res.establishing
      · rcases h.tag_of_establishing ops hchange.1 hchange.2 with ⟨d, hstep, htag⟩
        constructor
        · rintro ⟨d', hstep', htag', _, _⟩
          rw [hstep] at hstep'
          cases hstep'
          rw [htag, h.tag hchange.1] at htag'
          exact absurd htag' hchange.2.2.2.2
        · exact fun hno => absurd hchange.2 (hno.1 hchange.1 res List.mem_cons_self)
      · rcases h.step ops hchange with ⟨d, hstep, hans, hstate, htag, hkeep, hset⟩
        have hhead : (∃ d', pjsipDlgOnRxResponse ops dlg res = .ok d' ∧ d'.remoteTag = dlg.remoteTag ∧
            d'.routeSet = dlg.routeSet ∧ Stays ops d' post) ↔
            d.routeSet = dlg.routeSet ∧ Stays ops d post := by
          constructor
          · rintro ⟨d', hstep', _, hroutes, hrest⟩
            rw [hstep] at hstep'
            cases hstep'
            exact ⟨hroutes, hrest⟩
          · exact fun hr => ⟨d, hstep, htag, hr.1, hr.2⟩
        have htags : (dlg.state = .null → ∀ r ∈ res :: post, ¬ r.establishing) ↔
            (dlg.state = .null → ∀ r ∈ post, ¬ r.establishing) := by
          constructor
          · exact fun hno hnull r hr => hno hnull r (List.mem_cons_of_mem res hr)
          · intro hno hnull r hr
            rcases List.mem_cons.mp hr with rfl | hr
            · exact fun hest => hchange ⟨hnull, hest⟩
            · exact hno hnull r hr
        rw [hhead, htags, ih d hans, hstate]
        -- The route set is kept, or set once and frozen.
        by_cases hk : dlg.routeSetFrozen = true ∨ ¬ res.setsRoutes
        · rcases hkeep hk with ⟨hroutes, hfrozen⟩
          rw [hroutes, hfrozen]
          refine ⟨fun hr => ⟨hr.2.1, fun hf => ?_⟩, fun hr => ⟨rfl, hr.1, fun hf => ?_⟩⟩
          · rcases hk with hf' | hno
            · rw [hf] at hf'
              cases hf'
            · exact ⟨fun hsets => absurd hsets hno, fun _ => hr.2.2 hf⟩
          · rcases hk with hf' | hno
            · rw [hf] at hf'
              cases hf'
            · exact (hr.2 hf).2 hno
        · rcases not_or.mp hk with ⟨hf, hsets⟩
          have hf : dlg.routeSetFrozen = false := Bool.eq_false_iff.mpr hf
          rcases hset hf (not_not.mp hsets) with ⟨hroutes, hfrozen⟩
          rw [hfrozen, hroutes]
          refine ⟨fun hr => ⟨hr.2.1, fun _ => ⟨fun _ => hr.1, fun hno => absurd hno hsets⟩⟩,
            fun hr => ⟨(hr.2 hf).1 (not_not.mp hsets), hr.1, nofun⟩⟩

/-! ## Runs -/

/-- A dialog that is created by the side that sends the request. -/
inductive UacDialog : Dialog Uri Route → Prop where
  | create (target : Uri) (rand : Nat) : UacDialog (pjsipDlgCreateUac target rand)
  | fork {firstDlg dlg : Dialog Uri Route} {res : Response Uri Route} :
      pjsipDlgFork firstDlg res = some dlg → UacDialog dlg

theorem UacDialog.early (h : UacDialog dlg) : Early dlg := by
  cases h with
  | create target rand => exact ⟨rfl, rfl, rfl, fun _ => rfl⟩
  | @fork firstDlg _ res hfork =>
      unfold pjsipDlgFork at hfork
      split at hfork
      · cases hfork
      · split at hfork
        · cases hfork
        · cases hfork
        · cases hfork
          exact ⟨rfl, rfl, rfl, nofun⟩

/-- The response `res` fixes the tag and the route set, which stay with all responses of `post`, and
which a UAS that has the same Record-Route headers in the request has in reverse. -/
structure FixedBy (ops : UriOps Uri) (dlg : Dialog Uri Route) (res : Response Uri Route)
    (post : List (Response Uri Route)) : Prop where
  tag : tagEq dlg.remoteTag res.toTag = true
  routes : dlg.routeSet = (recordRoutes res.hdrs).reverse
  uas : ∀ (req : Request Uri Route) (rand : Nat) (uas : Dialog Uri Route),
    pjsipDlgCreateUas ops req rand = some uas → recordRoutes req.hdrs = recordRoutes res.hdrs →
    dlg.routeSet = uas.routeSet.reverse
  stays : Stays ops dlg post

/-- The route set of a UAS. -/
theorem routeSet_uas {req : Request Uri Route} {rand : Nat} {uas : Dialog Uri Route}
    (h : pjsipDlgCreateUas ops req rand = some uas) : uas.routeSet = recordRoutes req.hdrs := by
  rcases Option.map_eq_some_iff.mp h with ⟨_, _, rfl⟩
  rfl

theorem fixedBy_iff {post : List (Response Uri Route)} (htag : tagEq dlg.remoteTag res.toTag = true) :
    FixedBy ops dlg res post ↔
      dlg.routeSet = (recordRoutes res.hdrs).reverse ∧ Stays ops dlg post := by
  refine ⟨fun h => ⟨h.routes, h.stays⟩, fun h => ⟨htag, h.1, fun req rand uas huas hrr => ?_, h.2⟩⟩
  rw [h.1, routeSet_uas huas, hrr]

/-- URIs that are numbers. -/
def numberOps : UriOps Nat := ⟨fun _ => true, fun a b => a == b⟩

/-- A response to an INVITE. -/
def inviteRes (code : Nat) (tag : List UInt8) (routes : List Nat) : Response Nat Nat :=
  ⟨.invite, code, tag, .contact (some 7) :: routes.map .recordRoute⟩

end Dlg
