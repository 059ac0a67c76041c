import PjProject.Library.Outcome
import PjProject.Sdp.Session

set_option autoImplicit false

/-! # Session timers in a response

`pjsip_timer_update_resp` of `pjsip-ua/sip_timer.c` adds `Session-Expires` to a 2xx response, and the tag `timer` to
its `Require` header if the caller refreshes. The tags that are there are compared with `pj_stricmp`, which is
0 for equal ones, so that the tag is taken to be listed when another one is (`updateResp_listed_iff`).
-/

namespace SessTimer

open Outcome
open Sdp (Str str stricmpEq)

/-! ## Data -/

/-- `enum timer_refresher`. -/
inductive Refresher where
  | unknown
  | uac
  | uas
  deriving DecidableEq

/-- `pjsip_timer`, with its setting. -/
structure Timer where
  active : Bool
  sessExpires : Nat
  minSe : Nat
  refresher : Refresher
  deriving DecidableEq

/-- What is read of a `pjsip_inv_session`: `PJSIP_INV_SUPPORT_TIMER` of its options, and its timer. -/
structure InvSession where
  supportTimer : Bool
  timer : Option Timer
  deriving DecidableEq

/-- A header; one that is not looked at is known by a number. -/
inductive Hdr where
  | require (values : List Str)
  | sessExpires (sessExpires : Nat) (refresher : Str)
  | minSe (minSe : Nat)
  | other (hdr : Nat)
  deriving DecidableEq

/-- A response. -/
structure Msg where
  code : Nat
  hdrs : List Hdr
  deriving DecidableEq

inductive Fault where
  /-- `inv->timer` is read, and there is none. -/
  | noTimer
  /-- A tag is written behind the `values` of a header. -/
  | outOfBounds
  deriving DecidableEq

/-- `PJSIP_GENERIC_ARRAY_MAX_COUNT`. -/
def genericArrayMaxCount : Nat := 32

def strUac : Str := str ['u', 'a', 'c']

def strUas : Str := str ['u', 'a', 's']

def strTimer : Str := str ['t', 'i', 'm', 'e', 'r']

/-! ## The response -/

/-- The `refresher` of the new header. -/
def refresherName : Refresher → Str
  | .unknown => []
  | .uac => strUac
  | .uas => strUas

/-- `add_timer_headers`. -/
def addTimerHeaders (timer : Timer) (hdrs : List Hdr) (addSe addMinSe : Bool) : List Hdr :=
  hdrs ++ (if addSe then [.sessExpires timer.sessExpires (refresherName timer.refresher)] else []) ++
    if addMinSe then [.minSe timer.minSe] else []

/-- `pjsip_msg_find_hdr` for `PJSIP_H_REQUIRE`: the tags of the first such header. -/
def findRequire : List Hdr → Option (List Str)
  | [] => none
  | .require values :: _ => some values
  | _ :: hdrs => findRequire hdrs

/-- `req_hdr->values[req_hdr->count++] = STR_TIMER`, in the first such header. -/
def pushTimer : List Hdr → Except Fault (List Hdr)
  | [] => .ok []
  | .require values :: hdrs =>
      if values.length < genericArrayMaxCount then .ok (.require (values ++ [strTimer]) :: hdrs)
      else .error .outOfBounds
  | h :: hdrs => do
      let hdrs ← pushTimer hdrs
      .ok (h :: hdrs)

/-- The tag for a caller that refreshes. -/
def requireTimer (hdrs : List Hdr) : Except Fault (List Hdr) :=
  match findRequire hdrs with
  | none => pushTimer (hdrs ++ [.require []])
  | some values =>
      -- `pj_stricmp` is not 0
      let reqHdrHasTimer := values.any fun value => !stricmpEq value strTimer
      if reqHdrHasTimer then .ok hdrs else pushTimer hdrs

/-- `pjsip_timer_update_resp`. -/
def updateResp (inv : InvSession) (msg : Msg) : Except Fault Msg :=
  if !inv.supportTimer then .ok msg
  else if msg.code / 100 = 2 then
    match inv.timer with
    | none => .ok msg
    | some timer =>
        if timer.active then do
          let hdrs := addTimerHeaders timer msg.hdrs true false
          let hdrs ← if timer.refresher = .uac then requireTimer hdrs else .ok hdrs
          .ok { msg with hdrs := hdrs }
        else .ok msg
  else if msg.code = 422 then
    match inv.timer with
    | none => .error .noTimer
    | some timer => .ok { msg with hdrs := addTimerHeaders timer msg.hdrs false true }
  else .ok msg

/-! ## What is listed -/

/-- A tag that is `timer`, in any case. -/
abbrev IsTimer (tag : Str) : Prop := stricmpEq tag strTimer = true

/-- The tags of a header. -/
def Hdr.tags : Hdr → List Str
  | .require values => values
  | _ => []

/-- The required tags of a message. -/
def tags (hdrs : List Hdr) : List Str := hdrs.flatMap Hdr.tags

/-- `Session-Expires`, with the refresher. -/
def Hdr.expiry : Hdr → Option (Nat × Str)
  | .sessExpires delta refresher => some (delta, refresher)
  | _ => none

/-- The `Session-Expires` of a message. -/
def expiries (hdrs : List Hdr) : List (Nat × Str) := hdrs.filterMap Hdr.expiry

/-- The response to a request of the session `timer`: `timer` is required once of a caller that refreshes, every other
tag is what it was, and one `Session-Expires` is added. -/
structure Listed (timer : Timer) (msg msg' : Msg) : Prop where
  once : timer.refresher = .uac → (tags msg'.hdrs).countP (fun tag => IsTimer tag) = 1
  kept : (tags msg'.hdrs).filter (fun tag => ¬ IsTimer tag) =
    (tags msg.hdrs).filter fun tag => ¬ IsTimer tag
  expires : expiries msg'.hdrs =
    expiries msg.hdrs ++ [(timer.sessExpires, refresherName timer.refresher)]

/-- No `Require`; or an empty one, and no `timer` in another; or one with another tag, and one `timer`. -/
def Unmistaken (hdrs : List Hdr) : Prop :=
  ∀ values, findRequire hdrs = some values →
    (values = [] ∧ (tags hdrs).countP (fun tag => IsTimer tag) = 0) ∨
      ((∃ tag ∈ values, ¬ IsTimer tag) ∧ (tags hdrs).countP (fun tag => IsTimer tag) = 1)

variable {h : Hdr} {hdrs : List Hdr} {values : List Str} {timer : Timer} {inv : InvSession} {msg : Msg}

theorem stricmpEq_strTimer : stricmpEq strTimer strTimer = true := by decide

/-- A header is `Require`, or it is passed over and has no tags. -/
theorem hdr_cases (h : Hdr) : (∃ values, h = .require values) ∨ (h.tags = [] ∧
    (∀ hdrs, findRequire (h :: hdrs) = findRequire hdrs) ∧
    ∀ hdrs, pushTimer (h :: hdrs) = pushTimer hdrs >>= fun hdrs => .ok (h :: hdrs)) := by
  cases h with
  | require values => exact .inl ⟨values, rfl⟩
  | _ => exact .inr ⟨rfl, fun _ => rfl, fun _ => rfl⟩

theorem tags_cons (h : Hdr) (hdrs : List Hdr) : tags (h :: hdrs) = h.tags ++ tags hdrs := rfl

/-- Without the header there is no tag. -/
theorem tags_of_findRequire_none : findRequire hdrs = none → tags hdrs = [] := by
  induction hdrs with
  | nil => exact fun _ => rfl
  | cons h hdrs ih =>
      rcases hdr_cases h with ⟨values, rfl⟩ | ⟨htags, hfind, -⟩
      · exact nofun
      · rw [hfind, tags_cons, htags]
        exact ih

/-- The tags of the first header are in front of all others. -/
theorem tags_of_findRequire : findRequire hdrs = some values → ∃ rest, tags hdrs = values ++ rest := by
  induction hdrs with
  | nil => exact nofun
  | cons h hdrs ih =>
      rcases hdr_cases h with ⟨values', rfl⟩ | ⟨htags, hfind, -⟩
      · rintro ⟨⟩
        exact ⟨tags hdrs, rfl⟩
      · rw [hfind, tags_cons, htags]
        exact ih

theorem findRequire_mem : findRequire hdrs = some values → .require values ∈ hdrs := by
  induction hdrs with
  | nil => exact nofun
  | cons h hdrs ih =>
      rcases hdr_cases h with ⟨values', rfl⟩ | ⟨-, hfind, -⟩
      · rintro ⟨⟩
        exact List.mem_cons_self
      · rw [hfind]
        exact fun hrest => List.mem_cons_of_mem _ (ih hrest)

/-- A header behind the others is looked at last. -/
theorem findRequire_append (hdrs more : List Hdr) :
    findRequire (hdrs ++ more) = (findRequire hdrs).or (findRequire more) := by
  induction hdrs with
  | nil => rfl
  | cons h hdrs ih =>
      rcases hdr_cases h with ⟨values, rfl⟩ | ⟨-, hfind, -⟩
      · rfl
      · rw [List.cons_append, hfind, hfind, ih]

/-- What is pushed to a header that has room is behind its tags. -/
theorem pushTimer_ok {rest : List Str} : findRequire hdrs = some values →
    values.length < genericArrayMaxCount → tags hdrs = values ++ rest →
    ∃ hdrs', pushTimer hdrs = .ok hdrs' ∧ tags hdrs' = values ++ strTimer :: rest ∧
      expiries hdrs' = expiries hdrs := by
  induction hdrs with
  | nil => exact nofun
  | cons h hdrs ih =>
      intro hfirst hroom htags
      rcases hdr_cases h with ⟨values', rfl⟩ | ⟨hnil, hfind, hpush⟩
      · cases hfirst
        have hrest : tags hdrs = rest := List.append_cancel_left htags
        refine ⟨.require (values ++ [strTimer]) :: hdrs, if_pos hroom, ?_, rfl⟩
        rw [tags_cons, hrest]
        simp [Hdr.tags]
      · rw [hfind] at hfirst
        rw [tags_cons, hnil] at htags
        rcases ih hfirst hroom htags with ⟨hdrs', hok, htags', hexp⟩
        refine ⟨h :: hdrs', ?_, ?_, ?_⟩
        · rw [hpush, hok]
          rfl
        · rw [tags_cons, hnil]
          exact htags'
        · simp only [expiries, List.filterMap_cons] at hexp ⊢
          rw [hexp]

/-- The number of the `timer`s behind those of the first header. -/
theorem countP_insert (rest : List Str) :
    (values ++ strTimer :: rest).countP (fun tag => IsTimer tag) =
      (values ++ rest).countP (fun tag => IsTimer tag) + 1 := by
  simp [List.countP_append, stricmpEq_strTimer]
  omega

theorem filter_insert (rest : List Str) :
    (values ++ strTimer :: rest).filter (fun tag => ¬ IsTimer tag) =
      (values ++ rest).filter fun tag => ¬ IsTimer tag := by
  simp [List.filter_append, stricmpEq_strTimer]

/-- **The tag**: the other tags are kept, and `timer` is listed once if the headers are not mistaken. -/
theorem requireTimer_spec (hroom : ∀ values, findRequire hdrs = some values → values.length < 32) :
    ∃ hdrs', requireTimer hdrs = .ok hdrs' ∧ expiries hdrs' = expiries hdrs ∧
      (tags hdrs').filter (fun tag => ¬ IsTimer tag) = (tags hdrs).filter (fun tag => ¬ IsTimer tag) ∧
      ((tags hdrs').countP (fun tag => IsTimer tag) = 1 ↔ Unmistaken hdrs) := by
  cases hfirst : findRequire hdrs with
  | none =>
      have htags := tags_of_findRequire_none hfirst
      have hempty : findRequire (hdrs ++ [.require []]) = some [] := by
        rw [findRequire_append, hfirst]
        rfl
      have hnone : tags (hdrs ++ [.require []]) = [] ++ [] := by
        simp only [tags, List.flatMap_append] at htags ⊢
        rw [htags]
        rfl
      rcases pushTimer_ok hempty (by decide) hnone with ⟨hdrs', hpush, htags', hexp⟩
      refine ⟨hdrs', by rw [requireTimer, hfirst]; exact hpush, ?_, ?_, ?_⟩
      · rw [hexp]
        simp [expiries, Hdr.expiry]
      · rw [htags', htags, filter_insert]
        rfl
      · rw [htags', countP_insert]
        exact iff_of_true rfl fun values h => by rw [hfirst] at h; cases h
  | some values =>
      rcases tags_of_findRequire hfirst with ⟨rest, htags⟩
      have hmistaken : Unmistaken hdrs ↔
          (values = [] ∧ (tags hdrs).countP (fun tag => IsTimer tag) = 0) ∨
            ((∃ tag ∈ values, ¬ IsTimer tag) ∧ (tags hdrs).countP (fun tag => IsTimer tag) = 1) := by
        unfold Unmistaken
        rw [hfirst]
        simp
      by_cases hother : ∃ tag ∈ values, ¬ IsTimer tag
      · -- another tag is taken for `timer`
        have hany : (values.any fun value => !stricmpEq value strTimer) = true := by
          simpa using hother
        refine ⟨hdrs, by rw [requireTimer, hfirst]; simp [hany], rfl, rfl, ?_⟩
        rw [hmistaken]
        constructor
        · exact fun h => .inr ⟨hother, h⟩
        · rintro (⟨rfl, -⟩ | ⟨-, h⟩)
          · rcases hother with ⟨tag, hmem, -⟩
            cases hmem
          · exact h
      · -- only `timer`s: there is one more
        have hany : (values.any fun value => !stricmpEq value strTimer) = false := by
          simpa using hother
        rcases pushTimer_ok hfirst (hroom values hfirst) htags with ⟨hdrs', hpush, htags', hexp⟩
        refine ⟨hdrs', by rw [requireTimer, hfirst]; simp [hany, hpush], hexp, ?_, ?_⟩
        · rw [htags', filter_insert, htags]
        · rw [htags', countP_insert, hmistaken, htags]
          constructor
          · intro h
            refine .inl ⟨?_, by omega⟩
            by_contra hne
            obtain ⟨tag, values', rfl⟩ := List.exists_cons_of_ne_nil hne
            have htag : IsTimer tag := by
              by_contra hnot
              exact hother ⟨tag, List.mem_cons_self, hnot⟩
            simp [htag] at h
          · rintro (⟨-, h⟩ | ⟨h, -⟩)
            · omega
            · exact absurd h hother

/-- **Session timers in a 2xx response**: what the response has to list is listed exactly if the caller does not
refresh, or its headers are not mistaken. -/
theorem updateResp_listed_iff (hcode : msg.code / 100 = 2) (hsupport : inv.supportTimer = true)
    (htimer : inv.timer = some timer) (hactive : timer.active = true)
    (hroom : ∀ values, .require values ∈ msg.hdrs → values.length ≤ genericArrayMaxCount - 1) :
    (∃ msg', updateResp inv msg = .ok msg' ∧ Listed timer msg msg') ↔
      (timer.refresher = .uac → Unmistaken msg.hdrs) := by
  -- the new header is no `Require`
  obtain ⟨hdrs, hhdrs⟩ : ∃ hdrs, hdrs = addTimerHeaders timer msg.hdrs true false := ⟨_, rfl⟩
  have htags : tags hdrs = tags msg.hdrs := by simp [hhdrs, addTimerHeaders, tags, Hdr.tags]
  have hfind : findRequire hdrs = findRequire msg.hdrs := by
    simp [hhdrs, addTimerHeaders, findRequire_append, findRequire]
  have hexp : expiries hdrs =
      expiries msg.hdrs ++ [(timer.sessExpires, refresherName timer.refresher)] := by
    simp [hhdrs, addTimerHeaders, expiries, Hdr.expiry]
  have hmistaken : Unmistaken hdrs ↔ Unmistaken msg.hdrs := by
    unfold Unmistaken
    rw [hfind, htags]
  have hupdate : updateResp inv msg = (do
      let hdrs ← if timer.refresher = .uac then requireTimer hdrs else .ok hdrs
      .ok { msg with hdrs := hdrs }) := by
    rw [updateResp, hsupport, htimer, hhdrs]
    simp [hcode, hactive]
  rw [hupdate]
  by_cases huac : timer.refresher = .uac
  · have hlt : ∀ values, findRequire hdrs = some values → values.length < 32 := by
      intro values hvalues
      have hle := hroom values (findRequire_mem (hfind ▸ hvalues))
      rw [genericArrayMaxCount] at hle
      omega
    rcases requireTimer_spec hlt with ⟨hdrs', hok, hexp', hkept, honce⟩
    rw [if_pos huac, hok, ok_bind]
    constructor
    · rintro ⟨_, ⟨⟩, h⟩ -
      exact hmistaken.mp (honce.mp (h.once huac))
    · intro h
      refine ⟨_, rfl, fun _ => honce.mpr (hmistaken.mpr (h huac)), ?_, ?_⟩
      · rw [hkept, htags]
      · rw [hexp', hexp]
  · rw [if_neg huac, ok_bind]
    refine iff_of_true ⟨_, rfl, fun h => absurd h huac, ?_, hexp⟩ fun h => absurd h huac
    rw [htags]

/-- A session whose caller refreshes. -/
def callerRefreshes : InvSession := ⟨true, some ⟨true, 1800, 90, .uac⟩⟩

/-- `100rel`. -/
def strRel : Str := str ['1', '0', '0', 'r', 'e', 'l']

/-- A response with `Require: 100rel, TIMER`. -/
def requiresBoth : Msg := ⟨200, [.other 0, .require [strRel, str ['T', 'I', 'M', 'E', 'R']]]⟩

theorem updateResp_listed_both :
    ∃ msg', updateResp callerRefreshes requiresBoth = .ok msg' ∧
      Listed ⟨true, 1800, 90, .uac⟩ requiresBoth msg' := by
  refine (updateResp_listed_iff rfl rfl rfl rfl ?_).mpr fun _ values hvalues => ?_
  · intro values hmem
    simp only [requiresBoth, List.mem_cons, reduceCtorEq, Hdr.require.injEq, List.not_mem_nil,
      or_false, false_or] at hmem
    rw [hmem]
    decide
  · cases hvalues
    exact .inr ⟨⟨strRel, List.mem_cons_self, by decide⟩, by decide⟩

/-- With `Require: 100rel`, the tag is not added. -/
theorem updateResp_rel :
    updateResp callerRefreshes ⟨200, [.require [strRel]]⟩ =
        .ok ⟨200, [.require [strRel], .sessExpires 1800 strUac]⟩ ∧
      ¬ ∃ msg', updateResp callerRefreshes ⟨200, [.require [strRel]]⟩ = .ok msg' ∧
          Listed ⟨true, 1800, 90, .uac⟩ ⟨200, [.require [strRel]]⟩ msg' := by
  have hupdate : updateResp callerRefreshes ⟨200, [.require [strRel]]⟩ =
      .ok ⟨200, [.require [strRel], .sessExpires 1800 strUac]⟩ := by
    decide
  refine ⟨hupdate, ?_⟩
  rintro ⟨msg', h, hlisted⟩
  rw [hupdate] at h
  cases h
  exact absurd (hlisted.once rfl) (by decide)

end SessTimer
