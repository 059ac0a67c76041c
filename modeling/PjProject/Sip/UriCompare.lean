import PjProject.Parser.Message
import PjProject.Parser.MethodName
import PjProject.Print.SipUri

set_option autoImplicit false

/-! # Comparing URIs

`pjsip_uri_cmp`, for the URIs and name addresses of the parser. Where a list of parameters or headers is
compared, the loop is over the first URI's list, and looks for the names in the second's: entries that
only the second one has are missed, and of the entries with one name only the first is looked at. The
comparison is reflexive and symmetric for two URIs exactly if the entries with one name have one
value, and the two do not differ just in something that one of them has and the other lacks
(`uriCmp_symmetric_iff`).
-/

namespace UriCompare

open Scan (PjCis)
open SipParser
open SipPrint (UriContext)
open Sdp (Str str stricmpEq strnicmpEq toLower)

/-! ## Comparing strings -/

/-- `pj_ansi_strnicmp`, for the common length. -/
def strnicmp : Str → Str → Int
  | a :: s, b :: t =>
      if toLower a ≠ toLower b then (toLower a).toNat - (toLower b).toNat
      else if a = 0 then 0
      else strnicmp s t
  | _, _ => 0

/-- `pj_stricmp`. -/
def pjStricmp (s t : Str) : Int :=
  if s = [] then if t = [] then 0 else -1
  else if t = [] then 1
  else if strnicmp s t ≠ 0 then strnicmp s t
  else if s.length < t.length then -1
  else if s.length = t.length then 0
  else 1

/-- What `pj_stricmp` looks at: the length, and the characters in front of a NUL. -/
def icKey (s : Str) : Nat × Str := (s.length, (s.takeWhile (· != 0)).map toLower)

theorem strnicmp_eq_zero {s t : Str} : strnicmp s t = 0 ↔ strnicmpEq s t = true := by
  induction s generalizing t with
  | nil => simp [strnicmp, strnicmpEq]
  | cons a s ih =>
      cases t with
      | nil => simp [strnicmp, strnicmpEq]
      | cons b t =>
          by_cases hab : toLower a = toLower b
          · by_cases ha : a = 0
            · rw [strnicmp, strnicmpEq, if_neg (not_not.mpr hab), if_pos ha, hab]
              simp [ha]
            · simp [strnicmp, strnicmpEq, hab, ha, ih]
          · have hne : ((toLower a).toNat : Int) - (toLower b).toNat ≠ 0 := by
              intro h
              exact hab (UInt8.toNat_inj.mp (by omega))
            simp [strnicmp, strnicmpEq, hab, hne]

/-- On strings of one length. -/
theorem strnicmpEq_iff {s t : Str} (hlen : s.length = t.length) :
    strnicmpEq s t = true ↔
      (s.takeWhile (· != 0)).map toLower = (t.takeWhile (· != 0)).map toLower := by
  induction s generalizing t with
  | nil =>
      have ht : t = [] := List.length_eq_zero_iff.mp hlen.symm
      simp [strnicmpEq, ht]
  | cons a s ih =>
      cases t with
      | nil => simp at hlen
      | cons b t =>
          have hrest := @ih t (by simpa using hlen)
          by_cases ha : a = 0
          · by_cases hb : b = 0
            · simp [strnicmpEq, ha, hb]
            · have hlow : ¬ toLower 0 = toLower b := by
                intro h
                exact hb (toLower_eq_zero.mp (h.symm.trans (by decide)))
              simp [strnicmpEq, ha, hb, hlow]
          · by_cases hb : b = 0
            · have hlow : ¬ toLower a = toLower 0 := by
                intro h
                exact ha (toLower_eq_zero.mp (h.trans (by decide)))
              simp [strnicmpEq, ha, hb, hlow]
            · simp [strnicmpEq, ha, hb, hrest]

theorem stricmpEq_iff_key {s t : Str} : stricmpEq s t = true ↔ icKey s = icKey t := by
  unfold stricmpEq icKey
  by_cases hlen : s.length = t.length
  · simp [hlen, strnicmpEq_iff hlen]
  · simp [hlen]

theorem pjStricmp_eq_zero {s t : Str} : pjStricmp s t = 0 ↔ icKey s = icKey t := by
  rw [← stricmpEq_iff_key]
  unfold pjStricmp stricmpEq
  by_cases hs : s = []
  · by_cases ht : t = []
    · simp [hs, ht, strnicmpEq]
    · have : ¬ 0 = t.length := fun h => ht (List.length_eq_zero_iff.mp h.symm)
      simp [hs, ht, this]
  · by_cases ht : t = []
    · simp [hs, ht]
    · rw [if_neg hs, if_neg ht]
      by_cases hz : strnicmp s t = 0
      · rw [if_neg (not_not.mpr hz), strnicmp_eq_zero.mp hz]
        by_cases hlt : s.length < t.length
        · simp [hlt]
          omega
        · by_cases hlen : s.length = t.length <;> simp [hlt, hlen]
      · have hf : strnicmpEq s t = false := by
          rw [← Bool.not_eq_true, ← strnicmp_eq_zero]
          exact hz
        simp [hz, hf]

/-! ## Lists of parameters -/

/-- The loop of `pjsip_param_cmp`. -/
def paramCmpLoop (list2 : List Param) (igNf : Bool) : List Param → Int
  | [] => 0
  | p1 :: rest =>
      match paramFind list2 p1.name with
      | some p2 =>
          if pjStricmp p1.value p2.value ≠ 0 then pjStricmp p1.value p2.value
          else paramCmpLoop list2 igNf rest
      | none => if igNf = false then 1 else paramCmpLoop list2 igNf rest

/-- `pjsip_param_cmp`. -/
def paramCmp (list1 list2 : List Param) (igNf : Bool) : Int :=
  if igNf = false ∧ list1.length ≠ list2.length then 1 else paramCmpLoop list2 igNf list1

/-- Two parameters have one name. -/
def SameName (p q : Param) : Prop := icKey p.name = icKey q.name

/-- Two parameters have one value. -/
def SameValue (p q : Param) : Prop := icKey p.value = icKey q.value

/-- Entries of the two lists that have one name have one value. -/
def Agree (l1 l2 : List Param) : Prop := ∀ p ∈ l1, ∀ q ∈ l2, SameName p q → SameValue p q

/-- The first list has a name that is not in the second. -/
def Extra (l1 l2 : List Param) : Prop := ∃ p ∈ l1, ∀ q ∈ l2, ¬ SameName p q

theorem Agree.symm {l1 l2 : List Param} (h : Agree l1 l2) : Agree l2 l1 :=
  fun p hp q hq hname => (h q hq p hp hname.symm).symm

theorem paramFind_eq_none {l : List Param} {p : Param} :
    paramFind l p.name = none ↔ ∀ q ∈ l, ¬ SameName p q := by
  unfold paramFind SameName
  rw [List.find?_eq_none]
  refine forall₂_congr fun q _ => ?_
  rw [stricmpEq_iff_key, eq_comm]

theorem paramFind_eq_some {l : List Param} {p q : Param} (h : paramFind l p.name = some q) :
    q ∈ l ∧ SameName p q :=
  ⟨List.mem_of_find?_eq_some h,
    (stricmpEq_iff_key.mp (by simpa using List.find?_some h)).symm⟩

/-- The entry that is found is the same for one name. -/
theorem paramFind_congr {l : List Param} {p q : Param} (h : SameName p q) :
    paramFind l p.name = paramFind l q.name := by
  unfold paramFind
  congr 1
  funext r
  rw [Bool.eq_iff_iff, stricmpEq_iff_key, stricmpEq_iff_key, h]

/-- What the loops compare: each entry of the first list with the entry that is found in the second. -/
def Found (l1 l2 : List Param) : Prop :=
  ∀ p ∈ l1, ∀ q, paramFind l2 p.name = some q → SameValue p q

theorem paramCmp_eq_zero {l1 l2 : List Param} : paramCmp l1 l2 true = 0 ↔ Found l1 l2 := by
  unfold paramCmp Found
  rw [if_neg (by simp)]
  induction l1 with
  | nil => simp [paramCmpLoop]
  | cons p l1 ih =>
      rw [paramCmpLoop, List.forall_mem_cons]
      cases hf : paramFind l2 p.name with
      | none => simp [ih]
      | some q =>
          by_cases hv : pjStricmp p.value q.value = 0
          · simp [hv, ih, SameValue, pjStricmp_eq_zero.mp hv]
          · have hne : ¬ SameValue p q := fun h => hv (pjStricmp_eq_zero.mpr h)
            simp [hv, hne]

/-- Entries of the list that have one name have one value. -/
abbrev Consistent (l : List Param) : Prop := Agree l l

/-- A list is compared equal with itself exactly if it is consistent. -/
theorem found_self_iff {l : List Param} : Found l l ↔ Consistent l := by
  constructor
  · intro h p hp q hq hname
    cases hf : paramFind l p.name with
    | none => exact absurd hname (paramFind_eq_none.mp hf q hq)
    | some r =>
        have hpr := h p hp r hf
        have hqr := h q hq r (by rw [← paramFind_congr hname, hf])
        exact hpr.trans hqr.symm
  · intro h p hp q hf
    exact h p hp q (paramFind_eq_some hf).1 (paramFind_eq_some hf).2

/-- With a consistent list, what is found stands for all. -/
theorem found_iff {l1 l2 : List Param} (h2 : Consistent l2) : Found l1 l2 ↔ Agree l1 l2 := by
  constructor
  · intro h p hp q hq hname
    cases hf : paramFind l2 p.name with
    | none => exact absurd hname (paramFind_eq_none.mp hf q hq)
    | some r =>
        have hr := paramFind_eq_some hf
        have hqr := h2 q hq r hr.1 (hname.symm.trans hr.2)
        exact (h p hp r hf).trans hqr.symm
  · intro h p hp q hf
    exact h p hp q (paramFind_eq_some hf).1 (paramFind_eq_some hf).2

/-! ## SIP URIs -/

def ecmpScheme : Int := 171080
def ecmpUser : Int := 171081
def ecmpPasswd : Int := 171082
def ecmpHost : Int := 171083
def ecmpPort : Int := 171084
def ecmpTransportPrm : Int := 171085
def ecmpTtlParam : Int := 171086
def ecmpUserParam : Int := 171087
def ecmpMethodParam : Int := 171088
def ecmpMaddrParam : Int := 171089
def ecmpOtherParam : Int := 171090
def ecmpHeaderParam : Int := 171091

/-- The loop over the headers. -/
def headersCmp (list2 : List Param) : List Param → Int
  | [] => 0
  | p1 :: rest =>
      match paramFind list2 p1.name with
      | some p2 =>
          if pjStricmp p1.value p2.value ≠ 0 then ecmpHeaderParam
          else headersCmp list2 rest
      | none => ecmpHeaderParam

/-- `pjsip_url_compare`. -/
def urlCompare (context : UriContext) (url1 url2 : SipUri) : Int :=
  if url1.secure ≠ url2.secure then ecmpScheme
  else if pjStrcmp url1.user url2.user ≠ 0 then ecmpUser
  else if pjStrcmp url1.passwd url2.passwd ≠ 0 then ecmpPasswd
  else if pjStricmp url1.host url2.host ≠ 0 then ecmpHost
  -- the port and the transport are not allowed in To and From
  else if context ≠ .inFromToHdr ∧ url1.port ≠ url2.port then ecmpPort
  else if context ≠ .inFromToHdr ∧ pjStricmp url1.transportParam url2.transportParam ≠ 0 then
    ecmpTransportPrm
  else if context ≠ .inFromToHdr ∧ context ≠ .inRoutingHdr ∧ url1.ttlParam ≠ url2.ttlParam then
    ecmpTtlParam
  else if pjStricmp url1.userParam url2.userParam ≠ 0 then ecmpUserParam
  else if context = .inOther ∧ pjStricmp url1.methodParam url2.methodParam ≠ 0 then
    ecmpMethodParam
  else if context ≠ .inFromToHdr ∧ pjStricmp url1.maddrParam url2.maddrParam ≠ 0 then
    ecmpMaddrParam
  else if paramCmp url1.otherParam url2.otherParam true ≠ 0 then ecmpOtherParam
  else headersCmp url2.headerParam url1.headerParam

/-- The two URIs are the same in the components that the context compares, the lists apart. -/
structure SameParts (context : UriContext) (u v : SipUri) : Prop where
  secure : u.secure = v.secure
  user : u.user = v.user
  passwd : u.passwd = v.passwd
  host : icKey u.host = icKey v.host
  port : context ≠ .inFromToHdr → u.port = v.port
  transport : context ≠ .inFromToHdr → icKey u.transportParam = icKey v.transportParam
  ttl : context ≠ .inFromToHdr → context ≠ .inRoutingHdr → u.ttlParam = v.ttlParam
  userParam : icKey u.userParam = icKey v.userParam
  method : context = .inOther → icKey u.methodParam = icKey v.methodParam
  maddr : context ≠ .inFromToHdr → icKey u.maddrParam = icKey v.maddrParam

theorem SameParts.symm {context : UriContext} {u v : SipUri} (h : SameParts context u v) :
    SameParts context v u :=
  ⟨h.secure.symm, h.user.symm, h.passwd.symm, h.host.symm, fun hc => (h.port hc).symm,
    fun hc => (h.transport hc).symm, fun hc hr => (h.ttl hc hr).symm, h.userParam.symm,
    fun hc => (h.method hc).symm, fun hc => (h.maddr hc).symm⟩

theorem SameParts.refl (context : UriContext) (u : SipUri) : SameParts context u u :=
  ⟨rfl, rfl, rfl, rfl, fun _ => rfl, fun _ => rfl, fun _ _ => rfl, rfl, fun _ => rfl, fun _ => rfl⟩

/-- A loop that wants each entry found and the same. -/
theorem found_cons_iff {p : Param} {l1 l2 : List Param} :
    Found (p :: l1) l2 ∧ ¬ Extra (p :: l1) l2 ↔
      (∃ q, paramFind l2 p.name = some q ∧ SameValue p q) ∧ Found l1 l2 ∧ ¬ Extra l1 l2 := by
  have hfound : Found (p :: l1) l2 ↔
      (∀ q, paramFind l2 p.name = some q → SameValue p q) ∧ Found l1 l2 := by
    simp [Found]
  have hextra : Extra (p :: l1) l2 ↔ (∀ q ∈ l2, ¬ SameName p q) ∨ Extra l1 l2 := by
    simp [Extra]
  rw [hfound, hextra]
  cases hf : paramFind l2 p.name with
  | none =>
      refine iff_of_false ?_ (by simp)
      rintro ⟨-, h⟩
      exact h (.inl (paramFind_eq_none.mp hf))
  | some q =>
      have hq := paramFind_eq_some hf
      have hin : ¬ ∀ r ∈ l2, ¬ SameName p r := fun h => h q hq.1 hq.2
      simp [hin, and_assoc]

theorem headersCmp_eq_zero {l1 l2 : List Param} :
    headersCmp l2 l1 = 0 ↔ Found l1 l2 ∧ ¬ Extra l1 l2 := by
  induction l1 with
  | nil => simp [headersCmp, Found, Extra]
  | cons p l1 ih =>
      rw [found_cons_iff, ← ih, headersCmp]
      cases hf : paramFind l2 p.name with
      | none => simp [ecmpHeaderParam]
      | some q =>
          by_cases hv : icKey p.value = icKey q.value <;>
            simp [ecmpHeaderParam, SameValue, pjStricmp_eq_zero, hv]

theorem ite_eq_zero {c : Prop} [Decidable c] {e x : Int} (he : e ≠ 0) :
    (if c then e else x) = 0 ↔ ¬ c ∧ x = 0 := by
  by_cases hc : c <;> simp [hc, he]

theorem urlCompare_eq_zero {context : UriContext} {u v : SipUri} :
    urlCompare context u v = 0 ↔
      SameParts context u v ∧ Found u.otherParam v.otherParam ∧
        Found u.headerParam v.headerParam ∧ ¬ Extra u.headerParam v.headerParam := by
  unfold urlCompare
  simp only [ite_eq_zero (show ecmpScheme ≠ 0 by decide), ite_eq_zero (show ecmpUser ≠ 0 by decide),
    ite_eq_zero (show ecmpPasswd ≠ 0 by decide), ite_eq_zero (show ecmpHost ≠ 0 by decide),
    ite_eq_zero (show ecmpPort ≠ 0 by decide), ite_eq_zero (show ecmpTransportPrm ≠ 0 by decide),
    ite_eq_zero (show ecmpTtlParam ≠ 0 by decide), ite_eq_zero (show ecmpUserParam ≠ 0 by decide),
    ite_eq_zero (show ecmpMethodParam ≠ 0 by decide),
    ite_eq_zero (show ecmpMaddrParam ≠ 0 by decide),
    ite_eq_zero (show ecmpOtherParam ≠ 0 by decide), not_not, not_and, pjStrcmp_eq_zero,
    pjStricmp_eq_zero, paramCmp_eq_zero, headersCmp_eq_zero]
  constructor
  · rintro ⟨h1, h2, h3, h4, h5, h6, h7, h8, h9, h10, h11, h12⟩
    exact ⟨⟨h1, h2, h3, h4, h5, h6, h7, h8, h9, h10⟩, h11, h12⟩
  · rintro ⟨h, h11, h12⟩
    exact ⟨h.secure, h.user, h.passwd, h.host, h.port, h.transport, h.ttl, h.userParam, h.method,
      h.maddr, h11, h12⟩

/-! ## Telephone numbers -/

/-- `pjsip_TEL_VISUAL_SEP_SPEC`. -/
def visualSep (c : UInt8) : Bool := c == 45 || c == 46 || c == 40 || c == 41

/-- `pjsip_tel_nb_cmp`. -/
def telNbCmp : Str → Str → Int
  | c1 :: s1, c2 :: s2 =>
      if visualSep c1 then telNbCmp s1 (c2 :: s2)
      else if visualSep c2 then telNbCmp (c1 :: s1) s2
      else if toLower c1 = toLower c2 then telNbCmp s1 s2
      else (toLower c1).toNat - (toLower c2).toNat
  | s1, s2 =>
      match s1.dropWhile visualSep, s2.dropWhile visualSep with
      | [], [] => 0
      | [], _ :: _ => -1
      | _ :: _, _ => 1
termination_by s1 s2 => s1.length + s2.length

/-- A number without its visual separators. -/
def digits (s : Str) : Str := (s.filter fun c => !visualSep c).map toLower

theorem digits_eq_nil {s : Str} : digits s = [] ↔ s.dropWhile visualSep = [] := by
  induction s with
  | nil => simp [digits]
  | cons c s ih =>
      unfold digits at ih ⊢
      by_cases hc : visualSep c = true
      · simp [hc, ← ih]
      · simp [hc]

theorem telNbCmp_eq_zero (s t : Str) : telNbCmp s t = 0 ↔ digits s = digits t := by
  fun_induction telNbCmp s t with
  | case1 c1 s1 c2 s2 h1 ih =>
      rw [ih]
      simp [digits, h1]
  | case2 c1 s1 c2 s2 h1 h2 ih =>
      rw [ih]
      simp [digits, h1, h2]
  | case3 c1 s1 c2 s2 h1 h2 heq ih =>
      rw [ih]
      simp [digits, h1, h2, heq]
  | case4 c1 s1 c2 s2 h1 h2 hne =>
      have hd : ((toLower c1).toNat : Int) - (toLower c2).toNat ≠ 0 := by
        intro h
        exact hne (UInt8.toNat_inj.mp (by omega))
      simp [digits, h1, h2, hne, hd]
  | case5 s1 s2 hnot h1 h2 =>
      rw [digits_eq_nil.mpr h1, digits_eq_nil.mpr h2]
      simp
  | case6 s1 s2 hnot c s' h2 h1 =>
      have hne : digits s2 ≠ [] := fun h => by rw [digits_eq_nil.mp h] at h2; cases h2
      rw [digits_eq_nil.mpr h1]
      exact iff_of_false (by decide) hne.symm
  | case7 s1 s2 hnot c s' h1 =>
      have hne : digits s1 ≠ [] := fun h => by rw [digits_eq_nil.mp h] at h1; cases h1
      -- one of the two is at its end
      have hs2 : s2 = [] := by
        cases s2 with
        | nil => rfl
        | cons c2 s2 =>
            cases s1 with
            | nil => simp at h1
            | cons c1 s1 => exact (hnot c1 s1 c2 s2 rfl rfl).elim
      subst hs2
      exact iff_of_false (by decide) hne

/-! ## tel URIs -/

/-- The comparison of the phone contexts. -/
def contextCmp (c1 c2 : Str) : Int :=
  if c1 ≠ [] then
    if c1.head? ≠ some 43 then pjStricmp c1 c2
    else telNbCmp c1 c2
  else if c2 ≠ [] then -1
  else 0

/-- The loop over the other parameters. -/
def telParamsLoop (list2 : List Param) : List Param → Int
  | [] => 0
  | p1 :: rest =>
      match paramFind list2 p1.name with
      | none => 1
      | some p2 =>
          if pjStricmp p1.value p2.value ≠ 0 then pjStricmp p1.value p2.value
          else telParamsLoop list2 rest

/-- The comparison of the other parameters. -/
def telParamsCmp (list1 list2 : List Param) : Int :=
  if list1 ≠ [] then
    if telParamsLoop list2 list1 ≠ 0 then telParamsLoop list2 list1
    else if list1.length < list2.length then -1
    else if list2.length < list1.length then 1
    else 0
  else if list2 ≠ [] then -1
  else 0

/-- `tel_uri_cmp`. -/
def telUriCmp (url1 url2 : TelUri) : Int :=
  if telNbCmp url1.number url2.number ≠ 0 then telNbCmp url1.number url2.number
  else if contextCmp url1.context url2.context ≠ 0 then contextCmp url1.context url2.context
  else if url1.extParam ≠ [] ∧ telNbCmp url1.extParam url2.extParam ≠ 0 then
    telNbCmp url1.extParam url2.extParam
  else if url1.isubParam ≠ [] ∧ pjStricmp url1.isubParam url2.isubParam ≠ 0 then
    pjStricmp url1.isubParam url2.isubParam
  else telParamsCmp url1.otherParam url2.otherParam

/-- A context that begins with `+`. -/
def Global (c : Str) : Prop := c.head? = some 43

/-- The contexts are the same, as numbers if one of them begins with `+`. -/
def MatchContext (c1 c2 : Str) : Prop :=
  c1 = [] ∧ c2 = [] ∨ (¬ Global c1 ∧ ¬ Global c2 ∧ icKey c1 = icKey c2) ∨
    ((Global c1 ∨ Global c2) ∧ digits c1 = digits c2)

/-- The two tel URIs are the same in what both have, the values of the other parameters apart. -/
structure MatchTel (u v : TelUri) : Prop where
  number : digits u.number = digits v.number
  context : MatchContext u.context v.context
  ext : u.extParam = [] ∨ v.extParam = [] ∨ digits u.extParam = digits v.extParam
  isub : u.isubParam = [] ∨ v.isubParam = [] ∨ icKey u.isubParam = icKey v.isubParam
  count : u.otherParam.length = v.otherParam.length

/-- The first tel URI has something that the second lacks: a digit of an extension, an ISDN subaddress, another
parameter, or a context that does not begin with the `+` that the second's begins with. -/
def ExtraTel (u v : TelUri) : Prop :=
  (¬ Global u.context ∧ Global v.context) ∨ (v.extParam = [] ∧ digits u.extParam ≠ []) ∨
    (u.isubParam ≠ [] ∧ v.isubParam = []) ∨ Extra u.otherParam v.otherParam

theorem MatchTel.refl (u : TelUri) : MatchTel u u := by
  refine ⟨rfl, ?_, .inr (.inr rfl), .inr (.inr rfl), rfl⟩
  by_cases hg : Global u.context
  · exact .inr (.inr ⟨.inl hg, rfl⟩)
  · exact .inr (.inl ⟨hg, hg, rfl⟩)

theorem MatchTel.symm {u v : TelUri} (h : MatchTel u v) : MatchTel v u := by
  refine ⟨h.number.symm, ?_, ?_, ?_, h.count.symm⟩
  · rcases h.context with ⟨h1, h2⟩ | ⟨h1, h2, h3⟩ | ⟨h1, h2⟩
    · exact .inl ⟨h2, h1⟩
    · exact .inr (.inl ⟨h2, h1, h3.symm⟩)
    · exact .inr (.inr ⟨h1.symm, h2.symm⟩)
  · rcases h.ext with h | h | h
    · exact .inr (.inl h)
    · exact .inl h
    · exact .inr (.inr h.symm)
  · rcases h.isub with h | h | h
    · exact .inr (.inl h)
    · exact .inl h
    · exact .inr (.inr h.symm)

/-- A context that begins with `+` is the same as none that does not. -/
theorem global_congr {c1 c2 : Str} (h : icKey c1 = icKey c2) : Global c1 ↔ Global c2 := by
  have hone : ∀ {c1 c2 : Str}, icKey c1 = icKey c2 → Global c1 → Global c2 := by
    intro c1 c2 h hg
    obtain ⟨rest, rfl⟩ : ∃ rest, c1 = 43 :: rest := by
      cases c1 with
      | nil => simp [Global] at hg
      | cons a rest => exact ⟨rest, by simpa [Global] using hg⟩
    have hkey := (Prod.mk.inj h).2
    cases c2 with
    | nil => simp [icKey] at h
    | cons b c2 =>
        by_cases hb : b = 0
        · simp [hb] at hkey
        · have hlow : toLower 43 = toLower b := by
            simpa [hb] using (List.cons.inj (by simpa [hb] using hkey)).1
          have hb43 : b = 43 := by
            revert hlow
            unfold toLower
            split
            next hup =>
              intro hlow
              exact absurd hup (by decide)
            next =>
              split
              next hup =>
                intro hlow
                simp only [Bool.and_eq_true, decide_eq_true_eq, UInt8.le_iff_toNat_le,
                  UInt8.toNat_ofNat] at hup
                have := congrArg UInt8.toNat hlow
                simp only [UInt8.toNat_add, UInt8.toNat_ofNat] at this
                omega
              next => exact fun h => h.symm
          simp [Global, hb43]
  exact ⟨hone h, hone h.symm⟩

theorem contextCmp_eq_zero {c1 c2 : Str} :
    contextCmp c1 c2 = 0 ↔ MatchContext c1 c2 ∧ ¬ (¬ Global c1 ∧ Global c2) := by
  have hnil : ¬ Global [] := by simp [Global]
  have hdigits : ∀ c, Global c → digits c ≠ [] := by
    intro c hc
    cases c with
    | nil => exact absurd hc hnil
    | cons a c =>
        have ha : a = 43 := by simpa [Global] using hc
        simp [digits, ha, visualSep]
  unfold contextCmp MatchContext
  by_cases h1 : c1 = []
  · by_cases h2 : c2 = []
    · simp [h1, h2, hnil]
    · have hkey : ¬ icKey [] = icKey c2 := by
        intro h
        exact h2 (List.length_eq_zero_iff.mp (Prod.mk.inj h).1.symm)
      have hg : ∀ h : Global c2, ¬ digits [] = digits c2 := fun h he => hdigits c2 h he.symm
      simp only [h1, h2, ne_eq, not_true, not_false_eq_true, if_false, if_true]
      refine iff_of_false (by decide) ?_
      rintro ⟨h | h | ⟨h | h, he⟩, -⟩
      · exact h.2.elim
      · exact hkey h.2.2
      · exact hnil h
      · exact hg h he
  · by_cases hg : Global c1
    · have hhead : c1.head? = some 43 := hg
      simp only [h1, hhead, ne_eq, not_true, not_false_eq_true, if_false, if_true,
        telNbCmp_eq_zero]
      constructor
      · intro h
        exact ⟨.inr (.inr ⟨.inl hg, h⟩), fun h => h.1 hg⟩
      · rintro ⟨h | h | h, -⟩
        · exact h.1.elim
        · exact absurd hg h.1
        · exact h.2
    · have hhead : ¬ c1.head? = some 43 := hg
      simp only [h1, hhead, ne_eq, not_false_eq_true, if_true, pjStricmp_eq_zero]
      constructor
      · intro h
        have hg2 : ¬ Global c2 := fun h2 => hg ((global_congr h).mpr h2)
        exact ⟨.inr (.inl ⟨hg, hg2, h⟩), fun h => hg2 h.2⟩
      · rintro ⟨h | h | h, hno⟩
        · exact h.1.elim
        · exact h.2.2
        · exact absurd ⟨hg, h.1.resolve_left hg⟩ hno

theorem telParamsLoop_eq_zero {l1 l2 : List Param} :
    telParamsLoop l2 l1 = 0 ↔ Found l1 l2 ∧ ¬ Extra l1 l2 := by
  induction l1 with
  | nil => simp [telParamsLoop, Found, Extra]
  | cons p l1 ih =>
      rw [found_cons_iff, ← ih, telParamsLoop]
      cases hf : paramFind l2 p.name with
      | none => simp
      | some q =>
          by_cases hv : pjStricmp p.value q.value = 0
          · simp [hv, SameValue, pjStricmp_eq_zero.mp hv]
          · have hne : ¬ SameValue p q := fun h => hv (pjStricmp_eq_zero.mpr h)
            simp [hv, hne]

theorem telParamsCmp_eq_zero {l1 l2 : List Param} :
    telParamsCmp l1 l2 = 0 ↔ Found l1 l2 ∧ ¬ Extra l1 l2 ∧ l1.length = l2.length := by
  unfold telParamsCmp
  by_cases h1 : l1 = []
  · by_cases h2 : l2 = []
    · simp [h1, h2, Found, Extra]
    · have hlen : ¬ 0 = l2.length := fun h => h2 (List.length_eq_zero_iff.mp h.symm)
      simp [h1, h2, hlen]
  · rw [if_pos h1, ← and_assoc, ← telParamsLoop_eq_zero]
    by_cases hz : telParamsLoop l2 l1 = 0
    · rw [if_neg (not_not.mpr hz)]
      by_cases hlt : l1.length < l2.length
      · have hne : ¬ l1.length = l2.length := by omega
        simp [hlt, hne]
      · by_cases hgt : l2.length < l1.length
        · have hne : ¬ l1.length = l2.length := by omega
          simp [hlt, hgt, hne]
        · have heq : l1.length = l2.length := by omega
          simp [hz, heq]
    · simp [hz]

theorem ite_self_eq_zero {c : Prop} [Decidable c] {r x : Int} (h : c → r ≠ 0) :
    (if c then r else x) = 0 ↔ ¬ c ∧ x = 0 := by
  by_cases hc : c
  · simp [hc, h hc]
  · simp [hc]

theorem telUriCmp_eq_zero {u v : TelUri} :
    telUriCmp u v = 0 ↔ MatchTel u v ∧ Found u.otherParam v.otherParam ∧ ¬ ExtraTel u v := by
  have hext : ¬ (u.extParam ≠ [] ∧ telNbCmp u.extParam v.extParam ≠ 0) ↔
      (u.extParam = [] ∨ v.extParam = [] ∨ digits u.extParam = digits v.extParam) ∧
        ¬ (v.extParam = [] ∧ digits u.extParam ≠ []) := by
    rw [Ne, Ne, telNbCmp_eq_zero]
    by_cases hu : u.extParam = []
    · simp [hu, digits]
    · by_cases hv : v.extParam = []
      · simp [hu, hv, digits]
      · simp [hu, hv]
  have hisub : ¬ (u.isubParam ≠ [] ∧ pjStricmp u.isubParam v.isubParam ≠ 0) ↔
      (u.isubParam = [] ∨ v.isubParam = [] ∨ icKey u.isubParam = icKey v.isubParam) ∧
        ¬ (u.isubParam ≠ [] ∧ v.isubParam = []) := by
    rw [Ne, Ne, pjStricmp_eq_zero]
    by_cases hu : u.isubParam = []
    · simp [hu]
    · by_cases hv : v.isubParam = []
      · simp [hu, hv, icKey]
      · simp [hu, hv]
  unfold telUriCmp
  rw [ite_self_eq_zero id, ite_self_eq_zero id, ite_self_eq_zero And.right,
    ite_self_eq_zero And.right, hext, hisub, not_not, not_not, telNbCmp_eq_zero,
    contextCmp_eq_zero, telParamsCmp_eq_zero]
  constructor
  · rintro ⟨h1, ⟨h2, e2⟩, ⟨h3, e3⟩, ⟨h4, e4⟩, h5, e5, h6⟩
    refine ⟨⟨h1, h2, h3, h4, h6⟩, h5, ?_⟩
    rintro (e | e | e | e)
    · exact e2 e
    · exact e3 e
    · exact e4 e
    · exact e5 e
  · rintro ⟨h, hfound, e⟩
    exact ⟨h.number, ⟨h.context, fun he => e (.inl he)⟩, ⟨h.ext, fun he => e (.inr (.inl he))⟩,
      ⟨h.isub, fun he => e (.inr (.inr (.inl he)))⟩, hfound,
      fun he => e (.inr (.inr (.inr he))), h.count⟩

/-! ## URIs -/

/-- `other_uri_cmp`. -/
def otherUriCmp (uri1 uri2 : OtherUri) : Int :=
  if pjStricmp uri1.scheme uri2.scheme ≠ 0 then ecmpScheme
  else if pjStricmp uri1.content uri2.content ≠ 0 then -1
  else 0

/-- The comparison of URIs that are no name addresses: the virtual tables come first. -/
def uriCmp (context : UriContext) : Uri → Uri → Int
  | .sip url1, .sip url2 => urlCompare context url1 url2
  | .sip _, _ => ecmpScheme
  | .tel url1, .tel url2 => telUriCmp url1 url2
  | .tel _, _ => -1
  | .other uri1, .other uri2 => otherUriCmp uri1 uri2
  | .other _, _ => -1

/-- `pjsip_uri_cmp`, with `pjsip_name_addr_compare`. -/
def pjsipUriCmp (context : UriContext) : AnyUri → AnyUri → Int
  | .nameAddr naddr1, .nameAddr naddr2 =>
      if pjStrcmp naddr1.display naddr2.display ≠ 0 then -1
      else uriCmp context naddr1.uri naddr2.uri
  | .nameAddr _, .uri _ => -1
  | .uri (.sip _), .nameAddr _ => ecmpScheme
  | .uri _, .nameAddr _ => -1
  | .uri uri1, .uri uri2 => uriCmp context uri1 uri2

/-- Parameters and headers with one name have one value, where repeated ones are compared. -/
def ConsistentUri : Uri → Prop
  | .sip u => Consistent u.otherParam ∧ Consistent u.headerParam
  | .tel u => Consistent u.otherParam
  | .other _ => True

/-- The URIs are the same in what both have. -/
def MatchUri (context : UriContext) : Uri → Uri → Prop
  | .sip u, .sip v =>
      SameParts context u v ∧ Agree u.otherParam v.otherParam ∧ Agree u.headerParam v.headerParam
  | .tel u, .tel v => MatchTel u v ∧ Agree u.otherParam v.otherParam
  | .other u, .other v => icKey u.scheme = icKey v.scheme ∧ icKey u.content = icKey v.content
  | _, _ => False

/-- The first URI has something that the second lacks: a header, or what `ExtraTel` says. -/
def ExtraUri : Uri → Uri → Prop
  | .sip u, .sip v => Extra u.headerParam v.headerParam
  | .tel u, .tel v => ExtraTel u v
  | _, _ => False

variable {context : UriContext}

theorem MatchUri.symm {u v : Uri} (h : MatchUri context u v) : MatchUri context v u := by
  cases u with
  | sip u =>
      cases v with
      | sip v => exact ⟨h.1.symm, h.2.1.symm, h.2.2.symm⟩
      | tel v => exact h
      | other v => exact h
  | tel u =>
      cases v with
      | sip v => exact h
      | tel v => exact ⟨h.1.symm, h.2.symm⟩
      | other v => exact h
  | other u =>
      cases v with
      | sip v => exact h
      | tel v => exact h
      | other v => exact ⟨h.1.symm, h.2.symm⟩

/-- The comparison is for what both have, and for what the first has. -/
theorem uriCmp_eq_zero {u v : Uri} (hv : ConsistentUri v) :
    uriCmp context u v = 0 ↔ MatchUri context u v ∧ ¬ ExtraUri u v := by
  cases u with
  | sip u =>
      cases v with
      | sip v =>
          show urlCompare context u v = 0 ↔ _
          rw [urlCompare_eq_zero, found_iff hv.1, found_iff hv.2]
          simp [MatchUri, ExtraUri, and_assoc]
      | tel v => simp [uriCmp, MatchUri, ecmpScheme]
      | other v => simp [uriCmp, MatchUri, ecmpScheme]
  | tel u =>
      cases v with
      | sip v => simp [uriCmp, MatchUri]
      | tel v =>
          show telUriCmp u v = 0 ↔ _
          have hcons : Consistent v.otherParam := hv
          rw [telUriCmp_eq_zero, found_iff hcons]
          simp [MatchUri, ExtraUri, and_assoc]
      | other v => simp [uriCmp, MatchUri]
  | other u =>
      cases v with
      | sip v => simp [uriCmp, MatchUri]
      | tel v => simp [uriCmp, MatchUri]
      | other v =>
          show otherUriCmp u v = 0 ↔ _
          unfold otherUriCmp
          rw [ite_eq_zero (show ecmpScheme ≠ 0 by decide), ite_eq_zero (show (-1 : Int) ≠ 0 by decide)]
          simp [MatchUri, ExtraUri, pjStricmp_eq_zero]

/-- A URI is compared equal with itself exactly if it is consistent. -/
theorem uriCmp_self {u : Uri} : uriCmp context u u = 0 ↔ ConsistentUri u := by
  have hextra : ∀ l : List Param, ¬ Extra l l := fun l ⟨p, hp, h⟩ => h p hp rfl
  cases u with
  | sip u =>
      show urlCompare context u u = 0 ↔ _
      rw [urlCompare_eq_zero, found_self_iff, found_self_iff]
      constructor
      · rintro ⟨-, h1, h2, -⟩
        exact ⟨h1, h2⟩
      · rintro ⟨h1, h2⟩
        exact ⟨SameParts.refl context u, h1, h2, hextra _⟩
  | tel u =>
      show telUriCmp u u = 0 ↔ Consistent u.otherParam
      rw [telUriCmp_eq_zero, found_self_iff]
      constructor
      · exact fun h => h.2.1
      · intro h
        refine ⟨MatchTel.refl u, h, ?_⟩
        rintro (e | e | e | e)
        · exact e.1 e.2
        · exact e.2 (by rw [e.1]; rfl)
        · exact e.1 e.2
        · exact hextra _ e
  | other u =>
      show otherUriCmp u u = 0 ↔ True
      have hself : ∀ s : Str, pjStricmp s s = 0 := fun s => pjStricmp_eq_zero.mpr rfl
      simp [otherUriCmp, hself]

/-! ## Name addresses -/

/-- `ConsistentUri`, of the URI in a name address. -/
def ConsistentAny : AnyUri → Prop
  | .uri u => ConsistentUri u
  | .nameAddr a => ConsistentUri a.uri

/-- `MatchUri`, with the display names of name addresses. -/
def MatchAny (context : UriContext) : AnyUri → AnyUri → Prop
  | .uri u, .uri v => MatchUri context u v
  | .nameAddr a, .nameAddr b => a.display = b.display ∧ MatchUri context a.uri b.uri
  | _, _ => False

/-- `ExtraUri`, of the URIs in name addresses. -/
def ExtraAny : AnyUri → AnyUri → Prop
  | .uri u, .uri v => ExtraUri u v
  | .nameAddr a, .nameAddr b => ExtraUri a.uri b.uri
  | _, _ => False

theorem MatchAny.symm {a b : AnyUri} (h : MatchAny context a b) : MatchAny context b a := by
  cases a with
  | uri u =>
      cases b with
      | uri v => exact MatchUri.symm h
      | nameAddr b => exact h
  | nameAddr a =>
      cases b with
      | uri v => exact h
      | nameAddr b => exact ⟨h.1.symm, h.2.symm⟩

theorem pjsipUriCmp_eq_zero {a b : AnyUri} (hb : ConsistentAny b) :
    pjsipUriCmp context a b = 0 ↔ MatchAny context a b ∧ ¬ ExtraAny a b := by
  cases a with
  | uri u =>
      cases b with
      | uri v => cases u <;> exact uriCmp_eq_zero hb
      | nameAddr b => cases u <;> simp [pjsipUriCmp, MatchAny, ecmpScheme]
  | nameAddr a =>
      cases b with
      | uri v => simp [pjsipUriCmp, MatchAny]
      | nameAddr b =>
          show (if pjStrcmp a.display b.display ≠ 0 then -1 else uriCmp context a.uri b.uri) = 0 ↔ _
          have hcons : ConsistentUri b.uri := hb
          rw [ite_eq_zero (by decide), not_not, pjStrcmp_eq_zero, uriCmp_eq_zero hcons]
          simp [MatchAny, ExtraAny, and_assoc]

theorem pjsipUriCmp_self {a : AnyUri} : pjsipUriCmp context a a = 0 ↔ ConsistentAny a := by
  cases a with
  | uri u =>
      have h := @uriCmp_self context u
      cases u <;> exact h
  | nameAddr a =>
      show (if pjStrcmp a.display a.display ≠ 0 then -1 else uriCmp context a.uri a.uri) = 0 ↔ _
      rw [ite_eq_zero (by decide), not_not, pjStrcmp_eq_zero, uriCmp_self]
      simp [ConsistentAny]

/-- **The comparison of URIs**: each of the two is equal to itself, and the comparison is the same in both
directions, exactly if repeated names have one value and the two do not differ just in what one of
them has and the other lacks. -/
theorem uriCmp_symmetric_iff (context : UriContext) (a b : AnyUri) :
    (pjsipUriCmp context a a = 0 ∧ pjsipUriCmp context b b = 0 ∧
        (pjsipUriCmp context a b = 0 ↔ pjsipUriCmp context b a = 0)) ↔
      ConsistentAny a ∧ ConsistentAny b ∧
        (MatchAny context a b → (ExtraAny a b ↔ ExtraAny b a)) := by
  rw [pjsipUriCmp_self, pjsipUriCmp_self]
  refine and_congr_right fun ha => and_congr_right fun hb => ?_
  rw [pjsipUriCmp_eq_zero hb, pjsipUriCmp_eq_zero ha]
  constructor
  · intro h hm
    have hm' := hm.symm
    simp only [hm, hm', true_and] at h
    exact not_iff_not.mp h
  · intro h
    constructor
    · rintro ⟨hm, he⟩
      exact ⟨hm.symm, fun h' => he ((h hm).mpr h')⟩
    · rintro ⟨hm, he⟩
      exact ⟨hm.symm, fun h' => he ((h hm.symm).mp h')⟩

/-- `sip:a` is equal to `sip:a?x=1`, which is not equal to it. -/
theorem uriCmp_not_symmetric :
    ∃ a b, pjsipParseUri (str ['s', 'i', 'p', ':', 'a']) ⟨false, false⟩ = .ok (some a) ∧
      pjsipParseUri (str ['s', 'i', 'p', ':', 'a', '?', 'x', '=', '1']) ⟨false, false⟩ =
        .ok (some b) ∧
      pjsipUriCmp .inOther a b = 0 ∧ pjsipUriCmp .inOther b a ≠ 0 := by
  refine ⟨.uri (.sip { SipUri.init false with host := [97] }),
    .uri (.sip { SipUri.init false with host := [97], headerParam := [⟨[120], [49]⟩] }), ?_⟩
  decide +kernel

end UriCompare
