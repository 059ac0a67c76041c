import PjProject.Parser.Headers
import Mathlib.Data.List.TakeWhile

set_option autoImplicit false

/-! # Names of methods

`pjsip_method_init_np` looks for the token of a method in the table of names, with a comparison of memory of
the length of the token and with one that ignores the case. The first also takes the beginning of a name for
the name, and looks at the byte behind a name with which the token begins. The token is recognized as
it should be exactly if it is neither (`recognized_iff`).
-/

namespace SipParser

open Scan
open Sdp (Str str stricmpEq strnicmpEq toLower)

/-! ## The comparisons -/

/-- `method_names`. -/
def methodNames : List Method :=
  [⟨.invite, str ['I', 'N', 'V', 'I', 'T', 'E']⟩, ⟨.cancel, str ['C', 'A', 'N', 'C', 'E', 'L']⟩,
    ⟨.ack, str ['A', 'C', 'K']⟩, ⟨.bye, str ['B', 'Y', 'E']⟩,
    ⟨.register, str ['R', 'E', 'G', 'I', 'S', 'T', 'E', 'R']⟩,
    ⟨.options, str ['O', 'P', 'T', 'I', 'O', 'N', 'S']⟩]

/-- The token is taken for the name. -/
def matchesName (token : Str) (m : Method) : Bool :=
  token.isPrefixOf m.name || stricmpEq token m.name

theorem methodInit_eq (token : Str) :
    methodInit token =
      match methodNames.find? (matchesName token) with
      | some m => m
      | none => ⟨.other, token⟩ := rfl

/-- How many bytes of the name `pj_memcmp(token, name, token.slen)` compares: up to the first that differs,
which may be the one behind the name. -/
def memcmpReach : Str → Str → Nat
  | [], _ => 0
  | _ :: _, [] => 1
  | a :: token, b :: name => if a = b then memcmpReach token name + 1 else 1

/-- The names with which the token is compared. -/
def comparedNames (token : Str) : List Method :=
  methodNames.takeWhile (fun m => !matchesName token m) ++
    (methodNames.find? (matchesName token)).toList

/-- `pj_strcmp`. -/
def pjStrcmp : Str → Str → Int
  | [], [] => 0
  | [], _ :: _ => -1
  | _ :: _, [] => 1
  | a :: s, b :: t => if a = b then pjStrcmp s t else if a < b then -1 else 1

/-- The value of a `pjsip_method_e`. -/
def MethodId.value : MethodId → Nat
  | .invite => 0
  | .cancel => 1
  | .ack => 2
  | .bye => 3
  | .register => 4
  | .options => 5
  | .other => 6

/-- `pjsip_method_cmp`. -/
def methodCmp (m1 m2 : Method) : Int :=
  if m1.id = m2.id then
    if m1.id ≠ .other then 0
    else pjStrcmp m1.name m2.name
  else if m1.id.value < m2.id.value then -1
  else 1

theorem pjStrcmp_eq_zero {s t : Str} : pjStrcmp s t = 0 ↔ s = t := by
  induction s generalizing t with
  | nil => cases t <;> simp [pjStrcmp]
  | cons a s ih =>
      cases t with
      | nil => simp [pjStrcmp]
      | cons b t =>
          by_cases hab : a = b
          · simp [pjStrcmp, hab, ih]
          · by_cases hlt : a < b <;> simp [pjStrcmp, hab, hlt]

/-- The comparison stays in the name unless the name is a beginning of the token. -/
theorem memcmpReach_le_iff {token name : Str} :
    memcmpReach token name ≤ name.length ↔ ¬ (name <+: token ∧ name ≠ token) := by
  induction token generalizing name with
  | nil => simp [memcmpReach]
  | cons a token ih =>
      cases name with
      | nil => simp [memcmpReach]
      | cons b name =>
          by_cases hab : a = b
          · subst hab
            have h := @ih name
            simp only [memcmpReach, if_true, List.length_cons, List.cons_prefix_cons, true_and]
            constructor
            · rintro hle ⟨hp, hne⟩
              exact h.mp (by omega) ⟨hp, fun he => hne (by rw [he])⟩
            · intro hn
              have := h.mpr fun hp => hn ⟨hp.1, fun he => hp.2 (by simpa using he)⟩
              omega
          · have hno : ¬ (b :: name <+: a :: token) := by
              rw [List.cons_prefix_cons]
              exact fun hp => hab hp.1.symm
            simp [memcmpReach, hab, hno]

/-! ## Tokens -/

/-- The token of a method: at least one character, all of `pjsip_TOKEN_SPEC`. -/
structure IsMethodToken (t : Str) : Prop where
  nonempty : t ≠ []
  chars : ∀ c ∈ t, tokenSpec.mem c = true

/-- The same name, whatever the case. -/
def SameName (s t : Str) : Prop := s.map toLower = t.map toLower

theorem toLower_eq_zero {c : UInt8} : toLower c = 0 ↔ c = 0 := by
  unfold toLower
  split
  next h =>
    simp only [Bool.and_eq_true, decide_eq_true_eq, UInt8.le_iff_toNat_le, UInt8.toNat_ofNat] at h
    simp only [← UInt8.toNat_inj, UInt8.toNat_add, UInt8.toNat_ofNat]
    omega
  next => exact Iff.rfl

/-- Without a NUL, `pj_stricmp` compares all characters. -/
theorem stricmpEq_iff {s t : Str} (hs : (0 : UInt8) ∉ s) : stricmpEq s t = true ↔ SameName s t := by
  have hkey : ∀ (s t : Str), (0 : UInt8) ∉ s → s.length = t.length →
      (strnicmpEq s t = true ↔ s.map toLower = t.map toLower) := by
    intro s
    induction s with
    | nil =>
        intro t _ hlen
        have ht : t = [] := List.length_eq_zero_iff.mp hlen.symm
        simp [ht, strnicmpEq]
    | cons a s ih =>
        intro t ha hlen
        cases t with
        | nil => simp at hlen
        | cons b t =>
            have ha0 : a ≠ 0 := fun h => ha (by simp [h])
            have hrest := ih t (fun h => ha (List.mem_cons_of_mem a h)) (by simpa using hlen)
            simp [strnicmpEq, ha0, hrest]
  unfold stricmpEq SameName
  by_cases hlen : s.length = t.length
  · simp [hlen, hkey s t hs hlen]
  · have hne : s.map toLower ≠ t.map toLower := fun h => hlen (by simpa using congrArg List.length h)
    simp [hlen, hne]

theorem IsMethodToken.noNul {t : Str} (h : IsMethodToken t) : (0 : UInt8) ∉ t := by
  intro h0
  exact absurd (h.chars 0 h0) (by decide)

/-! ## Recognition -/

/-- What is right of the recognition of a token. -/
structure Recognized (t : Str) : Prop where
  name : SameName (methodInit t).name t
  other : (methodInit t).id = .other ↔ ∀ m ∈ methodNames, ¬ SameName t m.name
  /-- No byte behind a name is compared. -/
  inside : ∀ m ∈ comparedNames t, memcmpReach t m.name ≤ m.name.length

/-- The token is neither the beginning of a name, nor does it go on behind one. -/
def Distinct (t : Str) : Prop :=
  ∀ m ∈ methodNames, (t <+: m.name → t = m.name) ∧ (m.name <+: t → m.name = t)

instance (t : Str) : Decidable (Distinct t) := inferInstanceAs (Decidable (∀ m ∈ methodNames, _))

/-- No name is the beginning of another one, whatever the case. -/
theorem methodNames_prefix : ∀ m ∈ methodNames, ∀ m' ∈ methodNames,
    m.name.map toLower <+: m'.name.map toLower → m = m' := by
  decide

theorem methodNames_id : ∀ m ∈ methodNames, m.id ≠ .other := by
  decide

theorem methodNames_inj : ∀ m ∈ methodNames, ∀ m' ∈ methodNames, m.id = m'.id → m = m' := by
  decide

variable {t u : Str}

theorem matchesName_iff (ht : IsMethodToken t) {m : Method} :
    matchesName t m = true ↔ t <+: m.name ∨ SameName t m.name := by
  simp [matchesName, stricmpEq_iff ht.noNul]

/-- The beginning of a name in lower case. -/
theorem prefix_lower {s t : Str} (h : s <+: t) : s.map toLower <+: t.map toLower := h.map toLower

theorem eq_of_prefix_same {s t : Str} (h : s <+: t) (hs : SameName s t) : s = t :=
  h.eq_of_length (by simpa using congrArg List.length hs)

/-- A token that goes on behind a name is taken for none. -/
theorem not_matchesName (ht : IsMethodToken t) {m : Method} (hm : m ∈ methodNames)
    (hp : m.name <+: t) (hne : m.name ≠ t) : ∀ m' ∈ methodNames, ¬ matchesName t m' = true := by
  intro m' hm' hmatch
  have hlower : m.name.map toLower <+: m'.name.map toLower := by
    rcases (matchesName_iff ht).mp hmatch with h | h
    · exact prefix_lower (hp.trans h)
    · rw [← h]
      exact prefix_lower hp
  obtain rfl := methodNames_prefix m hm m' hm' hlower
  rcases (matchesName_iff ht).mp hmatch with h | h
  · exact hne (hp.eq_of_length_le h.length_le)
  · exact hne (eq_of_prefix_same hp h.symm)

/-- A method that is found is in the table, and matches. -/
theorem found {m : Method} (h : methodNames.find? (matchesName t) = some m) :
    m ∈ methodNames ∧ matchesName t m = true :=
  ⟨List.mem_of_find?_eq_some h, by simpa using List.find?_some h⟩

theorem Recognized.distinct (ht : IsMethodToken t) (h : Recognized t) : Distinct t := by
  intro m hm
  constructor
  · intro hp
    -- some name is found, and the token is the same
    cases hf : methodNames.find? (matchesName t) with
    | none =>
        have := List.find?_eq_none.mp hf m hm
        exact absurd ((matchesName_iff ht).mpr (.inl hp)) this
    | some m' =>
        have hname : SameName m'.name t := by
          have hn := h.name
          rw [methodInit_eq, hf] at hn
          exact hn
        have hlower : m'.name.map toLower <+: m.name.map toLower := by
          rw [hname]
          exact prefix_lower hp
        obtain rfl := methodNames_prefix m' (found hf).1 m hm hlower
        exact eq_of_prefix_same hp hname.symm
  · intro hp
    by_contra hne
    have hno := not_matchesName ht hm hp hne
    have hin : m ∈ comparedNames t := by
      unfold comparedNames
      rw [List.mem_append]
      left
      rw [List.takeWhile_eq_self_iff.mpr fun x hx => by simpa using hno x hx]
      exact hm
    exact memcmpReach_le_iff.mp (h.inside m hin) ⟨hp, hne⟩

theorem Distinct.recognized (ht : IsMethodToken t) (h : Distinct t) : Recognized t := by
  have hsame : ∀ m ∈ methodNames, matchesName t m = true → SameName t m.name := by
    intro m hm hmatch
    rcases (matchesName_iff ht).mp hmatch with hp | hs
    · rw [(h m hm).1 hp]
      rfl
    · exact hs
  have hinside : ∀ m ∈ comparedNames t, memcmpReach t m.name ≤ m.name.length := by
    intro m hm
    have hm' : m ∈ methodNames := by
      rcases List.mem_append.mp hm with hm | hm
      · exact (List.takeWhile_subset _) hm
      · exact List.mem_of_find?_eq_some (Option.mem_toList.mp hm)
    exact memcmpReach_le_iff.mpr fun hp => hp.2 ((h m hm').2 hp.1)
  cases hf : methodNames.find? (matchesName t) with
  | none =>
      have hinit : methodInit t = ⟨.other, t⟩ := by rw [methodInit_eq, hf]
      refine ⟨by rw [hinit]; rfl, ?_, hinside⟩
      rw [hinit]
      refine iff_of_true rfl fun m hm hs => ?_
      exact List.find?_eq_none.mp hf m hm ((matchesName_iff ht).mpr (.inr hs))
  | some m =>
      have hinit : methodInit t = m := by rw [methodInit_eq, hf]
      have hs := hsame m (found hf).1 (found hf).2
      refine ⟨by rw [hinit]; exact hs.symm, ?_, hinside⟩
      rw [hinit]
      exact iff_of_false (methodNames_id m (found hf).1) fun hall => hall m (found hf).1 hs

/-- Methods that compare equal have the same name. -/
theorem sameName_of_methodCmp (ht : Recognized t) (hu : Recognized u)
    (h : methodCmp (methodInit t) (methodInit u) = 0) : SameName t u := by
  unfold methodCmp at h
  by_cases hid : (methodInit t).id = (methodInit u).id
  · rw [if_pos hid] at h
    by_cases hother : (methodInit t).id = .other
    · rw [if_neg (not_not.mpr hother)] at h
      exact ht.name.symm.trans ((congrArg _ (pjStrcmp_eq_zero.mp h)).trans hu.name)
    · -- the same entry of the table
      have hin : ∀ s, (methodInit s).id ≠ .other → methodInit s ∈ methodNames := by
        intro s hs
        rw [methodInit_eq] at hs ⊢
        cases hf : methodNames.find? (matchesName s) with
        | none => rw [hf] at hs; exact absurd rfl hs
        | some m => exact (found hf).1
      have heq := methodNames_inj _ (hin t hother) _ (hin u (hid ▸ hother)) hid
      exact ht.name.symm.trans ((congrArg (fun m : Method => m.name.map toLower) heq).trans hu.name)
  · rw [if_neg hid] at h
    split at h <;> exact absurd h (by decide)

/-- **The recognition of methods**: two tokens are recognized as they should be, with equal methods for the same
names only, exactly if neither is the beginning of a name of the table or goes on behind one. -/
theorem recognized_iff (ht : IsMethodToken t) (hu : IsMethodToken u) :
    (Recognized t ∧ Recognized u ∧
        (methodCmp (methodInit t) (methodInit u) = 0 → SameName t u)) ↔
      Distinct t ∧ Distinct u := by
  constructor
  · rintro ⟨hrt, hru, -⟩
    exact ⟨hrt.distinct ht, hru.distinct hu⟩
  · rintro ⟨hdt, hdu⟩
    have hrt := hdt.recognized ht
    have hru := hdu.recognized hu
    exact ⟨hrt, hru, sameName_of_methodCmp hrt hru⟩

/-- MESSAGE and invite are recognized. -/
theorem recognized_message :
    Recognized (str ['M', 'E', 'S', 'S', 'A', 'G', 'E']) ∧
      Recognized (str ['i', 'n', 'v', 'i', 't', 'e']) :=
  have h := (@recognized_iff (str ['M', 'E', 'S', 'S', 'A', 'G', 'E'])
    (str ['i', 'n', 'v', 'i', 't', 'e']) ⟨by decide +kernel, by decide +kernel⟩
    ⟨by decide +kernel, by decide +kernel⟩).mpr ⟨by decide +kernel, by decide +kernel⟩
  ⟨h.1, h.2.1⟩

/-- IN is taken for INVITE. -/
theorem not_recognized_in :
    IsMethodToken (str ['I', 'N']) ∧ (methodInit (str ['I', 'N'])).id = .invite ∧
      ¬ Recognized (str ['I', 'N']) :=
  ⟨⟨by decide +kernel, by decide +kernel⟩, by decide +kernel,
    fun h => absurd h.name (by unfold SameName; decide)⟩

end SipParser
