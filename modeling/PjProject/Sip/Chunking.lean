import Mathlib.Data.List.TakeWhile
import PjProject.Sip.StreamFraming

set_option autoImplicit false

/-! # Messages do not depend on the reads

`stream_chunks`: where a stream is a sequence of messages (`IsMessage`) with line ends between them,
the fragments that `pjsip_tpmgr_receive_packet` gives to the parser are these messages, however the
stream is divided into reads.

A message has a Content-Length that is the length of its body. The header is described by its text:
`ClenHeader` is a header that is valid, and `ClenLike` one that has a number at least; a message may
not have another number in any header of the name. That `pjsip_find_msg` reads such a header does not
depend on what follows the section (`lengthField_end`).
-/

namespace Sip

open MachineInt Scan Outcome Machine
open Sdp (isDigit pjStrtoul toLower addDigit)

/-! ## The messages -/

/-- The name of the header, or its compact form. -/
def IsClenName (name : List UInt8) : Prop :=
  name.map toLower = contentLengthStr ∨ name.map toLower = [108]

/-- Spaces only. -/
def Spaces (w : List UInt8) : Prop := ∀ x ∈ w, isSpace x = true

/-- Linear white space: spaces, with at most one line end before a space. -/
inductive Lws : List UInt8 → Prop where
  | spaces {w : List UInt8} : Spaces w → Lws w
  | fold {w nl w' : List UInt8} : Spaces w → nl ∈ [[13], [10], [13, 10]] → Spaces w' → w' ≠ [] →
      Lws (w ++ (nl ++ w'))

/-- Digits, at least one. -/
def IsNumber (d : List UInt8) : Prop := d ≠ [] ∧ ∀ x ∈ d, isDigit x = true

/-- The value of digits. -/
def numberVal (d : List UInt8) : Nat := d.foldl (fun v c => v * 10 + (c.toNat - 48)) 0

/-- The text starts with a valid Content-Length header: the name, spaces, a colon, white space, the
number, spaces, and a line end that does not continue the header. -/
def ClenHeader (text d : List UInt8) : Prop :=
  ∃ name w w' w'' rest, text = name ++ (w ++ 58 :: (w' ++ (d ++ (w'' ++ 13 :: 10 :: rest)))) ∧
    IsClenName name ∧ Spaces w ∧ Lws w' ∧ IsNumber d ∧ Spaces w'' ∧
    isSpace (rest.headD 0) = false

/-- The text starts with the name, a colon and a number. -/
def ClenLike (text d : List UInt8) : Prop :=
  ∃ name w w' rest, text = name ++ (w ++ 58 :: (w' ++ (d ++ rest))) ∧
    IsClenName name ∧ Lws w ∧ Lws w' ∧ IsNumber d ∧ isDigit (rest.headD 0) = false

/-- The text is what stands behind a line end of the header section. -/
def HeaderLine (head text : List UInt8) : Prop := ∃ pre, head = pre ++ 10 :: text

/-- A header section that ends at its first empty line, with the Content-Length `n`. A second line that
begins like a Content-Length has the same number, whether or not it is well formed behind it. -/
structure IsSection (head : List UInt8) (n : Nat) : Prop where
  section_end : endHdrPos head = some (head.length - 3)
  valid : ∃ text d, HeaderLine head text ∧ ClenHeader text d ∧ numberVal d = n
  agree : ∀ text d, HeaderLine head text → ClenLike text d → numberVal d = n
  small : n < 2147483648

/-- A message: a header section that ends at its first empty line, with a Content-Length that is the
length of the body; every line that begins like a Content-Length has this number. -/
structure IsMessage (head body : List UInt8) : Prop where
  start : isNewline (head.headD 0) = false
  section_end : endHdrPos head = some (head.length - 3)
  valid : ∃ text d, HeaderLine head text ∧ ClenHeader text d ∧ numberVal d = body.length
  agree : ∀ text d, HeaderLine head text → ClenLike text d → numberVal d = body.length
  small : body.length < 2147483648
  fits : head.length + body.length < maxPktLen

theorem IsMessage.toSection {head body : List UInt8} (h : IsMessage head body) :
    IsSection head body.length :=
  ⟨h.section_end, h.valid, h.agree, h.small⟩

/-- A stream of messages, each with its header section and its body, with line ends between them. -/
inductive Stream : List (List UInt8) → List UInt8 → Prop where
  | nil : Stream [] []
  | newline {msgs : List (List UInt8)} {bytes : List UInt8} (c : UInt8) : isNewline c = true →
      Stream msgs bytes → Stream msgs (c :: bytes)
  | message {msgs : List (List UInt8)} {bytes head body : List UInt8} : IsMessage head body →
      Stream msgs bytes → Stream ((head ++ body) :: msgs) ((head ++ body) ++ bytes)

/-! ## The text of a header -/

theorem space_ne {c : UInt8} (h : isSpace c = true) :
    isNewline c = false ∧ isDigit c = false ∧ c ≠ 58 ∧ (c = 32 ∨ c = 9) := by
  unfold isSpace at h
  rcases Bool.or_eq_true_iff.mp h with hc | hc
  · rw [beq_iff_eq.mp hc]
    decide
  · rw [beq_iff_eq.mp hc]
    decide

theorem digit_ne {c : UInt8} (h : isDigit c = true) : isNewline c = false ∧ isSpace c = false := by
  unfold isDigit at h
  rw [Bool.and_eq_true, decide_eq_true_eq, decide_eq_true_eq] at h
  have hne : ∀ x : UInt8, x < 48 → c ≠ x := by
    rintro x hx rfl
    exact absurd h.1 (UInt8.not_le.mpr hx)
  constructor
  · unfold isNewline
    rw [beq_eq_false_iff_ne.mpr (hne 13 (by decide)), beq_eq_false_iff_ne.mpr (hne 10 (by decide))]
    rfl
  · unfold isSpace
    rw [beq_eq_false_iff_ne.mpr (hne 32 (by decide)), beq_eq_false_iff_ne.mpr (hne 9 (by decide))]
    rfl

/-- A line end before a space is skipped with the spaces behind it. -/
theorem afterLws_fold {nl t : List UInt8} {x : UInt8} (hnl : nl ∈ [[13], [10], [13, 10]])
    (hx : isSpace x = true) : afterLws (nl ++ x :: t) = (x :: t).dropWhile isSpace := by
  have hx10 : x ≠ 10 := by
    rcases (space_ne hx).2.2.2 with rfl | rfl
    · decide
    · decide
  have hline : afterNewline (nl ++ x :: t) = x :: t ∧
      isNewline ((nl ++ x :: t).headD 0) = true ∧
      (nl ++ x :: t).dropWhile isSpace = nl ++ x :: t := by
    rcases List.mem_cons.mp hnl with rfl | hnl
    · exact ⟨if_neg hx10, rfl, rfl⟩
    · rcases List.mem_cons.mp hnl with rfl | hnl
      · exact ⟨rfl, rfl, rfl⟩
      · rw [List.mem_singleton.mp hnl]
        exact ⟨rfl, rfl, rfl⟩
  unfold afterLws
  rw [hline.2.2]
  unfold afterFold
  rw [hline.1, hline.2.1, List.headD_cons, hx, Bool.true_and, if_pos rfl]

/-- White space is skipped up to a character that is none. -/
theorem afterLws_lws {w l : List UInt8} (hw : Lws w) (hs : isSpace (l.headD 0) = false)
    (hn : isNewline (l.headD 0) = false) : afterLws (w ++ l) = l := by
  have hdrop : l.dropWhile isSpace = l := by
    cases l with
    | nil => rfl
    | cons c l =>
        rw [List.headD_cons] at hs
        exact List.dropWhile_cons_of_neg (by rw [hs]; exact Bool.false_ne_true)
  cases hw with
  | spaces hw =>
      rw [afterLws_spaces hw]
      unfold afterLws afterFold
      rw [hdrop, hn, Bool.false_and, if_neg Bool.false_ne_true]
  | @fold w nl w' hw hnl hw' hne =>
      cases w' with
      | nil => exact absurd rfl hne
      | cons x w' =>
          rw [List.append_assoc, List.append_assoc, afterLws_spaces hw, List.cons_append,
            afterLws_fold hnl (hw' x List.mem_cons_self), ← List.cons_append,
            List.dropWhile_append_of_pos hw', hdrop]

theorem afterNewline_eq {l : List UInt8} (hn : isNewline (l.headD 0) = true) :
    ∃ nl, nl ∈ [[13], [10], [13, 10]] ∧ l = nl ++ afterNewline l := by
  cases l with
  | nil => cases hn
  | cons c l =>
      rw [List.headD_cons] at hn
      rcases Bool.or_eq_true_iff.mp hn with hc | hc
      · rw [beq_iff_eq.mp hc]
        cases l with
        | nil => exact ⟨[13], by simp, rfl⟩
        | cons d l =>
            by_cases hd : d = 10
            · rw [hd]
              exact ⟨[13, 10], by simp, rfl⟩
            · refine ⟨[13], by simp, ?_⟩
              rw [show afterNewline (13 :: d :: l) = d :: l from if_neg hd]
              rfl
      · rw [beq_iff_eq.mp hc]
        exact ⟨[10], by simp, rfl⟩

/-- What is skipped is white space. -/
theorem lws_afterLws (l : List UInt8) : ∃ w, Lws w ∧ l = w ++ afterLws l := by
  have hspaces : Spaces (l.takeWhile isSpace) := fun x hx => List.mem_takeWhile_imp hx
  have hl := List.takeWhile_append_dropWhile (p := isSpace) (l := l)
  unfold afterLws
  generalize l.dropWhile isSpace = m at hl ⊢
  unfold afterFold
  split
  · rename_i hfold
    rcases Bool.and_eq_true_iff.mp hfold with ⟨hn, hs⟩
    rcases afterNewline_eq hn with ⟨nl, hnl, hm⟩
    have hsplit := List.takeWhile_append_dropWhile (p := isSpace) (l := afterNewline m)
    refine ⟨l.takeWhile isSpace ++ (nl ++ (afterNewline m).takeWhile isSpace),
      Lws.fold hspaces hnl (fun x hx => List.mem_takeWhile_imp hx)
        ((takeWhile_ne_nil_iff isSpace_zero _).mpr hs), ?_⟩
    rw [List.append_assoc, List.append_assoc, hsplit, ← hm, hl]
  · exact ⟨l.takeWhile isSpace, Lws.spaces hspaces, hl.symm⟩

/-- A name before a space or a colon. -/
theorem clenName_of_name {name rest : List UInt8} (hname : IsClenName name)
    (hrest : rest.headD 0 ∈ [32, 9, 58]) : clenName (name ++ rest) = some name.length := by
  unfold clenName
  rcases hname with hname | hname
  · have hlen : name.length = 14 := by
      have h := congrArg List.length hname
      rw [List.length_map] at h
      exact h
    have hhead : toLower ((name ++ rest).headD 0) = 99 := by
      cases name with
      | nil => cases hlen
      | cons c name => exact (List.cons.inj hname).1
    rw [if_pos ⟨hhead, by rw [List.take_left' hlen]; exact hname⟩, hlen]
  · rcases name with _ | ⟨c, name⟩
    · cases hname
    · rcases List.cons.inj hname with ⟨hc, hnil⟩
      obtain rfl := List.map_eq_nil_iff.mp hnil
      have hsecond : ([c] ++ rest).getD 1 0 = rest.headD 0 := by
        cases rest with
        | nil => rfl
        | cons d rest => rfl
      rw [if_neg, if_pos ⟨hc, by rw [hsecond]; exact hrest⟩]
      · rfl
      · rintro ⟨h99, _⟩
        exact absurd (h99.symm.trans hc) (by decide)

theorem name_of_clenName {l : List UInt8} {n : Nat} (h : clenName l = some n) :
    IsClenName (l.take n) := by
  unfold clenName at h
  split at h
  · rename_i hname
    cases h
    exact Or.inl hname.2
  · split at h
    · rename_i hname
      cases h
      cases l with
      | nil => cases hname.1
      | cons c l => exact Or.inr (congrArg (fun x => [x]) hname.1)
    · cases h

theorem takeWhile_number {d rest : List UInt8} (hd : IsNumber d)
    (hrest : isDigit (rest.headD 0) = false) :
    (d ++ rest).takeWhile isDigit = d ∧ (d ++ rest).dropWhile isDigit = rest := by
  rw [List.takeWhile_append_of_pos hd.2, List.dropWhile_append_of_pos hd.2]
  cases rest with
  | nil => exact ⟨List.append_nil d, rfl⟩
  | cons c rest =>
      rw [List.headD_cons] at hrest
      have hneg : ¬ isDigit c = true := by
        rw [hrest]
        exact Bool.false_ne_true
      rw [List.takeWhile_cons_of_neg hneg, List.dropWhile_cons_of_neg hneg]
      exact ⟨List.append_nil d, rfl⟩

theorem number_head {d : List UInt8} (hd : IsNumber d) (rest : List UInt8) :
    isDigit ((d ++ rest).headD 0) = true := by
  cases d with
  | nil => exact absurd rfl hd.1
  | cons c d => exact hd.2 c List.mem_cons_self

/-- A valid header is read. -/
theorem lengthField_of_header {text d : List UInt8} (h : ClenHeader text d) :
    lengthField text = some d := by
  rcases h with ⟨name, w, w', w'', rest, rfl, hname, hw, hw', hd, hw'', hrest⟩
  have hhead : (w ++ 58 :: (w' ++ (d ++ (w'' ++ 13 :: 10 :: rest)))).headD 0 ∈
      ([32, 9, 58] : List UInt8) := by
    cases w with
    | nil => simp
    | cons x w =>
        rcases (space_ne (hw x List.mem_cons_self)).2.2.2 with hx | hx
        · rw [List.cons_append, List.headD_cons, hx]
          simp
        · rw [List.cons_append, List.headD_cons, hx]
          simp
  have hstop : isDigit ((w'' ++ 13 :: 10 :: rest).headD 0) = false := by
    cases w'' with
    | nil => rfl
    | cons x w'' => exact (space_ne (hw'' x List.mem_cons_self)).2.1
  have hend : afterLws (w'' ++ 13 :: 10 :: rest) = 13 :: 10 :: rest := by
    rw [afterLws_spaces hw'']
    exact if_neg (by
      rw [show afterNewline ((13 :: 10 :: rest).dropWhile isSpace) = rest from rfl, hrest, Bool.and_false]
      exact Bool.false_ne_true)
  rcases digit_ne (number_head hd (w'' ++ 13 :: 10 :: rest)) with ⟨hdn, hds⟩
  rcases takeWhile_number hd hstop with ⟨htake, hdrop⟩
  unfold lengthField
  rw [clenName_of_name hname hhead]
  dsimp only
  rw [List.drop_left, afterLws_spaces hw, afterLws_of_head (by decide) (by decide)]
  dsimp only
  rw [if_pos rfl, afterLws_lws hw' hds hdn, htake, hdrop, hend, if_pos ⟨hd.1, rfl⟩]

/-- What is read is a number behind the name and a colon. -/
theorem clenLike_of_lengthField {text d : List UInt8} (h : lengthField text = some d) :
    ClenLike text d := by
  unfold lengthField at h
  cases hname : clenName text with
  | none =>
      rw [hname] at h
      cases h
  | some n =>
      rw [hname] at h
      dsimp only at h
      rcases lws_afterLws (text.drop n) with ⟨w, hw, htext⟩
      cases hafter : afterLws (text.drop n) with
      | nil =>
          rw [hafter] at h
          cases h
      | cons c value =>
          rw [hafter] at h htext
          dsimp only at h
          split_ifs at h with hc hok
          cases h
          rcases lws_afterLws value with ⟨w', hw', hvalue⟩
          have hsplit := List.takeWhile_append_dropWhile (p := isDigit) (l := afterLws value)
          refine ⟨text.take n, w, w', (afterLws value).dropWhile isDigit, ?_,
            name_of_clenName hname, hw, hw',
            ⟨hok.1, fun x hx => List.mem_takeWhile_imp hx⟩, ?_⟩
          · rw [hsplit, ← hvalue, ← hc, ← htext, List.take_append_drop]
          · cases hrest : (afterLws value).dropWhile isDigit with
            | nil => rfl
            | cons x rest =>
                have hx := List.head_dropWhile_not isDigit (l := afterLws value)
                  (by rw [hrest]; exact nofun)
                simp only [hrest, List.head_cons] at hx
                exact hx

/-! ## What follows the section -/

/-- The end of a header section, and what follows it. -/
def sectionEnd (x : List UInt8) : List UInt8 := 10 :: 13 :: 10 :: x

theorem dropWhile_end {p : UInt8 → Bool} (hp : p 10 = false) (q x : List UInt8) :
    (q ++ sectionEnd x).dropWhile p = q.dropWhile p ++ sectionEnd x := by
  induction q with
  | nil => exact List.dropWhile_cons_of_neg (by rw [hp]; exact Bool.false_ne_true)
  | cons c q ih =>
      by_cases hc : p c = true
      · rw [List.cons_append, List.dropWhile_cons_of_pos hc, List.dropWhile_cons_of_pos hc, ih]
      · rw [List.cons_append, List.dropWhile_cons_of_neg hc, List.dropWhile_cons_of_neg hc,
          List.cons_append]

theorem takeWhile_end {p : UInt8 → Bool} (hp : p 10 = false) (q x : List UInt8) :
    (q ++ sectionEnd x).takeWhile p = q.takeWhile p := by
  induction q with
  | nil => exact List.takeWhile_cons_of_neg (by rw [hp]; exact Bool.false_ne_true)
  | cons c q ih =>
      by_cases hc : p c = true
      · rw [List.cons_append, List.takeWhile_cons_of_pos hc, List.takeWhile_cons_of_pos hc, ih]
      · rw [List.cons_append, List.takeWhile_cons_of_neg hc, List.takeWhile_cons_of_neg hc]

theorem headD_end (q x : List UInt8) : (q ++ sectionEnd x).headD 0 = q.headD 10 := by
  cases q with
  | nil => rfl
  | cons c q => rfl

/-- A line end before the end of the section; at the end, the CR of the empty line follows. -/
theorem afterNewline_end (q : List UInt8) :
    (∃ q', ∀ x, afterNewline (q ++ sectionEnd x) = q' ++ sectionEnd x) ∨
      ∀ x, (afterNewline (q ++ sectionEnd x)).headD 0 = 13 := by
  rcases q with _ | ⟨c, q⟩
  · exact Or.inr fun _ => rfl
  · by_cases h13 : c = 13
    · rw [h13]
      rcases q with _ | ⟨d, q⟩
      · exact Or.inr fun _ => rfl
      · by_cases h10 : d = 10
        · rw [h10]
          exact Or.inl ⟨q, fun _ => rfl⟩
        · exact Or.inl ⟨d :: q, fun _ => if_neg h10⟩
    · by_cases h10 : c = 10
      · rw [h10]
        exact Or.inl ⟨q, fun _ => rfl⟩
      · refine Or.inl ⟨c :: q, fun x => ?_⟩
        unfold afterNewline
        rw [List.cons_append, List.headD_cons, if_neg h13]
        exact if_neg h10

/-- White space does not go beyond the section. -/
theorem afterLws_end (q : List UInt8) :
    ∃ q', ∀ x, afterLws (q ++ sectionEnd x) = q' ++ sectionEnd x := by
  have hstay : ∀ x, isSpace ((afterNewline (q.dropWhile isSpace ++ sectionEnd x)).headD 0) = false →
      afterLws (q ++ sectionEnd x) = q.dropWhile isSpace ++ sectionEnd x := by
    intro x hx
    unfold afterLws afterFold
    rw [dropWhile_end rfl, hx, Bool.and_false, if_neg Bool.false_ne_true]
  rcases afterNewline_end (q.dropWhile isSpace) with ⟨q', hq'⟩ | hq
  · by_cases hfold : isNewline ((q.dropWhile isSpace).headD 10) = true ∧
        isSpace (q'.headD 10) = true
    · refine ⟨q'.dropWhile isSpace, fun x => ?_⟩
      unfold afterLws afterFold
      rw [dropWhile_end rfl, hq', headD_end, headD_end, hfold.1, hfold.2, Bool.true_and, if_pos rfl,
        dropWhile_end rfl]
    · refine ⟨q.dropWhile isSpace, fun x => ?_⟩
      unfold afterLws afterFold
      rw [dropWhile_end rfl, hq', headD_end, headD_end, if_neg]
      rwa [Bool.and_eq_true]
  · refine ⟨q.dropWhile isSpace, fun x => hstay x ?_⟩
    rw [hq]
    rfl

/-- The name stands before the end of its line. -/
theorem clenName_end (q x : List UInt8) :
    clenName (q ++ sectionEnd x) = clenName (q ++ sectionEnd []) ∧
      ∀ n, clenName (q ++ sectionEnd x) = some n → n ≤ q.length := by
  have hlf : ∀ y, (q ++ sectionEnd y).getD q.length 0 = 10 := by
    intro y
    rw [getD_eq_headD, List.drop_left]
    rfl
  have hinside : ∀ y n, clenName (q ++ sectionEnd y) = some n → n ≤ q.length := by
    intro y n hn
    by_contra hlt
    exact (clenName_cases hn).2.1 q.length (by omega) (hlf y)
  refine ⟨?_, hinside x⟩
  -- A name that is found stands in `q`, and what follows is a character of `q` or the line feed.
  have hmono : ∀ y z n, clenName (q ++ sectionEnd y) = some n →
      clenName (q ++ sectionEnd z) = some n := by
    intro y z n hn
    have hle := hinside y n hn
    have hsame : ∀ i, i ≤ q.length →
        (q ++ sectionEnd y).getD i 0 = (q ++ sectionEnd z).getD i 0 := by
      intro i hi
      rw [getD_eq_headD, getD_eq_headD, List.drop_append_of_le_length hi,
        List.drop_append_of_le_length hi, headD_end, headD_end]
    have htake : ∀ i, i ≤ q.length →
        (q ++ sectionEnd y).take i = (q ++ sectionEnd z).take i := by
      intro i hi
      rw [List.take_append_of_le_length hi, List.take_append_of_le_length hi]
    have hhead : (q ++ sectionEnd y).headD 0 = (q ++ sectionEnd z).headD 0 := by
      rw [headD_end, headD_end]
    unfold clenName at hn ⊢
    split at hn
    · rename_i hname
      cases hn
      rw [← hhead, ← htake 14 hle]
      exact if_pos hname
    · rename_i hnot
      split at hn
      · rename_i hname
        cases hn
        rw [← hhead, ← hsame 1 hle, if_neg, if_pos hname]
        rintro ⟨h99, _⟩
        exact absurd (h99.symm.trans hname.1) (by decide)
      · cases hn
  cases hx : clenName (q ++ sectionEnd x) with
  | some n => exact (hmono x [] n hx).symm
  | none =>
      cases hy : clenName (q ++ sectionEnd []) with
      | none => rfl
      | some n =>
          rw [hmono [] x n hy] at hx
          cases hx

/-- **The number of a line of the section** does not depend on what follows the section. -/
theorem lengthField_end (q x : List UInt8) :
    lengthField (q ++ sectionEnd x) = lengthField (q ++ sectionEnd []) := by
  rcases clenName_end q x with ⟨hsame, hinside⟩
  unfold lengthField
  rw [← hsame]
  cases hname : clenName (q ++ sectionEnd x) with
  | none => rfl
  | some n =>
      have hn := hinside n hname
      rcases afterLws_end (q.drop n) with ⟨q1, hq1⟩
      dsimp only
      rw [List.drop_append_of_le_length hn, List.drop_append_of_le_length hn, hq1, hq1]
      rcases q1 with _ | ⟨c, q1⟩
      · rfl
      · rcases afterLws_end q1 with ⟨q2, hq2⟩
        rcases afterLws_end (q2.dropWhile isDigit) with ⟨q3, hq3⟩
        dsimp only [List.cons_append]
        rw [hq2, hq2, takeWhile_end rfl, takeWhile_end rfl, dropWhile_end rfl, dropWhile_end rfl, hq3,
          hq3, headD_end, headD_end]

/-! ## The length of a message -/

theorem addDigit_mod (v n : Nat) (h : v = n % 18446744073709551616) (c : UInt8) :
    addDigit v c = (n * 10 + (c.toNat - 48)) % 18446744073709551616 := by
  unfold addDigit
  rw [h, Nat.add_mod, Nat.mul_mod, Nat.mod_mod, ← Nat.mul_mod, ← Nat.add_mod]

theorem foldl_addDigit : ∀ (d : List UInt8) (v n : Nat), v = n % 18446744073709551616 →
    d.foldl addDigit v =
      (d.foldl (fun v c => v * 10 + (c.toNat - 48)) n) % 18446744073709551616
  | [], _, _, h => h
  | c :: d, v, n, h => foldl_addDigit d _ _ (addDigit_mod v n h c)

/-- `pj_strtoul` of a number. -/
theorem pjStrtoul_number {d : List UInt8} (hd : IsNumber d) :
    pjStrtoul d = numberVal d % 18446744073709551616 := by
  unfold pjStrtoul numberVal
  rw [List.takeWhile_eq_self_iff.mpr hd.2]
  exact foldl_addDigit d 0 0 rfl

variable {head body : List UInt8} {n : Nat}

theorem IsSection.section_eq (h : IsSection head n) :
    ∃ pre, head = pre ++ sectionEnd [] ∧ endHdrPos head = some pre.length := by
  have hend := h.section_end
  rcases endHdrPos_eq_some hend with ⟨pre, rest, hhead, hpre⟩
  have hrest : rest = [] := by
    have hlen := congrArg List.length hhead
    rw [List.length_append] at hlen
    simp only [List.length_cons] at hlen
    exact List.length_eq_zero_iff.mp (by omega)
  rw [hrest] at hhead
  exact ⟨pre, hhead, hpre ▸ hend⟩

/-- The length as an `int`. -/
theorem IsSection.int_eq (h : IsSection head n) {d : List UInt8} (hd : IsNumber d)
    (hval : numberVal d = n) : int32 (pjStrtoul d) = n := by
  have hsmall := h.small
  rw [pjStrtoul_number hd, hval, Nat.mod_eq_of_lt (by omega)]
  exact int32_of_range (by omega) (by omega)

/-- A line of the section in a buffer that goes on behind it. -/
theorem line_of_section {pre x : List UInt8} {line : Nat}
    (hline : LineStart (pre ++ sectionEnd x) pre.length 0 line) :
    HeaderLine (pre ++ sectionEnd []) ((pre ++ sectionEnd []).drop line) ∧
      lengthField ((pre ++ sectionEnd x).drop line) =
        lengthField ((pre ++ sectionEnd []).drop line) := by
  have hafter := hline.after
  have hinside := hline.inside
  have hlf := hline.newline
  have hle : line - 1 ≤ pre.length := by omega
  rw [getD_eq_headD, List.drop_append_of_le_length hle, headD_end] at hlf
  constructor
  · refine ⟨(pre ++ sectionEnd []).take (line - 1), ?_⟩
    have hsplit : (pre ++ sectionEnd []).drop (line - 1) =
        10 :: (pre ++ sectionEnd []).drop line := by
      have htail : ((pre ++ sectionEnd []).drop (line - 1)).tail =
          (pre ++ sectionEnd []).drop line := by
        rw [List.tail_drop]
        congr 1
        omega
      have hhead : ((pre ++ sectionEnd []).drop (line - 1)).headD 0 = 10 := by
        rw [List.drop_append_of_le_length hle, headD_end, hlf]
      cases hdrop : (pre ++ sectionEnd []).drop (line - 1) with
      | nil =>
          rw [hdrop] at hhead
          cases hhead
      | cons c l =>
          rw [hdrop] at hhead htail
          rw [← htail, ← hhead]
          rfl
    rw [← hsplit, List.take_append_drop]
  · rcases Nat.lt_or_ge pre.length line with hlt | hle'
    · -- The empty line.
      obtain rfl : line = pre.length + 1 := by omega
      rw [← List.drop_drop, List.drop_left, ← List.drop_drop, List.drop_left]
      rfl
    · rw [List.drop_append_of_le_length hle', List.drop_append_of_le_length hle']
      exact lengthField_end _ _

/-- **The first Content-Length** of a section. -/
theorem IsSection.firstLength (h : IsSection head n) (x : List UInt8) :
    endHdrPos (head ++ x) = some (head.length - 3) ∧
      FirstLength (head ++ x) (head.length - 3) n := by
  have hend := h.section_end
  have hpos : endHdrPos (head ++ x) = some (head.length - 3) := endHdrPos_append hend x
  refine ⟨hpos, ?_⟩
  rcases h.section_eq with ⟨pre, hhead, hpre⟩
  have hlen : head.length - 3 = pre.length := by
    rw [hend] at hpre
    exact Option.some.inj hpre
  have hbuf : head ++ x = pre ++ sectionEnd x := by
    rw [hhead, List.append_assoc]
    rfl
  rcases findMsg_eq hpos with ⟨clen, hfirst, _⟩
  rw [hlen, hbuf] at hfirst ⊢
  -- A line that has a number has this one.
  have hagree : ∀ line, LineStart (pre ++ sectionEnd x) pre.length 0 line →
      clenAt (pre ++ sectionEnd x) line ≠ -1 →
      clenAt (pre ++ sectionEnd x) line = n := by
    intro line hline hne
    rcases line_of_section hline with ⟨htext, hsame⟩
    cases hfield : lengthField ((pre ++ sectionEnd x).drop line) with
    | none =>
        unfold clenAt at hne
        rw [hfield] at hne
        exact absurd rfl hne
    | some d =>
        unfold clenAt
        rw [hfield]
        rw [hsame] at hfield
        rw [← hhead] at hfield htext
        have hlike := clenLike_of_lengthField hfield
        rcases hlike with ⟨_, _, _, _, _, _, _, _, hd, _⟩
        exact h.int_eq hd (h.agree _ d htext (clenLike_of_lengthField hfield))
  cases hfirst with
  | found line hline hval hne hearlier =>
      have hbody := hagree line hline (by rw [hval]; exact hne)
      rw [hval] at hbody
      rw [← hbody]
      exact FirstLength.found line hline hval hne hearlier
  | missing hall =>
      exfalso
      rcases h.valid with ⟨text, d, ⟨before, hsplit⟩, hheader, hval⟩
      have hnumber : IsNumber d := by
        rcases hheader with ⟨_, _, _, _, _, _, _, _, _, hd, _⟩
        exact hd
      have htext : text ≠ [] := by
        rintro rfl
        have := lengthField_of_header hheader
        cases this
      -- The line is not the end of the section.
      have hplace : before.length ≤ pre.length := by
        have hlength := congrArg List.length (hhead.symm.trans hsplit)
        have hpos' := List.length_pos_iff.mpr htext
        simp only [sectionEnd, List.length_append, List.length_cons, List.length_nil] at hlength
        by_contra hcon
        obtain hbl : before.length = pre.length + 1 := by omega
        have hget : (pre ++ sectionEnd []).getD (pre.length + 1) 0 = 10 := by
          rw [← hhead, hsplit, getD_eq_headD, ← hbl, List.drop_left]
          rfl
        rw [getD_eq_headD, ← List.drop_drop, List.drop_left] at hget
        cases hget
      have hline : LineStart (pre ++ sectionEnd x) pre.length 0 (before.length + 1) := by
        refine ⟨Nat.succ_pos _, Nat.succ_le_succ hplace, ?_⟩
        rw [Nat.add_sub_cancel, getD_eq_headD, List.drop_append_of_le_length hplace, headD_end,
          ← headD_end _ [], ← List.drop_append_of_le_length hplace, ← hhead, hsplit, List.drop_left]
        rfl
      have hdrop : head.drop (before.length + 1) = text := by
        rw [hsplit, ← List.drop_drop, List.drop_left]
        rfl
      have hnone := hall _ hline
      unfold clenAt at hnone
      rw [(line_of_section hline).2, ← hhead, hdrop, lengthField_of_header hheader] at hnone
      dsimp only at hnone
      rw [h.int_eq hnumber hval] at hnone
      omega

theorem toSize_natCast (n : Nat) : toSize (n : Int) = n := if_pos (Int.natCast_nonneg n)

theorem IsSection.findMsg (h : IsSection head n) (x : List UInt8) :
    pjsipFindMsg (head ++ x) false = .ok (
      if head.length + n ≤ (head ++ x).length then
        .success (head.length + n)
      else .epartialmsg) := by
  rcases h.firstLength x with ⟨hpos, hfirst⟩
  rcases findMsg_eq hpos with ⟨clen, hfirst', hfind⟩
  obtain rfl := hfirst.unique hfirst'
  have hlen : head.length - 3 + 3 = head.length := by
    rcases h.section_eq with ⟨pre, hhead, _⟩
    rw [hhead]
    simp only [sectionEnd, List.length_append, List.length_cons, List.length_nil]
    omega
  rw [hfind, if_neg (by omega), hlen]
  have hsize : toSize ((head.length : Nat) + (n : Int)) = head.length + n := by
    exact_mod_cast toSize_natCast (head.length + n)
  rw [hsize]

theorem IsMessage.findMsg (h : IsMessage head body) (x : List UInt8) :
    pjsipFindMsg (head ++ x) false = .ok (
      if head.length + body.length ≤ (head ++ x).length then
        .success (head.length + body.length)
      else .epartialmsg) :=
  h.toSection.findMsg x

/-- A complete message is found. -/
theorem IsMessage.findMsg_complete (h : IsMessage head body) (x : List UInt8) :
    pjsipFindMsg ((head ++ body) ++ x) false = .ok (.success (head ++ body).length) := by
  rw [List.append_assoc, h.findMsg, if_pos, List.length_append]
  simp only [List.length_append]
  omega

/-- The beginning of a message is not enough. -/
theorem IsMessage.findMsg_part (h : IsMessage head body) {p y : List UInt8}
    (hsplit : p ++ y = head ++ body) (hy : y ≠ []) :
    pjsipFindMsg p false = .ok .epartialmsg := by
  have hlen := congrArg List.length hsplit
  have hylen := List.length_pos_iff.mpr hy
  rw [List.length_append, List.length_append] at hlen
  rcases Nat.lt_or_ge p.length head.length with hlt | hge
  · refine findMsg_none ?_
    cases hpos : endHdrPos p with
    | none => rfl
    | some pos =>
        have hwhole := endHdrPos_append hpos y
        rw [hsplit, (h.toSection.firstLength body).1] at hwhole
        rcases endHdrPos_eq_some hpos with ⟨pre, rest, hp, hpre⟩
        have hplen := congrArg List.length hp
        rw [List.length_append] at hplen
        simp only [List.length_cons] at hplen
        have := Option.some.inj hwhole
        omega
  · -- The section is complete, and the body is not.
    have hpref : head <+: p :=
      List.prefix_of_prefix_length_le (List.prefix_append head body)
        (hsplit ▸ List.prefix_append p y) hge
    rcases hpref with ⟨b, rfl⟩
    rw [h.findMsg, if_neg]
    omega

/-! ## The reads -/

variable {msgs : List (List UInt8)} {bytes future : List UInt8}

theorem IsMessage.ne_nil (h : IsMessage head body) : head ≠ [] := by
  rintro rfl
  cases h.section_end

/-- The end of a stream. -/
theorem Stream.eq_nil (h : Stream msgs []) : msgs = [] := by
  generalize hb : ([] : List UInt8) = b at h
  cases h with
  | nil => rfl
  | newline c _ _ => cases hb
  | message hm _ =>
      have hnil := List.append_eq_nil_iff.mp hb.symm
      exact absurd (List.append_eq_nil_iff.mp hnil.1).1 hm.ne_nil

/-- A stream begins with a line end or with a message. -/
theorem Stream.cons_cases {c : UInt8} (h : Stream msgs (c :: bytes)) :
    (isNewline c = true ∧ Stream msgs bytes) ∨
      (isNewline c = false ∧ ∃ head body msgs' bytes', msgs = (head ++ body) :: msgs' ∧
        c :: bytes = (head ++ body) ++ bytes' ∧ IsMessage head body ∧ Stream msgs' bytes') := by
  generalize hb : c :: bytes = b at h
  cases h with
  | nil => cases hb
  | newline d hd hrest =>
      cases hb
      exact Or.inl ⟨hd, hrest⟩
  | @message msgs' bytes' head body hm hrest =>
      refine Or.inr ⟨?_, head, body, msgs', bytes', rfl, rfl, hm, hrest⟩
      cases head with
      | nil => exact absurd rfl hm.ne_nil
      | cons d head =>
          cases hb
          exact hm.start

/-- Line ends are dropped. -/
theorem Stream.dropWhile : ∀ (cur : List UInt8), Stream msgs (cur ++ future) →
    Stream msgs (cur.dropWhile isNewline ++ future)
  | [], h => h
  | c :: cur, h => by
      by_cases hc : isNewline c = true
      · rw [List.dropWhile_cons_of_pos hc]
        rcases h.cons_cases with ⟨_, hrest⟩ | ⟨hn, _⟩
        · exact Stream.dropWhile cur hrest
        · rw [hc] at hn
          cases hn
      · rw [List.dropWhile_cons_of_neg hc]
        exact h

/-- The buffer `p` is the beginning of a stream: its first message is complete, or all of `p` is the
beginning of it. -/
theorem Stream.first {p : List UInt8} (h : Stream msgs (p ++ future)) (hp : p ≠ [])
    (hstart : isNewline (p.headD 0) = false) :
    ∃ head body msgs', msgs = (head ++ body) :: msgs' ∧ IsMessage head body ∧
      ((∃ p', p = (head ++ body) ++ p' ∧ Stream msgs' (p' ++ future)) ∨
        ∃ y, y ≠ [] ∧ p ++ y = head ++ body ∧ future ≠ []) := by
  cases p with
  | nil => exact absurd rfl hp
  | cons c p =>
      rcases h.cons_cases with ⟨hn, _⟩ | ⟨_, head, body, msgs', bytes', hmsgs, hbytes, hm, hrest⟩
      · rw [List.headD_cons, hn] at hstart
        cases hstart
      · refine ⟨head, body, msgs', hmsgs, hm, ?_⟩
        change (c :: p) ++ future = (head ++ body) ++ bytes' at hbytes
        rcases List.append_eq_append_iff.mp hbytes with ⟨y, hy, hfuture⟩ | ⟨p', hp', hbytes'⟩
        · cases y with
          | nil =>
              refine Or.inl ⟨[], ?_, ?_⟩
              · rw [List.append_nil, hy, List.append_nil]
              · rw [List.nil_append, hfuture]
                exact hrest
          | cons d y =>
              refine Or.inr ⟨d :: y, nofun, hy.symm, ?_⟩
              rw [hfuture]
              exact nofun
        · exact Or.inl ⟨p', hp', hbytes' ▸ hrest⟩

theorem dropWhile_head {p : UInt8 → Bool} (hp0 : p 0 = false) (l : List UInt8) :
    p ((l.dropWhile p).headD 0) = false := by
  induction l with
  | nil => exact hp0
  | cons c l ih =>
      by_cases hc : p c = true
      · rw [List.dropWhile_cons_of_pos hc]
        exact ih
      · rw [List.dropWhile_cons_of_neg hc]
        exact Bool.eq_false_iff.mpr hc

/-- **The loop over a packet** takes the messages that are complete and the line ends before them. All
messages are taken when nothing is to come. -/
theorem receiveLoop_stream (len : Nat) : ∀ (fuel : Nat) (cur : List UInt8) (r : Received)
    (msgs : List (List UInt8)), cur.length < fuel → Stream msgs (cur ++ future) →
    ∃ r' taken left, receiveLoop false len fuel cur r = .ok r' ∧ msgs = taken ++ left ∧
      r'.fragments = r.fragments ++ taken ∧ r.total ≤ r'.total ∧
      Stream left (cur.drop (r'.total - r.total) ++ future) ∧ (future = [] → left = []) := by
  intro fuel
  induction fuel with
  | zero =>
      intro cur r msgs hfuel _
      omega
  | succ fuel ih =>
      intro cur r msgs hfuel h
      have hsuffix : cur.dropWhile isNewline <:+ cur := List.dropWhile_suffix isNewline
      have hle := hsuffix.length_le
      have hskip : cur.drop (cur.length - (cur.dropWhile isNewline).length) =
          cur.dropWhile isNewline := by
        rcases hsuffix with ⟨nl, hnl⟩
        have hnlen := congrArg List.length hnl
        rw [List.length_append] at hnlen
        conv_lhs => rw [← hnl]
        exact List.drop_left' (by rw [hnl]; omega)
      have hstream := h.dropWhile cur
      have hstart := dropWhile_head (p := isNewline) rfl cur
      rw [receiveLoop]
      -- Nothing is left, only newlines, or the start of a message.
      by_cases hcur : cur = []
      · rw [if_pos hcur]
        refine ⟨r, [], msgs, rfl, rfl, (List.append_nil _).symm, Nat.le_refl _, ?_, ?_⟩
        · rw [Nat.sub_self]
          exact h
        · rintro rfl
          rw [hcur] at h
          exact h.eq_nil
      · rw [if_neg hcur]
        dsimp only
        generalize hp : cur.dropWhile isNewline = p at hle hskip hstream hstart ⊢
        have htake : ∀ n, cur.drop (r.total + (cur.length - p.length) + n - r.total) = p.drop n := by
          intro n
          rw [show r.total + (cur.length - p.length) + n - r.total = (cur.length - p.length) + n by
            omega, ← List.drop_drop, hskip]
        by_cases hpnil : p = []
        · rw [if_pos hpnil]
          refine ⟨_, [], msgs, rfl, rfl, (List.append_nil _).symm, Nat.le_add_right _ _, ?_, ?_⟩
          · dsimp only
            rw [show r.total + (cur.length - p.length) - r.total = (cur.length - p.length) by omega,
              hskip]
            exact hstream
          · rintro rfl
            rw [hpnil] at hstream
            exact hstream.eq_nil
        · rw [if_neg hpnil, if_neg Bool.false_ne_true]
          rcases hstream.first hpnil hstart with ⟨head, body, msgs', hmsgs, hm, hcases⟩
          rcases hcases with ⟨p', hp', hrest⟩ | ⟨y, hy, hsplit, hfuture⟩
          -- The message is complete in the buffer.
          · have hfind : pjsipFindMsg p false = .ok (.success (head ++ body).length) := by
              rw [hp']
              exact hm.findMsg_complete p'
            have hpos : 0 < (head ++ body).length := by
              rw [List.length_append]
              have := List.length_pos_iff.mpr hm.ne_nil
              omega
            have hdrop : p.drop (head ++ body).length = p' := by
              rw [hp', List.drop_left]
            have hplen : p.length = (head ++ body).length + p'.length := by
              exact (congrArg List.length hp').trans List.length_append
            rw [hfind, ok_bind]
            dsimp only
            rw [hdrop]
            rcases ih p'
                { r with
                  total := r.total + (cur.length - p.length) + (head ++ body).length
                  fragments := r.fragments ++ [p.take (head ++ body).length]
                  nuls := r.nuls ++ [r.total + (cur.length - p.length) + (head ++ body).length] }
                msgs' (by omega) hrest with
              ⟨r', taken, left, hloop, hsplit, hfrag, hmono, hleft, hend⟩
            dsimp only at hfrag hmono hleft
            refine ⟨r', (head ++ body) :: taken, left, hloop, ?_, ?_, by omega, ?_, hend⟩
            · rw [hmsgs, hsplit]
              rfl
            · rw [hfrag, hp', List.take_left, List.append_assoc]
              rfl
            · rw [← hdrop, List.drop_drop] at hleft
              have hplace := htake ((head ++ body).length +
                (r'.total - (r.total + (cur.length - p.length) + (head ++ body).length)))
              rw [show r.total + (cur.length - p.length) + ((head ++ body).length +
                (r'.total - (r.total + (cur.length - p.length) + (head ++ body).length))) =
                r'.total by omega] at hplace
              rw [hplace]
              exact hleft
          · have hfits := hm.fits
            have hplen := congrArg List.length hsplit
            have hylen := List.length_pos_iff.mpr hy
            rw [List.length_append, List.length_append] at hplen
            rw [hm.findMsg_part hsplit hy, ok_bind, if_neg (by omega)]
            refine ⟨_, [], msgs, rfl, rfl, (List.append_nil _).symm, Nat.le_add_right _ _, ?_,
              fun hnil => absurd hnil hfuture⟩
            have hplace := htake 0
            rw [Nat.add_zero, List.drop_zero] at hplace
            dsimp only
            rw [hplace]
            exact hstream

theorem receivePacket_stream {pkt : List UInt8} (hne : pkt ≠ []) (h : Stream msgs (pkt ++ future)) :
    ∃ r taken left, pjsipTpmgrReceivePacket false pkt = .ok r ∧ msgs = taken ++ left ∧
      r.fragments = taken ∧ Stream left (pkt.drop r.total ++ future) ∧ (future = [] → left = []) := by
  rcases receiveLoop_stream pkt.length (pkt.length + 1) pkt ⟨0, [], [pkt.length], false⟩
    msgs (Nat.lt_succ_self _) h with ⟨r, taken, left, hloop, hsplit, hfrag, _, hleft, hend⟩
  refine ⟨r, taken, left, ?_, hsplit, hfrag, hleft, hend⟩
  unfold pjsipTpmgrReceivePacket
  rw [if_neg hne]
  exact hloop

/-- The reads from a connection that keeps the beginning of a stream. -/
theorem onDataRead_stream : ∀ (reads : List (List UInt8)) (c : Connection) (left : List (List UInt8)),
    (∀ data ∈ reads, data ≠ []) → Stream left (c.remainder ++ reads.flatten) →
    (reads = [] → left = []) →
    ∃ c', run onDataRead c reads = .ok c' ∧ c'.fragments = c.fragments ++ left
  | [], c, left, _, _, hend => by
      refine ⟨c, rfl, ?_⟩
      rw [hend rfl, List.append_nil]
  | data :: reads, c, left, hne, h, _ => by
      have hdata := hne data List.mem_cons_self
      have hpkt : c.remainder ++ data ≠ [] := fun hnil => hdata (List.append_eq_nil_iff.mp hnil).2
      rw [List.flatten_cons, ← List.append_assoc] at h
      rcases receivePacket_stream hpkt h with ⟨r, taken, left', hrecv, hsplit, hfrag, hleft, hend⟩
      have hstep : onDataRead c data =
          .ok ⟨(c.remainder ++ data).drop r.total, c.fragments ++ r.fragments⟩ := by
        unfold onDataRead
        dsimp only
        rw [hrecv]
        rfl
      have hlast : reads = [] → left' = [] := by
        rintro rfl
        exact hend rfl
      rcases onDataRead_stream reads ⟨(c.remainder ++ data).drop r.total, c.fragments ++ r.fragments⟩
        left' (fun d hd => hne d (List.mem_cons_of_mem data hd)) hleft hlast with ⟨c', hrun, hall⟩
      refine ⟨c', ?_, ?_⟩
      · rw [run_cons_ok hstep]
        exact hrun
      · rw [hall, hfrag, hsplit, List.append_assoc]

/-- **Framing does not depend on the reads.** The fragments of a stream of messages are the messages,
for every way of dividing the stream into reads. -/
theorem stream_chunks (msgs : List (List UInt8)) (reads : List (List UInt8))
    (hne : ∀ data ∈ reads, data ≠ []) (h : Stream msgs reads.flatten) :
    ∃ c, run onDataRead ⟨[], []⟩ reads = .ok c ∧ c.fragments = msgs := by
  refine onDataRead_stream reads ⟨[], []⟩ msgs hne h ?_
  rintro rfl
  exact h.eq_nil

/-! ## A concrete stream -/

/-- The number of a header with a name of `n` characters. -/
def likeNumber (text : List UInt8) (n : Nat) : Option (List UInt8) :=
  if (text.take n).map toLower = contentLengthStr ∨ (text.take n).map toLower = [108] then
    match afterLws (text.drop n) with
    | 58 :: rest => some ((afterLws rest).takeWhile isDigit)
    | _ => none
  else none

theorem likeNumber_of_like {text d : List UInt8} (h : ClenLike text d) :
    likeNumber text 14 = some d ∨ likeNumber text 1 = some d := by
  rcases h with ⟨name, w, w', rest, htext, hname, hw, hw', hd, hrest⟩
  have hread : likeNumber text name.length = some d := by
    rcases digit_ne (number_head hd rest) with ⟨hdn, hds⟩
    unfold IsClenName at hname
    unfold likeNumber
    rw [htext, List.take_left, List.drop_left, if_pos hname,
      afterLws_lws (l := 58 :: (w' ++ (d ++ rest))) hw rfl rfl]
    show some ((afterLws (w' ++ (d ++ rest))).takeWhile isDigit) = some d
    rw [afterLws_lws hw' hds hdn, (takeWhile_number hd hrest).1]
  rcases hname with hname | hname
  · have hlen := congrArg List.length hname
    rw [List.length_map] at hlen
    rw [hlen] at hread
    exact Or.inl hread
  · have hlen := congrArg List.length hname
    rw [List.length_map] at hlen
    rw [hlen] at hread
    exact Or.inr hread

/-- The number of every header of the name in the section is `n`. -/
def agrees (head : List UInt8) (n : Nat) : Bool :=
  (List.range head.length).all fun i => head.getD i 0 != 10 ||
    [14, 1].all fun k => (likeNumber (head.drop (i + 1)) k).all fun d => numberVal d == n

theorem agree_of_agrees {head : List UInt8} {n : Nat} (h : agrees head n = true)
    (text d : List UInt8) (hline : HeaderLine head text) (hlike : ClenLike text d) :
    numberVal d = n := by
  rcases hline with ⟨pre, rfl⟩
  have hi := List.all_eq_true.mp h pre.length (List.mem_range.mpr (by simp))
  have hlf : (pre ++ 10 :: text).getD pre.length 0 = 10 := by
    rw [getD_eq_headD, List.drop_left]
    rfl
  have hdrop : (pre ++ 10 :: text).drop (pre.length + 1) = text := by
    rw [← List.drop_drop, List.drop_left]
    rfl
  rw [hlf, hdrop, show ((10 : UInt8) != 10) = false from rfl, Bool.false_or] at hi
  rcases likeNumber_of_like hlike with hread | hread
  · have hk := List.all_eq_true.mp hi 14 (by simp)
    rw [hread] at hk
    exact beq_iff_eq.mp hk
  · have hk := List.all_eq_true.mp hi 1 (by simp)
    rw [hread] at hk
    exact beq_iff_eq.mp hk

/-- A message with a body that has an empty line and looks like a header. -/
def sampleHead : List UInt8 := Sdp.str "A b\r\nContent-Length : 8\r\nX: y\r\n\r\n".toList

/-- The body of it. -/
def sampleBody : List UInt8 := Sdp.str "\nl: 1\n\r\n".toList

theorem sample_message : IsMessage sampleHead sampleBody := by
  refine ⟨by decide +kernel, by decide +kernel, ?_, agree_of_agrees (by decide +kernel),
    by decide +kernel, by decide +kernel⟩
  refine ⟨Sdp.str "Content-Length : 8\r\nX: y\r\n\r\n".toList, Sdp.str ['8'],
    ⟨Sdp.str "A b\r".toList, by decide +kernel⟩, ?_, by decide +kernel⟩
  refine ⟨Sdp.str "Content-Length".toList, Sdp.str [' '], Sdp.str [' '], [],
    Sdp.str "X: y\r\n\r\n".toList, by decide +kernel, Or.inl (by decide +kernel), ?_,
    Lws.spaces ?_, ⟨by decide +kernel, ?_⟩, nofun, by decide +kernel⟩
  · unfold Spaces
    decide +kernel
  · unfold Spaces
    decide +kernel
  · decide +kernel

/-- The reads cut the first message in its section and the second one in its body. -/
theorem sample_chunks :
    ∃ c, run onDataRead ⟨[], []⟩
      [sampleHead.take 12, sampleHead.drop 12 ++ (sampleBody ++ 13 :: (sampleHead ++ sampleBody.take 3)),
        sampleBody.drop 3] = .ok c ∧
      c.fragments = [sampleHead ++ sampleBody, sampleHead ++ sampleBody] := by
  refine stream_chunks _ _ (by decide +kernel) ?_
  have hflat : [sampleHead.take 12,
      sampleHead.drop 12 ++ (sampleBody ++ 13 :: (sampleHead ++ sampleBody.take 3)),
      sampleBody.drop 3].flatten =
      (sampleHead ++ sampleBody) ++ 13 :: ((sampleHead ++ sampleBody) ++ []) := by
    decide +kernel
  rw [hflat]
  exact Stream.message sample_message
    (Stream.newline 13 rfl (Stream.message sample_message Stream.nil))

end Sip
