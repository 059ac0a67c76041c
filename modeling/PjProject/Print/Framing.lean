import PjProject.Print.Message

set_option autoImplicit false

/-! # Printed messages are framed as printed

`print_framed_iff`: `pjsip_find_msg` finds the length that `pjsip_msg_print` returned if and only if
the body is shorter than 100000 bytes. There is space for five digits of its length
(`clenDigits_value`), so of a longer one the first five are printed.

`isSection_of_lines` is the other half: a section of lines that no Content-Length stands in but the
last one.
-/

namespace SipPrint

open Sip
open SipParser (Param MediaType tokenSpec)
open Sdp (Str str crlf pjUtoa isDigit toLower)
open Scan (isSpace isNewline)

/-! ## Lines -/

/-- A text without a line end. -/
def Plain (s : Str) : Prop := ∀ c ∈ s, c ≠ 13 ∧ c ≠ 10

instance (s : Str) : Decidable (Plain s) := List.decidableBAll (fun c => c ≠ 13 ∧ c ≠ 10) s

/-- The text is a Content-Length header, or the compact form of it. -/
def IsClenField (t : Str) : Prop :=
  ∃ name w rest, t = name ++ (w ++ 58 :: rest) ∧ IsClenName name ∧ Spaces w

/-- The text of a header that is no Content-Length: it has a colon, and no line end. -/
structure FieldText (t : Str) : Prop where
  plain : Plain t
  colon : 58 ∈ t
  other : ¬ IsClenField t

theorem Plain.append {s t : Str} (hs : Plain s) (ht : Plain t) : Plain (s ++ t) := by
  intro c hc
  rcases List.mem_append.mp hc with hc | hc
  · exact hs c hc
  · exact ht c hc

/-- The characters that a name does not have. -/
def separators : Str := [13, 10, 58, 32, 9]

theorem not_separator {c : UInt8} (h : c ∉ separators) : c ≠ 13 ∧ c ≠ 10 := by
  constructor
  · rintro rfl
    exact h (by decide)
  · rintro rfl
    exact h (by decide)

/-- The name of the header has no separators. -/
theorem clenName_mem {name : Str} (h : IsClenName name) {c : UInt8} (hc : c ∈ name) :
    c ∉ separators := by
  have hmem : toLower c ∈ name.map toLower := List.mem_map_of_mem hc
  have hno : ∀ x ∈ separators, toLower x ∉ contentLengthStr ∧ toLower x ∉ ([108] : Str) := by decide +kernel
  intro hsep
  rcases h with h | h
  · rw [h] at hmem
    exact (hno c hsep).1 hmem
  · rw [h] at hmem
    exact (hno c hsep).2 hmem

theorem clenName_plain {name : Str} (h : IsClenName name) : Plain name :=
  fun _ hc => not_separator (clenName_mem h hc)

theorem spaces_mem {w : Str} (h : Spaces w) {c : UInt8} (hc : c ∈ w) : c ≠ 13 ∧ c ≠ 10 ∧ c ≠ 58 := by
  rcases (space_ne (h c hc)).2.2.2 with rfl | rfl
  · decide
  · decide

/-- Two texts with a line end behind them begin in the same way. -/
theorem plain_prefix {s t r r' : Str} {c : UInt8} (hs : Plain s) (ht : Plain t)
    (hc : c = 13 ∨ c = 10) (h : s ++ c :: r = t ++ 13 :: r') : s = t := by
  rcases List.append_eq_append_iff.mp h with ⟨m, rfl, hm⟩ | ⟨m, rfl, hm⟩
  · cases m with
    | nil => exact (List.append_nil s).symm
    | cons x m =>
        obtain rfl := (List.cons.inj hm).1
        have hx := ht c (List.mem_append_right s List.mem_cons_self)
        exact absurd hc (not_or.mpr hx)
  · cases m with
    | nil => exact List.append_nil t
    | cons x m =>
        obtain rfl := (List.cons.inj hm).1
        exact absurd rfl (hs 13 (List.mem_append_right t List.mem_cons_self)).1

/-- A header that is no Content-Length is not read as one, whatever follows its line. -/
theorem FieldText.not_clenLike {t : Str} (h : FieldText t) (rest d : Str) :
    ¬ ClenLike (t ++ 13 :: rest) d := by
  rintro ⟨name, w, w', rest', htext, hname, hw, -⟩
  have hplain : Plain name := clenName_plain hname
  cases hw with
  | spaces hw =>
      -- The colon stands in the line, so the line is the header.
      have hws : Plain w := fun c hc => ⟨(spaces_mem hw hc).1, (spaces_mem hw hc).2.1⟩
      have hsplit : t ++ 13 :: rest = (name ++ w) ++ 58 :: (w' ++ (d ++ rest')) := by
        rw [htext, List.append_assoc]
      rcases List.append_eq_append_iff.mp hsplit with ⟨m, hm, hrest⟩ | ⟨m, hm, hrest⟩
      · cases m with
        | nil => exact absurd (List.cons.inj hrest).1 (by decide)
        | cons x m =>
            obtain rfl := (List.cons.inj hrest).1
            have hmem : (13 : UInt8) ∈ name ++ w := by
              rw [hm]
              exact List.mem_append_right t List.mem_cons_self
            exact absurd rfl ((hplain.append hws) 13 hmem).1
      · cases m with
        | nil => exact absurd (List.cons.inj hrest).1 (by decide)
        | cons x m =>
            obtain rfl := (List.cons.inj hrest).1
            refine h.other ⟨name, w, m, ?_, hname, hw⟩
            rw [hm, List.append_assoc]
  | @fold w nl w'' hw hnl hw'' hne =>
      -- The line ends before the colon, and has none.
      have hws : Plain w := fun c hc => ⟨(spaces_mem hw hc).1, (spaces_mem hw hc).2.1⟩
      have hend : ∃ c r, (c = 13 ∨ c = 10) ∧ (name ++ w) ++ c :: r = t ++ 13 :: rest := by
        rcases List.mem_cons.mp hnl with rfl | hnl
        · exact ⟨13, _, Or.inl rfl, by rw [htext]; simp only [List.append_assoc]; rfl⟩
        · rcases List.mem_cons.mp hnl with rfl | hnl
          · exact ⟨10, _, Or.inr rfl, by rw [htext]; simp only [List.append_assoc]; rfl⟩
          · rw [List.mem_singleton.mp hnl] at htext
            exact ⟨13, _, Or.inl rfl, by rw [htext]; simp only [List.append_assoc]; rfl⟩
      rcases hend with ⟨c, r, hc, hsame⟩
      have hcolon := h.colon
      rw [← plain_prefix (hplain.append hws) h.plain hc hsame] at hcolon
      rcases List.mem_append.mp hcolon with hcolon | hcolon
      · exact clenName_mem hname hcolon (by decide)
      · exact (spaces_mem hw hcolon).2.2 rfl

/-- A text is read as one number at most. -/
theorem clenLike_unique {t d d' : Str} (h : ClenLike t d) (h' : ClenLike t d') : d = d' := by
  -- The name says which of the two readings it is.
  have hone : ∀ {d}, likeNumber t 14 = some d → ∀ {d'}, likeNumber t 1 = some d' → False := by
    intro d hd d' hd'
    unfold likeNumber at hd hd'
    split_ifs at hd hd' with h14 h1
    cases t with
    | nil => exact absurd h1 (by decide)
    | cons c t =>
        have hc : toLower c = 108 := by
          rcases h1 with h1 | h1
          · have hlen := congrArg List.length h1
            simp [contentLengthStr, str] at hlen
          · exact (List.cons.inj h1).1
        rcases h14 with h14 | h14
        · have hc' : toLower c = 99 := (List.cons.inj h14).1
          rw [hc] at hc'
          exact absurd hc' (by decide)
        · -- The text is one character.
          have hlen := congrArg List.length h14
          simp only [List.length_map, List.length_take, List.length_cons, List.length_nil] at hlen
          have ht : t = [] := List.length_eq_zero_iff.mp (by omega)
          rw [ht] at hd
          cases hd
  rcases likeNumber_of_like h with h | h
  · rcases likeNumber_of_like h' with h' | h'
    · exact Option.some.inj (h.symm.trans h')
    · exact (hone h h').elim
  · rcases likeNumber_of_like h' with h' | h'
    · exact (hone h' h).elim
    · exact Option.some.inj (h.symm.trans h')

/-! ## Sections of lines -/

theorem endHdrPos_cons {c : UInt8} {l : Str} (h : ¬ [10, 13, 10].isPrefixOf (c :: l) = true) :
    endHdrPos (c :: l) = (endHdrPos l).map (· + 1) := if_neg h

/-- A line feed is in no empty line unless an empty line follows. -/
theorem endHdrPos_newline {c : UInt8} {l : Str} (h : c ≠ 13) :
    endHdrPos (10 :: c :: l) = (endHdrPos (c :: l)).map (· + 1) := by
  refine endHdrPos_cons ?_
  intro hpre
  simp only [List.isPrefixOf, Bool.and_eq_true, beq_iff_eq] at hpre
  exact h hpre.2.1.symm

theorem endHdrPos_line {t : Str} (ht : Plain t) (l : Str) :
    endHdrPos (t ++ 13 :: l) = (endHdrPos l).map (· + (t.length + 1)) := by
  induction t with
  | nil => exact endHdrPos_cons (by simp [List.isPrefixOf])
  | cons c t ih =>
      have hc : ¬ [10, 13, 10].isPrefixOf (c :: (t ++ 13 :: l)) = true := by
        intro hpre
        simp only [List.isPrefixOf, Bool.and_eq_true, beq_iff_eq] at hpre
        exact (ht c List.mem_cons_self).2 hpre.1.symm
      rw [List.cons_append, endHdrPos_cons hc, ih fun x hx => ht x (List.mem_cons_of_mem c hx),
        Option.map_map]
      congr 1

/-- The first empty line is the one behind the lines. -/
theorem endHdrPos_section (x : Str) : ∀ (lines : List Str) (t : Str), Plain t →
    (∀ t ∈ lines, Plain t ∧ t ≠ []) →
    endHdrPos (sectionText (t :: lines) ++ (crlf ++ x)) =
      some ((sectionText (t :: lines)).length - 1)
  | [], t, ht, _ => by
      rw [sectionText_cons, List.append_assoc, List.cons_append, endHdrPos_line ht]
      have hend : endHdrPos ((10 :: sectionText []) ++ (crlf ++ x)) = some 0 := rfl
      rw [hend]
      simp [sectionText]
  | t' :: lines, t, ht, hlines => by
      rcases hlines t' List.mem_cons_self with ⟨ht', hne⟩
      have ih := endHdrPos_section x lines t' ht' fun s hs => hlines s (List.mem_cons_of_mem t' hs)
      rw [sectionText_cons, List.append_assoc, List.cons_append, endHdrPos_line ht]
      cases t' with
      | nil => exact absurd rfl hne
      | cons c t' =>
          have hc := (ht' c List.mem_cons_self).1
          have hpos : 0 < (sectionText ((c :: t') :: lines)).length := by
            rw [sectionText_cons]
            simp
          have hnl : endHdrPos ((10 :: sectionText ((c :: t') :: lines)) ++ (crlf ++ x)) =
              (endHdrPos (sectionText ((c :: t') :: lines) ++ (crlf ++ x))).map (· + 1) := by
            rw [sectionText_cons]
            exact endHdrPos_newline hc
          rw [hnl, ih]
          simp only [Option.map_some, List.length_append, List.length_cons]
          congr 1
          omega

/-- What stands behind a line feed of a section are the lines that follow. -/
theorem headerLine_lines : ∀ (lines : List Str) (text : Str), (∀ t ∈ lines, Plain t) →
    HeaderLine (sectionText lines ++ crlf) text →
    text = [] ∨ ∃ t l, t :: l <:+ lines ∧ text = sectionText l ++ crlf
  | [], text, _, ⟨pre, h⟩ => by
      have hcrlf : [13, 10] = pre ++ 10 :: text := h
      rcases pre with _ | ⟨a, _ | ⟨b, pre⟩⟩
      · exact absurd (List.cons.inj hcrlf).1 (by decide)
      · exact Or.inl (List.cons.inj (List.cons.inj hcrlf).2).2.symm
      · have := congrArg List.length hcrlf
        simp at this
  | t :: lines, text, hplain, ⟨pre, h⟩ => by
      have ht := hplain t List.mem_cons_self
      rw [sectionText_cons, List.append_assoc, List.cons_append, List.cons_append] at h
      -- The line feed is the one of the first line, or it stands in the other lines.
      rcases List.append_eq_append_iff.mp h with ⟨m, hm, hrest⟩ | ⟨m, hm, hrest⟩
      · rcases m with _ | ⟨a, _ | ⟨b, m⟩⟩
        · exact absurd (List.cons.inj hrest).1 (by decide)
        · exact Or.inr ⟨t, lines, List.suffix_refl _,
            (List.cons.inj (List.cons.inj hrest).2).2.symm⟩
        · have hmore : sectionText lines ++ crlf = m ++ 10 :: text :=
            (List.cons.inj (List.cons.inj hrest).2).2
          rcases headerLine_lines lines text (fun s hs => hplain s (List.mem_cons_of_mem t hs))
            ⟨m, hmore⟩ with hnil | ⟨t', l, hl, htext⟩
          · exact Or.inl hnil
          · exact Or.inr ⟨t', l, hl.trans (List.suffix_cons t lines), htext⟩
      · cases m with
        | nil => exact absurd (List.cons.inj hrest).1 (by decide)
        | cons x m =>
            obtain rfl := (List.cons.inj hrest).1
            exact absurd rfl (ht 10 (hm ▸ List.mem_append_right pre List.mem_cons_self)).2

theorem not_clenLike_crlf (d : Str) : ¬ ClenLike crlf d := by
  rintro ⟨name, w, w', rest, htext, hname, -⟩
  cases name with
  | nil => rcases hname with h | h <;> cases h
  | cons c name =>
      have hc : (13 : UInt8) = c := (List.cons.inj htext).1
      exact (clenName_plain hname c List.mem_cons_self).1 hc.symm

/-- **A section of lines** with a Content-Length in the last one and in no other has the number of
it. -/
theorem isSection_of_lines {start last d : Str} {lines : List Str} {n : Nat} (hstart : Plain start)
    (hlines : ∀ t ∈ lines, FieldText t) (hlast : Plain last)
    (hheader : ∀ rest, ClenHeader (last ++ 13 :: 10 :: 13 :: rest) d)
    (hvalue : numberVal d = n) (hsmall : n < 2147483648) :
    IsSection (sectionText (start :: (lines ++ [last])) ++ crlf) n := by
  have hnumber : IsNumber d := by
    rcases hheader [] with ⟨_, _, _, _, _, _, _, _, _, hd, _⟩
    exact hd
  have hne : last ≠ [] := by
    rintro rfl
    have hread := lengthField_of_header (hheader [])
    rw [show lengthField ([] ++ 13 :: 10 :: 13 :: []) = none from rfl] at hread
    cases hread
  have hplain : ∀ t ∈ lines ++ [last], Plain t ∧ t ≠ [] := by
    intro t ht
    rcases List.mem_append.mp ht with ht | ht
    · exact ⟨(hlines t ht).plain, fun hnil => by simpa [hnil] using (hlines t ht).colon⟩
    · rw [List.mem_singleton.mp ht]
      exact ⟨hlast, hne⟩
  have hlike : ClenLike (last ++ 13 :: 10 :: crlf) d :=
    clenLike_of_lengthField (lengthField_of_header (hheader [10]))
  refine ⟨?_, ?_, ?_, hsmall⟩
  · have hend := endHdrPos_section [] (lines ++ [last]) start hstart hplain
    rw [List.append_nil] at hend
    rw [hend, List.length_append]
    rfl
  · refine ⟨last ++ 13 :: 10 :: 13 :: [10], d, ?_, hheader [10], hvalue⟩
    -- The line before ends where the last one begins.
    have hbefore : ∃ pre, sectionText (start :: lines) = pre ++ [10] := by
      cases lines.eq_nil_or_concat with
      | inl hnil =>
          rw [hnil]
          exact ⟨start ++ [13], by simp [sectionText, crlf]⟩
      | inr hconcat =>
          rcases hconcat with ⟨l, t, rfl⟩
          refine ⟨sectionText (start :: l) ++ (t ++ [13]), ?_⟩
          rw [List.concat_eq_append, ← List.cons_append, sectionText_append]
          simp [sectionText, crlf]
    rcases hbefore with ⟨pre, hpre⟩
    refine ⟨pre, ?_⟩
    rw [← List.cons_append, sectionText_append, hpre]
    simp [sectionText, crlf]
  · intro text d' hline hlike'
    have hall : ∀ t ∈ start :: (lines ++ [last]), Plain t := by
      intro t ht
      rcases List.mem_cons.mp ht with rfl | ht
      · exact hstart
      · exact (hplain t ht).1
    rcases headerLine_lines _ _ hall hline with rfl | ⟨t, l, hl, rfl⟩
    · rcases hlike' with ⟨name, w, w', rest, htext, _⟩
      exact absurd htext.symm (by simp)
    · -- The lines that follow begin with one of the headers, or with the last one.
      have hsuffix : l <:+ lines ++ [last] := by
        rcases hl with ⟨pre, hpre⟩
        cases pre with
        | nil => exact ⟨[], (List.cons.inj hpre).2⟩
        | cons a pre => exact (List.suffix_cons t l).trans ⟨pre, (List.cons.inj hpre).2⟩
      cases l with
      | nil => exact absurd hlike' (not_clenLike_crlf d')
      | cons t' l =>
          rw [sectionText_cons, List.append_assoc, List.cons_append, List.cons_append] at hlike'
          rcases hsuffix with ⟨pre, hpre⟩
          rcases List.eq_nil_or_concat l with rfl | ⟨l', z, rfl⟩
          · have hlast' : t' = last := by
              have h1 := congrArg List.getLast? hpre
              rw [List.getLast?_append, List.getLast?_append] at h1
              exact Option.some.inj h1
            rw [hlast'] at hlike'
            rw [clenLike_unique hlike' hlike, hvalue]
          · have hmem : t' ∈ lines := by
              rw [List.concat_eq_append, ← List.cons_append, ← List.append_assoc] at hpre
              rw [← (List.append_inj' hpre rfl).1]
              simp
            exact absurd hlike' ((hlines t' hmem).not_clenLike _ d')

/-! ## The number of a Content-Length -/

theorem numberVal_foldl_lt : ∀ (d : Str) (v : Nat), (∀ x ∈ d, isDigit x = true) →
    d.foldl (fun v c => v * 10 + (c.toNat - 48)) v < (v + 1) * 10 ^ d.length
  | [], v, _ => by simp
  | c :: d, v, h => by
      have hc : c.toNat ≤ 57 := by
        have hdigit := h c List.mem_cons_self
        unfold isDigit at hdigit
        rw [Bool.and_eq_true, decide_eq_true_eq, decide_eq_true_eq] at hdigit
        exact UInt8.le_iff_toNat_le.mp hdigit.2
      have ih := numberVal_foldl_lt d (v * 10 + (c.toNat - 48)) fun x hx =>
        h x (List.mem_cons_of_mem c hx)
      calc (c :: d).foldl (fun v c => v * 10 + (c.toNat - 48)) v
          < (v * 10 + (c.toNat - 48) + 1) * 10 ^ d.length := ih
        _ ≤ ((v + 1) * 10) * 10 ^ d.length := Nat.mul_le_mul_right _ (by omega)
        _ = (v + 1) * 10 ^ (c :: d).length := by rw [List.length_cons, Nat.pow_succ]; ring

theorem numberVal_lt {d : Str} (h : ∀ x ∈ d, isDigit x = true) : numberVal d < 10 ^ d.length := by
  have hlt := numberVal_foldl_lt d 0 h
  rw [Nat.zero_add, Nat.one_mul] at hlt
  exact hlt

theorem clenDigits_number (len : Nat) : IsNumber (clenDigits len) := by
  constructor
  · intro hnil
    have hlen := congrArg List.length hnil
    have hpos := List.length_pos_iff.mpr (Sdp.pjUtoa_ne_nil len)
    rw [clenDigits, List.length_take, List.length_nil, clenSpace] at hlen
    omega
  · exact fun x hx => Sdp.pjUtoa_digits len x (List.mem_of_mem_take hx)

/-- **The digits there is space for** are the length of a body below 100000 bytes, and less than it
for a longer one. -/
theorem clenDigits_value (len : Nat) :
    (len < 100000 → numberVal (clenDigits len) = len) ∧ numberVal (clenDigits len) < 100000 := by
  have hlt := numberVal_lt (clenDigits_number len).2
  have hpow : 10 ^ (clenDigits len).length ≤ 10 ^ 5 :=
    Nat.pow_le_pow_right (by omega) (clenDigits_length len)
  have hsmall : numberVal (clenDigits len) < 100000 := by omega
  refine ⟨fun hlen => ?_, hsmall⟩
  have hall : clenDigits len = pjUtoa len := by
    refine List.take_of_length_le ?_
    exact Sdp.pjUtoa_length 4 (by omega)
  have hread := pjStrtoul_number (clenDigits_number len)
  rw [Nat.mod_eq_of_lt (by omega), hall, Sdp.pjStrtoul_pjUtoa (by omega)] at hread
  rw [hall, ← hread]

/-- The number behind `"Content-Length: "`, with blanks in front of it. -/
theorem clenValue_spec (body : Option PjsipMsgBody) :
    Spaces (clenValue body).1 ∧ IsNumber (clenValue body).2 := by
  cases body with
  | none =>
      constructor
      · intro x hx
        rw [List.mem_singleton.mp hx]
        rfl
      · exact ⟨nofun, fun x hx => by rw [List.mem_singleton.mp hx]; rfl⟩
  | some body =>
      refine ⟨fun x hx => ?_, clenDigits_number _⟩
      rw [(List.mem_replicate.mp hx).2]
      rfl

theorem clenHdr_eq (compact : Bool) : ∃ name, IsClenName name ∧ clenHdr compact = name ++ [58, 32] := by
  cases compact with
  | false =>
      exact ⟨str ['C', 'o', 'n', 't', 'e', 'n', 't', '-', 'L', 'e', 'n', 'g', 't', 'h'],
        Or.inl (by decide), rfl⟩
  | true => exact ⟨[108], Or.inr (by decide), rfl⟩

/-- The line that is printed for the length is read. -/
theorem clenLine_header (compact : Bool) (body : Option PjsipMsgBody) (rest : Str) :
    ClenHeader (clenLine compact body ++ 13 :: 10 :: 13 :: rest) (clenValue body).2 := by
  rcases clenHdr_eq compact with ⟨name, hname, hclen⟩
  rcases clenValue_spec body with ⟨hblanks, hnumber⟩
  refine ⟨name, [], [32] ++ (clenValue body).1, [], 13 :: rest, ?_, hname, nofun, Lws.spaces ?_,
    hnumber, nofun, rfl⟩
  · unfold clenLine
    rw [hclen]
    simp only [List.append_assoc, List.cons_append, List.nil_append]
  · intro x hx
    rcases List.mem_append.mp hx with hx | hx
    · rw [List.mem_singleton.mp hx]
      rfl
    · exact hblanks x hx

theorem clenLine_plain (compact : Bool) (body : Option PjsipMsgBody) :
    Plain (clenLine compact body) := by
  rcases clenHdr_eq compact with ⟨name, hname, hclen⟩
  rcases clenValue_spec body with ⟨hblanks, hnumber⟩
  have hhdr : Plain (clenHdr compact) := by
    rw [hclen]
    refine Plain.append (clenName_plain hname) ?_
    decide
  refine hhdr.append (Plain.append (fun c hc => ?_) fun c hc => ?_)
  · exact ⟨(spaces_mem hblanks hc).1, (spaces_mem hblanks hc).2.1⟩
  · have hdigit := hnumber.2 c hc
    constructor
    · rintro rfl
      cases hdigit
    · rintro rfl
      cases hdigit

/-! ## Messages -/

/-- A content type whose strings have no line end. -/
structure PlainMedia (media : MediaType) : Prop where
  type : Plain media.type
  subtype : Plain media.subtype
  param : ∀ p ∈ media.param, Plain p.name ∧ Plain p.value

/-- The strings of a start line have no line end. -/
def MsgLine.IsPlain : MsgLine → Prop
  | .request method uri => Plain method ∧ ∀ n u, uri n = some u → Plain u
  | .status _ reason => Plain reason

/-- A message that has no Content-Length header and no line end in a string of its header section.
Its body, if it has one, has a content type. -/
structure PjsipMsg.Printable (msg : PjsipMsg) : Prop where
  line : msg.line.IsPlain
  hdr : ∀ h ∈ msg.hdr, ∀ n t, h.printOn n = some t → t ≠ [] → FieldText t
  body : ∀ b ∈ msg.body, b.contentType.type ≠ [] ∧ PlainMedia b.contentType

theorem escape_plain {unres : Scan.PjCis} {s : Str} (h : Plain s) : Plain (escape unres s) := by
  intro c hc
  rcases mem_escape hc with ⟨_, hs⟩ | rfl | hx
  · exact h c hs
  · decide
  · constructor
    · rintro rfl
      cases hx
    · rintro rfl
      cases hx

theorem plain_singleton {c : UInt8} (h13 : c ≠ 13) (h10 : c ≠ 10) : Plain [c] := by
  intro x hx
  rw [List.mem_singleton.mp hx]
  exact ⟨h13, h10⟩

theorem valueText_plain {spec : Scan.PjCis} {value : Str} (h : Plain value) :
    Plain (valueText spec value) := by
  unfold valueText
  split
  · refine (plain_singleton (by decide) (by decide)).append ?_
    split
    · exact h
    · exact escape_plain h
  · exact nofun

theorem paramsText_plain {nameSpec valueSpec : Scan.PjCis} : ∀ {l : List Param} {sep : UInt8},
    (∀ p ∈ l, Plain p.name ∧ Plain p.value) → sep ≠ 13 → sep ≠ 10 →
    Plain (paramsText nameSpec valueSpec l sep)
  | [], _, _, _, _ => nofun
  | p :: l, sep, h, h13, h10 => by
      rcases h p List.mem_cons_self with ⟨hname, hvalue⟩
      have hrest : Plain (paramsText nameSpec valueSpec l (if sep = 63 then 38 else sep)) := by
        refine paramsText_plain (fun q hq => h q (List.mem_cons_of_mem p hq)) ?_ ?_
        · split
          · decide
          · exact h13
        · split
          · decide
          · exact h10
      exact (plain_singleton h13 h10).append
        ((escape_plain hname).append ((valueText_plain hvalue).append hrest))

/-- A Content-Length begins with one of its names. -/
theorem IsClenField.name {t : Str} (h : IsClenField t) :
    (t.take 14).map toLower = contentLengthStr ∨ (t.take 1).map toLower = [108] := by
  rcases h with ⟨name, w, rest, rfl, hname | hname, _⟩
  · have hlen : name.length = 14 := by
      have h := congrArg List.length hname
      rw [List.length_map] at h
      exact h
    rw [List.take_left' hlen]
    exact Or.inl hname
  · have hlen : name.length = 1 := by
      have h := congrArg List.length hname
      rw [List.length_map] at h
      exact h
    rw [List.take_left' hlen]
    exact Or.inr hname

theorem not_isClenField_ctype (compact : Bool) (x : Str) : ¬ IsClenField (ctypeHdr compact ++ x) := by
  intro h
  cases compact with
  | false =>
      rcases h.name with h | h
      · exact absurd h (by simp [ctypeHdr, str, contentLengthStr, toLower])
      · exact absurd h (by simp [ctypeHdr, str, toLower])
  | true =>
      rcases h.name with h | h
      · exact absurd (List.cons.inj (List.cons.inj h).2).1 (by decide)
      · exact absurd (List.cons.inj h).1 (by decide)

/-- The Content-Type is a header, with or without its text. -/
theorem ctype_fieldText (compact : Bool) {media : MediaType} (h : PlainMedia media) :
    FieldText (ctypeHdr compact ++ mediaText media) ∧ FieldText (ctypeHdr compact).dropLast := by
  have hhdr : Plain (ctypeHdr compact) ∧ 58 ∈ ctypeHdr compact := by
    unfold Plain
    cases compact with
    | false => decide +kernel
    | true => decide +kernel
  have hmedia : Plain (mediaText media) := by
    refine h.type.append ((plain_singleton (by decide) (by decide)).append (h.subtype.append ?_))
    exact paramsText_plain h.param (by decide) (by decide)
  constructor
  · exact ⟨hhdr.1.append hmedia, List.mem_append_left _ hhdr.2, not_isClenField_ctype compact _⟩
  · refine ⟨?_, ?_, ?_⟩
    · exact fun c hc => hhdr.1 c (List.mem_of_mem_dropLast hc)
    · cases compact with
      | false => decide
      | true => decide
    · intro hclen
      cases compact with
      | false | true =>
          rcases hclen.name with h | h
          · exact absurd h (by decide)
          · exact absurd h (by decide)

theorem MsgLine.Prints.plain {line : MsgLine} {t : Str} (h : line.Prints t) (hline : line.IsPlain) :
    Plain t := by
  cases line with
  | request method uri =>
      rcases h with ⟨n, u, hu, rfl⟩
      refine hline.1.append ((plain_singleton (by decide) (by decide)).append
        ((hline.2 n u hu).append ?_))
      decide
  | status code reason =>
      obtain rfl := h
      refine Plain.append ?_ (Plain.append ?_ ((plain_singleton (by decide) (by decide)).append hline))
      · decide
      · intro c hc
        have hdigit := Sdp.pjUtoa_digits _ c hc
        constructor
        · rintro rfl
          cases hdigit
        · rintro rfl
          cases hdigit

/-- **A printed message** is a header section, with the number that there is space for, and the
body. -/
theorem printed_section {compact : Bool} {msg : PjsipMsg} {size : Nat} {text : Str}
    (hmsg : msg.Printable) (h : pjsipMsgPrint compact msg size = some text) :
    ∃ head, text = head ++ msg.bytes ∧ IsSection head (numberVal (clenValue msg.body).2) := by
  rcases msgPrint_lines (fun b hb => (hmsg.body b hb).1) h with ⟨start, lines, hstart, hlines, rfl⟩
  refine ⟨_, (List.append_assoc _ crlf msg.bytes).symm, ?_⟩
  refine isSection_of_lines (hstart.plain hmsg.line) ?_ (clenLine_plain compact msg.body)
    (clenLine_header compact msg.body) rfl ?_
  · intro t ht
    rcases hlines t ht with ⟨hne, hdr, hmem, n, hprint⟩ | ⟨b, hb, rfl | rfl⟩
    · exact hmsg.hdr hdr hmem n t hprint hne
    · exact (ctype_fieldText compact (hmsg.body b hb).2).1
    · exact (ctype_fieldText compact (hmsg.body b hb).2).2
  · cases msg.body with
    | none => decide
    | some body =>
        have hvalue := (clenDigits_value body.bytes.length).2
        show numberVal (clenDigits body.bytes.length) < 2147483648
        omega

/-- The length that is found in a printed message. -/
theorem printed_findMsg {compact : Bool} {msg : PjsipMsg} {size : Nat} {text : Str}
    (hmsg : msg.Printable) (h : pjsipMsgPrint compact msg size = some text) (x : Str) :
    pjsipFindMsg (text ++ x) false =
      .ok (.success (text.length - msg.bytes.length + numberVal (clenValue msg.body).2)) := by
  rcases printed_section hmsg h with ⟨head, rfl, hsection⟩
  have hle : numberVal (clenValue msg.body).2 ≤ msg.bytes.length := by
    unfold PjsipMsg.bytes
    cases msg.body with
    | none => exact Nat.le_refl 0
    | some body =>
        show numberVal (clenDigits body.bytes.length) ≤ body.bytes.length
        rcases clenDigits_value body.bytes.length with ⟨hsmall, hlt⟩
        by_cases hlen : body.bytes.length < 100000
        · exact (hsmall hlen).le
        · omega
  rw [List.append_assoc, hsection.findMsg, if_pos, List.length_append, Nat.add_sub_cancel]
  simp only [List.length_append]
  omega

/-- **Printed messages are framed as printed** if and only if the body is shorter than 100000 bytes:
there is space for five digits of its length. -/
theorem print_framed_iff (compact : Bool) (msg : PjsipMsg) (size : Nat) (text : Str)
    (hmsg : msg.Printable) (h : pjsipMsgPrint compact msg size = some text) :
    (∀ x, pjsipFindMsg (text ++ x) false = .ok (.success text.length)) ↔
      ∀ b ∈ msg.body, b.bytes.length < 100000 := by
  have hlen : msg.bytes.length ≤ text.length := by
    rcases printed_section hmsg h with ⟨head, rfl, -⟩
    rw [List.length_append]
    omega
  -- The number is the length of the body.
  have hiff : numberVal (clenValue msg.body).2 = msg.bytes.length ↔
      ∀ b ∈ msg.body, b.bytes.length < 100000 := by
    unfold PjsipMsg.bytes
    cases msg.body with
    | none => exact ⟨fun _ => nofun, fun _ => rfl⟩
    | some body =>
        show numberVal (clenDigits body.bytes.length) = body.bytes.length ↔ _
        rcases clenDigits_value body.bytes.length with ⟨hsmall, hlt⟩
        constructor
        · intro heq b hb
          obtain rfl := Option.some.inj hb
          omega
        · intro hall
          exact hsmall (hall body rfl)
  rw [← hiff]
  constructor
  · intro hall
    have hfound := (printed_findMsg hmsg h []).symm.trans (hall [])
    have hsize := FindMsg.success.inj (Except.ok.inj hfound)
    omega
  · intro heq x
    rw [printed_findMsg hmsg h x, heq]
    congr 2
    omega

/-! ## A concrete message -/

/-- A generic header is no Content-Length if it does not have the name of it. -/
theorem genericString_fieldText {hname hvalue : Str} (hn : ∀ c ∈ hname, c ∉ separators)
    (hv : Plain hvalue) (hother : ¬ IsClenName hname) : FieldText (hname ++ ([58, 32] ++ hvalue)) := by
  have hplain : Plain hname := fun c hc => not_separator (hn c hc)
  refine ⟨hplain.append (Plain.append (by decide) hv), by simp, ?_⟩
  rintro ⟨name, w, rest, htext, hname', hw⟩
  -- Both names end at the first separator.
  have hfirst : ∀ {s r : Str} {a : UInt8}, (∀ c ∈ s, c ∉ separators) → a ∈ separators →
      (s ++ a :: r).takeWhile (fun c => decide (c ∉ separators)) = s := by
    intro s r a hs ha
    rw [List.takeWhile_append_of_pos fun c hc => decide_eq_true (hs c hc),
      List.takeWhile_cons_of_neg (by simp [ha]), List.append_nil]
  have hleft := hfirst (r := 32 :: hvalue) (a := 58) hn (by decide)
  have hright : (name ++ (w ++ 58 :: rest)).takeWhile (fun c => decide (c ∉ separators)) = name := by
    cases w with
    | nil => exact hfirst (fun c hc => clenName_mem hname' hc) (by decide)
    | cons x w =>
        refine hfirst (fun c hc => clenName_mem hname' hc) ?_
        rcases (space_ne (hw x List.mem_cons_self)).2.2.2 with rfl | rfl
        · decide
        · decide
  have hsame : hname = name := hleft.symm.trans ((congrArg _ htext).trans hright)
  exact hother (hsame ▸ hname')

/-- A print function for `sip:b`. -/
def sampleUri (size : Nat) : Option Str :=
  if size ≤ 5 then none else some (str ['s', 'i', 'p', ':', 'b'])

/-- A request line. -/
def sampleLine : MsgLine := .request (str ['M', 'E', 'S', 'S', 'A', 'G', 'E']) sampleUri

/-- A header. -/
def sampleHdr : PjsipHdr :=
  ⟨pjsipGenericStringHdrPrint (str ['S', 'u', 'b', 'j', 'e', 'c', 't']) (str ['h', 'i'])⟩

/-- A content type. -/
def sampleMedia : MediaType := ⟨str ['t', 'e', 'x', 't'], str ['p', 'l', 'a', 'i', 'n'], []⟩

/-- A message with this body. -/
def sampleMsg (data : Str) : PjsipMsg where
  line := sampleLine
  hdr := [sampleHdr]
  body := some (.text sampleMedia data)

theorem sampleMsg_printable (data : Str) : (sampleMsg data).Printable := by
  refine ⟨⟨by decide, ?_⟩, ?_, ?_⟩
  · intro n u hu
    unfold sampleUri at hu
    split at hu
    · cases hu
    · rw [← Option.some.inj hu]
      decide
  · intro h hh n t ht _
    rw [List.mem_singleton.mp hh] at ht
    unfold sampleHdr pjsipGenericStringHdrPrint at ht
    dsimp only at ht
    split at ht
    · cases ht
    · rw [← Option.some.inj ht]
      refine genericString_fieldText (by decide +kernel) (by decide +kernel) ?_
      unfold IsClenName
      decide
  · intro b hb
    obtain rfl := Option.some.inj hb
    have htype : sampleMedia.type ≠ [] := by decide
    have hmedia : Plain sampleMedia.type := by decide
    have hsub : Plain sampleMedia.subtype := by decide
    exact ⟨htype, hmedia, hsub, nofun⟩

/-- The section of the message up to the Content-Type. -/
def sampleSection : Str := str "MESSAGE sip:b SIP/2.0\r\nSubject: hi\r\n".toList

/-- The message is printed if there is room for its body. -/
theorem sampleMsg_prints {data : Str} (h : data.length ≤ 100000) :
    ∃ text, pjsipMsgPrint false (sampleMsg data) 200000 = some text := by
  have hhdrs : (printLine 200000 sampleLine).bind (printHdrs 200000 [sampleHdr]) =
      some sampleSection := by decide
  have hctype : printCtype false 200000 sampleMedia sampleSection =
      some (sampleSection ++ str "Content-Type: text/plain\r\n".toList) := by decide
  have hclen : ∃ buf, printClen false 200000
      (sampleSection ++ str "Content-Type: text/plain\r\n".toList) = some buf ∧
      100000 ≤ roomLeft 200000 (buf ++ crlf) := by
    refine ⟨_, rfl, ?_⟩
    decide
  rcases hclen with ⟨buf, hclen, hroom⟩
  have hcontent : printContent 200000 (.text sampleMedia data) buf =
      some (buf ++ crlf ++ data) := by
    have hint : MachineInt.int32 (data.length : Int) = data.length :=
      MachineInt.int32_of_range (by omega) (by omega)
    unfold printContent PjsipMsgBody.text pjsipPrintTextBody
    dsimp only
    rw [hint, if_neg (by omega), Option.map_some]
  have htype : (PjsipMsgBody.text sampleMedia data).contentType.type ≠ [] := by
    show sampleMedia.type ≠ []
    decide
  rcases printBody_some htype hctype hclen hcontent with ⟨text, hbody⟩
  exact ⟨text, msgPrint_some (by omega) hhdrs hbody⟩

/-- A body of 100000 bytes. -/
@[irreducible] def longBody : Str := List.replicate 100000 120

theorem longBody_length : longBody.length = 100000 := by
  unfold longBody
  rw [List.length_replicate]

/-- Of the length 100000, the digits `10000` are printed. -/
theorem print_body_too_long :
    ∃ text, (sampleMsg longBody).Printable ∧
      pjsipMsgPrint false (sampleMsg longBody) 200000 = some text ∧ 0 < text.length ∧
      pjsipFindMsg (text ++ []) false = .ok (.success (text.length - 90000)) := by
  rcases sampleMsg_prints longBody_length.le with ⟨text, h⟩
  have hfind := printed_findMsg (sampleMsg_printable longBody) h []
  rcases printed_section (sampleMsg_printable longBody) h with ⟨head, htext, _⟩
  have hbytes : (sampleMsg longBody).bytes.length = 100000 := longBody_length
  have hvalue : numberVal (clenValue (sampleMsg longBody).body).2 = 10000 := by
    show numberVal (clenDigits longBody.length) = 10000
    rw [longBody_length]
    decide
  have hlen := congrArg List.length htext
  rw [List.length_append, hbytes] at hlen
  have hsum : text.length - 100000 + 10000 = text.length - 90000 := by omega
  refine ⟨text, sampleMsg_printable longBody, h, by omega, ?_⟩
  rw [hfind, hbytes, hvalue, hsum]

theorem print_framed_sample :
    ∃ text, pjsipMsgPrint false (sampleMsg (str ['h', 'e', 'l', 'l', 'o'])) 200000 = some text ∧
      ∀ x, pjsipFindMsg (text ++ x) false = .ok (.success text.length) := by
  rcases sampleMsg_prints (show (str ['h', 'e', 'l', 'l', 'o']).length ≤ 100000 by decide) with
    ⟨text, h⟩
  refine ⟨text, h, (print_framed_iff false _ 200000 text (sampleMsg_printable _) h).mpr ?_⟩
  intro b hb
  obtain rfl := Option.some.inj hb
  decide

end SipPrint
