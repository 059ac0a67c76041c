import Mathlib.Tactic

set_option autoImplicit false

/-! # Printing into a buffer, piece by piece

A text is printed as a list of pieces. A piece asks for room, or is written without a look at it; it
may touch bytes behind its text, which the next piece writes over. A part that is refused is refused
as a whole, unless its caller does not see that.

`print_iff`: a text is printed or refused, and nothing written outside the room, if and only if the
pieces stay inside (`Stays`), which is said piece by piece, and of lists in `stays_append` and
`stays_flatMap`.
-/

namespace Pieces

variable {α β : Type}

/-- How printing can end other than with a text: it is refused, it writes outside the room, or something
goes wrong that its caller does not see. -/
inductive Stop where
  | refused
  | outside
  | unseen
  deriving DecidableEq

/-- A text, the room it asks for, how many bytes are touched behind it, and whether the caller sees
that it is refused. -/
structure Piece (α : Type) where
  asks : Nat → Bool
  text : List α
  behind : Nat
  seen : Bool

/-- A piece that is written without a look at the room. -/
def put (s : List α) : Piece α := ⟨fun _ => true, s, 0, true⟩

/-- A check that the room is at least `n`. -/
def need (n : Nat) : Piece α := ⟨fun room => decide (n ≤ room), [], 0, true⟩

/-- A text in front of which the room is compared with `n`. -/
def check (n : Nat) (s : List α) : Piece α := ⟨fun room => decide (n ≤ room), s, 0, true⟩

/-- A byte that ends the text and is no part of it. -/
def terminate : Piece α := ⟨fun _ => true, [], 1, true⟩

/-- Nothing is printed. -/
def refuse : Piece α := ⟨fun _ => false, [], 0, true⟩

/-- Something goes wrong, whatever the room: memory is read that is not the object's, or an assertion is
false. -/
def stray : Piece α := ⟨fun _ => false, [], 0, false⟩

/-- The text of the pieces. -/
def text (l : List (Piece α)) : List α := l.flatMap (·.text)

/-- The room left behind the pieces. -/
def left (l : List (Piece α)) (room : Nat) : Nat := room - (text l).length

/-- Print the pieces, with this much room. -/
def print : List (Piece α) → Nat → Except Stop (List α)
  | [], _ => .ok []
  | p :: l, room =>
      if p.asks room then
        if p.text.length + p.behind ≤ room then
          (print l (room - p.text.length)).map (p.text ++ ·)
        else .error .outside
      else .error (if p.seen then .refused else .unseen)

/-- Every piece gets the room it asks for. -/
def Fits : List (Piece α) → Nat → Prop
  | [], _ => True
  | p :: l, room => p.asks room = true ∧ Fits l (room - p.text.length)

/-- Every piece that gets the room it asks for has the room it needs, and if one does not, the caller
sees it. -/
def Stays : List (Piece α) → Nat → Prop
  | [], _ => True
  | p :: l, room =>
      (p.asks room = true → p.text.length + p.behind ≤ room ∧ Stays l (room - p.text.length)) ∧
        (p.asks room = false → p.seen = true)

instance Fits.decide : ∀ (l : List (Piece α)) (room : Nat), Decidable (Fits l room)
  | [], _ => inferInstanceAs (Decidable True)
  | p :: l, room =>
      haveI := Fits.decide l (room - p.text.length)
      inferInstanceAs (Decidable (p.asks room = true ∧ Fits l (room - p.text.length)))

/-- The text is printed or refused, inside the room. -/
def Inside (room : Nat) (x : Except Stop (List α)) : Prop :=
  x = .error .refused ∨ ∃ t, x = .ok t ∧ t.length ≤ room

section

variable {l l' : List (Piece α)} {p : Piece α} {room : Nat} {t : List α}

@[simp] theorem text_nil : text ([] : List (Piece α)) = [] := rfl

@[simp] theorem text_cons : text (p :: l) = p.text ++ text l := rfl

@[simp] theorem text_append : text (l ++ l') = text l ++ text l' := List.flatMap_append

@[simp] theorem left_nil : left ([] : List (Piece α)) room = room := rfl

theorem left_cons : left (p :: l) room = left l (room - p.text.length) := by
  unfold left
  rw [text_cons, List.length_append, Nat.sub_sub]

theorem left_append : left (l ++ l') room = left l' (left l room) := by
  unfold left
  rw [text_append, List.length_append, Nat.sub_sub]

@[simp] theorem put_text (s : List α) : (put s).text = s := rfl

@[simp] theorem check_text (n : Nat) (s : List α) : (check n s).text = s := rfl

@[simp] theorem need_text (n : Nat) : (need n : Piece α).text = [] := rfl

@[simp] theorem terminate_text : (terminate : Piece α).text = [] := rfl

@[simp] theorem refuse_text : (refuse : Piece α).text = [] := rfl

@[simp] theorem fits_nil : Fits ([] : List (Piece α)) room := trivial

@[simp] theorem stays_nil : Stays ([] : List (Piece α)) room := trivial

theorem fits_cons : Fits (p :: l) room ↔ p.asks room = true ∧ Fits l (room - p.text.length) := Iff.rfl

theorem stays_cons : Stays (p :: l) room ↔
    (p.asks room = true → p.text.length + p.behind ≤ room ∧ Stays l (room - p.text.length)) ∧
      (p.asks room = false → p.seen = true) := Iff.rfl

theorem fits_append : Fits (l ++ l') room ↔ Fits l room ∧ Fits l' (left l room) := by
  induction l generalizing room with
  | nil => simp
  | cons p l ih => rw [List.cons_append, fits_cons, fits_cons, ih, and_assoc, left_cons]

/-- One list of pieces behind the other. -/
theorem stays_append : Stays (l ++ l') room ↔
    Stays l room ∧ (Fits l room → Stays l' (left l room)) := by
  induction l generalizing room with
  | nil => simp
  | cons p l ih =>
      rw [List.cons_append, stays_cons, stays_cons, fits_cons, ih, left_cons]
      tauto

/-- A text that is printed stays inside. -/
theorem Stays.length_le (h : Stays l room) (hf : Fits l room) : (text l).length ≤ room := by
  induction l generalizing room with
  | nil => exact Nat.zero_le room
  | cons p l ih =>
      have hp := h.1 hf.1
      have hl := ih hp.2 hf.2
      rw [text_cons, List.length_append]
      omega

theorem print_cons : print (p :: l) room =
    if p.asks room then
      if p.text.length + p.behind ≤ room then
        (print l (room - p.text.length)).map (p.text ++ ·)
      else .error .outside
    else .error (if p.seen then .refused else .unseen) := rfl

/-- What is printed, if all of it fits. -/
theorem print_of_fits (h : Stays l room) (hf : Fits l room) : print l room = .ok (text l) := by
  induction l generalizing room with
  | nil => rfl
  | cons p l ih =>
      have hp := h.1 hf.1
      rw [print_cons, if_pos hf.1, if_pos hp.1, ih hp.2 hf.2]
      rfl

theorem print_of_not_fits (h : Stays l room) (hf : ¬ Fits l room) :
    print l room = .error .refused := by
  induction l generalizing room with
  | nil => exact absurd fits_nil hf
  | cons p l ih =>
      by_cases hp : p.asks room = true
      · rw [print_cons, if_pos hp, if_pos (h.1 hp).1, ih (h.1 hp).2 fun hl => hf ⟨hp, hl⟩]
        rfl
      · have hseen := h.2 (Bool.not_eq_true _ ▸ hp)
        rw [print_cons, if_neg hp, if_pos hseen]

theorem print_ok (h : print l room = .ok t) : Stays l room ∧ Fits l room := by
  induction l generalizing room t with
  | nil => exact ⟨stays_nil, fits_nil⟩
  | cons p l ih =>
      rw [print_cons] at h
      by_cases hp : p.asks room = true
      · rw [if_pos hp] at h
        split_ifs at h with hlen
        cases hl : print l (room - p.text.length) with
        | error e =>
            rw [hl] at h
            cases h
        | ok t' =>
            have hrest := ih hl
            exact ⟨⟨fun _ => ⟨hlen, hrest.1⟩, fun hno => by rw [hp] at hno; cases hno⟩, hp, hrest.2⟩
      · rw [if_neg hp] at h
        cases h

theorem print_refused (h : print l room = .error .refused) : Stays l room := by
  induction l generalizing room with
  | nil => exact stays_nil
  | cons p l ih =>
      rw [print_cons] at h
      by_cases hp : p.asks room = true
      · rw [if_pos hp] at h
        split_ifs at h with hlen
        · cases hl : print l (room - p.text.length) with
          | error e =>
              rw [hl] at h
              cases h
              exact ⟨fun _ => ⟨hlen, ih hl⟩, fun hno => by rw [hp] at hno; cases hno⟩
          | ok t' =>
              rw [hl] at h
              cases h
        · cases h
      · rw [if_neg hp] at h
        refine ⟨fun hyes => absurd hyes hp, fun _ => ?_⟩
        by_contra hseen
        rw [if_neg hseen] at h
        cases h

/-- **The text is printed or refused, inside the room,** if and only if the pieces stay inside. -/
theorem print_iff : Inside room (print l room) ↔ Stays l room := by
  constructor
  · rintro (h | ⟨t, h, -⟩)
    · exact print_refused h
    · exact (print_ok h).1
  · intro h
    by_cases hf : Fits l room
    · exact Or.inr ⟨text l, print_of_fits h hf, h.length_le hf⟩
    · exact Or.inl (print_of_not_fits h hf)

theorem inside_of_length {x : Except Stop (List α)} {n : Nat} (h : x.map List.length = .ok n)
    (hn : n ≤ room) : Inside room x := by
  cases x with
  | error e => cases h
  | ok t =>
      have hlen : t.length = n := Except.ok.inj h
      exact Or.inr ⟨t, rfl, hlen.trans_le hn⟩

/-- What is done behind the pieces. -/
theorem inside_bind {f : List α → Except Stop (List α)} : Inside room (print l room >>= f) ↔
    Stays l room ∧ (Fits l room → Inside room (f (text l))) := by
  by_cases hs : Stays l room
  · by_cases hf : Fits l room
    · rw [print_of_fits hs hf]
      exact ⟨fun h => ⟨hs, fun _ => h⟩, fun h => h.2 hf⟩
    · rw [print_of_not_fits hs hf]
      exact ⟨fun _ => ⟨hs, fun h => absurd h hf⟩, fun _ => Or.inl rfl⟩
  · -- What is printed is no text then, and is not refused.
    have hno : ¬ Inside room (print l room) := fun h => hs (print_iff.mp h)
    cases hl : print l room with
    | ok t => exact absurd (print_ok hl).1 hs
    | error e =>
        rw [hl] at hno
        refine ⟨?_, fun h => absurd h.1 hs⟩
        rintro (h | ⟨t, h, -⟩)
        · exact absurd (Or.inl h) hno
        · cases h

/-- The pieces of a list are printed one element after the other. -/
theorem stays_flatMap {f : β → List (Piece α)} {bs : List β} : Stays (bs.flatMap f) room ↔
    ∀ front b back, bs = front ++ b :: back → Fits (front.flatMap f) room →
      Stays (f b) (left (front.flatMap f) room) := by
  induction bs generalizing room with
  | nil => simp
  | cons b bs ih =>
      rw [List.flatMap_cons, stays_append, ih]
      constructor
      · rintro ⟨hb, hbs⟩ front c back heq hfits
        cases front with
        | nil =>
            obtain rfl := (List.cons.inj heq).1
            exact hb
        | cons c' front =>
            obtain ⟨rfl, rfl⟩ := List.cons.inj heq
            rw [List.flatMap_cons, fits_append] at hfits
            rw [List.flatMap_cons, left_append]
            exact hbs hfits.1 front c back rfl hfits.2
      · intro h
        refine ⟨h [] b bs rfl fits_nil, ?_⟩
        intro hb front c back heq hfits
        have hc := h (b :: front) c back (by rw [heq]; rfl)
          (by rw [List.flatMap_cons, fits_append]; exact ⟨hb, hfits⟩)
        rwa [List.flatMap_cons, left_append] at hc

/-! ## Pieces that always stay inside -/

/-- The pieces stay inside, whatever the room. -/
def Safe (l : List (Piece α)) : Prop := ∀ room, Stays l room

theorem safe_nil : Safe ([] : List (Piece α)) := fun _ => stays_nil

theorem Safe.append (h : Safe l) (h' : Safe l') : Safe (l ++ l') :=
  fun room => stays_append.mpr ⟨h room, fun _ => h' _⟩

theorem Safe.ite {c : Prop} [Decidable c] (h : Safe l) (h' : Safe l') : Safe (if c then l else l') := by
  split
  · exact h
  · exact h'

/-- Behind pieces that stay inside. -/
theorem Safe.stays_append (h : Safe l) :
    Stays (l ++ l') room ↔ (Fits l room → Stays l' (left l room)) := by
  rw [Pieces.stays_append]
  exact ⟨fun hs => hs.2, fun hs => ⟨h room, hs⟩⟩

/-- The piece asks for the room it needs. -/
def Guarded (p : Piece α) : Prop :=
  p.seen = true ∧ ∀ room, p.asks room = true → p.text.length + p.behind ≤ room

theorem stays_guarded_cons (h : Guarded p) :
    Stays (p :: l) room ↔ (p.asks room = true → Stays l (room - p.text.length)) := by
  rw [stays_cons]
  constructor
  · exact fun hs hp => (hs.1 hp).2
  · exact fun hs => ⟨fun hp => ⟨h.2 room hp, hs hp⟩, fun _ => h.1⟩

theorem stays_of_guarded (h : ∀ p ∈ l, Guarded p) : Stays l room := by
  induction l generalizing room with
  | nil => exact stays_nil
  | cons p l ih =>
      rw [stays_guarded_cons (h p List.mem_cons_self)]
      exact fun _ => ih fun q hq => h q (List.mem_cons_of_mem p hq)

theorem safe_of_guarded (h : ∀ p ∈ l, Guarded p) : Safe l := fun _ => stays_of_guarded h

theorem guarded_need (n : Nat) : Guarded (need n : Piece α) := ⟨rfl, fun _ _ => Nat.zero_le _⟩

theorem safe_need (n : Nat) : Safe [(need n : Piece α)] :=
  safe_of_guarded (by simpa using guarded_need n)

theorem guarded_refuse : Guarded (refuse : Piece α) := ⟨rfl, fun _ h => nomatch h⟩

theorem guarded_check {n : Nat} {s : List α} (h : s.length ≤ n) : Guarded (check n s) :=
  ⟨rfl, fun _ hroom => h.trans (of_decide_eq_true hroom)⟩

theorem stays_put_cons {s : List α} :
    Stays (put s :: l) room ↔ s.length ≤ room ∧ Stays l (room - s.length) := by
  simp [stays_cons, put]

theorem stays_terminate_cons : Stays (terminate :: l) room ↔ 0 < room ∧ Stays l room := by
  simp [stays_cons, terminate]
  omega

@[simp] theorem fits_put_cons {s : List α} : Fits (put s :: l) room ↔ Fits l (room - s.length) := by
  simp [fits_cons, put]

@[simp] theorem fits_check_cons {n : Nat} {s : List α} :
    Fits (check n s :: l) room ↔ n ≤ room ∧ Fits l (room - s.length) := by
  simp [fits_cons, check]

@[simp] theorem fits_need_cons {n : Nat} : Fits (need n :: l) room ↔ n ≤ room ∧ Fits l room := by
  simp [fits_cons, need]

theorem not_stays_stray : ¬ Stays (stray :: l) room := fun h => nomatch h.2 rfl

end

end Pieces
