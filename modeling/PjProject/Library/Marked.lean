import Mathlib.Tactic

set_option autoImplicit false

/-! # The first and the last marked element of a list

A list in which some elements are marked with a value by `f`, with others between them. The operations
insert in front of the first marked element and behind the last one, and take them out. Without a
marked element the insertions are at the end.

Each operation is described twice: by what it does to the list of the values, and by the operation
that undoes it.
-/

namespace Marked

variable {α β : Type*} {f : α → Option β} {x : α} {v : β}

/-- Insert in front of the first marked element. -/
def insertBeforeFirst (f : α → Option β) (x : α) : List α → List α
  | [] => [x]
  | a :: l => if (f a).isSome then x :: a :: l else a :: insertBeforeFirst f x l

/-- Insert behind the last marked element. -/
def insertAfterLast (f : α → Option β) (x : α) : List α → List α
  | [] => [x]
  | a :: l => if (f a).isSome && (l.filterMap f).isEmpty then a :: x :: l else a :: insertAfterLast f x l

/-- Take out the first marked element. -/
def eraseFirst (f : α → Option β) : List α → List α
  | [] => []
  | a :: l => if (f a).isSome then l else a :: eraseFirst f l

/-- Take out the last marked element. -/
def eraseLast (f : α → Option β) : List α → List α
  | [] => []
  | a :: l => if (f a).isSome && (l.filterMap f).isEmpty then l else a :: eraseLast f l

/-! ## The marked elements -/

theorem filterMap_insertBeforeFirst (hx : f x = some v) (l : List α) :
    (insertBeforeFirst f x l).filterMap f = v :: l.filterMap f := by
  induction l with
  | nil => simp [insertBeforeFirst, hx]
  | cons a l ih =>
      cases ha : f a with
      | none => simp [insertBeforeFirst, ha, ih]
      | some u => simp [insertBeforeFirst, ha, hx]

theorem filterMap_insertAfterLast (hx : f x = some v) (l : List α) :
    (insertAfterLast f x l).filterMap f = l.filterMap f ++ [v] := by
  induction l with
  | nil => simp [insertAfterLast, hx]
  | cons a l ih =>
      cases ha : f a with
      | none => simp [insertAfterLast, ha, ih]
      | some u =>
          by_cases hlast : l.filterMap f = []
          · simp [insertAfterLast, ha, hlast, hx]
          · simp [insertAfterLast, ha, hlast, ih]

theorem filterMap_eraseFirst (l : List α) : (eraseFirst f l).filterMap f = (l.filterMap f).tail := by
  induction l with
  | nil => rfl
  | cons a l ih =>
      cases ha : f a with
      | none => simp [eraseFirst, ha, ih]
      | some u => simp [eraseFirst, ha]

theorem filterMap_eraseLast (l : List α) : (eraseLast f l).filterMap f = (l.filterMap f).dropLast := by
  induction l with
  | nil => rfl
  | cons a l ih =>
      cases ha : f a with
      | none => simp [eraseLast, ha, ih]
      | some u =>
          by_cases hlast : l.filterMap f = []
          · simp [eraseLast, ha, hlast]
          · simp [eraseLast, ha, hlast, ih, List.dropLast_cons_of_ne_nil hlast]

/-! ## One operation undoes the other -/

theorem eraseFirst_insertBeforeFirst (hx : f x = some v) (l : List α) :
    eraseFirst f (insertBeforeFirst f x l) = l := by
  induction l with
  | nil => simp [insertBeforeFirst, eraseFirst, hx]
  | cons a l ih =>
      cases ha : f a with
      | none => simp [insertBeforeFirst, eraseFirst, ha, ih]
      | some u => simp [insertBeforeFirst, eraseFirst, ha, hx]

theorem eraseLast_insertAfterLast (hx : f x = some v) (l : List α) :
    eraseLast f (insertAfterLast f x l) = l := by
  have hmarked := filterMap_insertAfterLast hx
  induction l with
  | nil => simp [insertAfterLast, eraseLast, hx]
  | cons a l ih =>
      cases ha : f a with
      | none => simp [insertAfterLast, eraseLast, ha, ih]
      | some u =>
          by_cases hlast : l.filterMap f = []
          · simp [insertAfterLast, eraseLast, ha, hlast, hx]
          · simp [insertAfterLast, eraseLast, ha, hlast, hmarked, ih]

/-- The first marked element is in front of the last one. -/
theorem eraseLast_insertBeforeFirst {y : α} {u : β} (hx : f x = some v) (hy : f y = some u)
    (l : List α) :
    eraseLast f (insertBeforeFirst f x (insertAfterLast f y l)) = insertBeforeFirst f x l := by
  induction l with
  | nil => simp [insertAfterLast, insertBeforeFirst, eraseLast, hx, hy]
  | cons a l ih =>
      cases ha : f a with
      | none => simp [insertAfterLast, insertBeforeFirst, eraseLast, ha, ih]
      | some w =>
          obtain ⟨l', hl'⟩ : ∃ l', insertAfterLast f y (a :: l) = a :: l' := by
            rw [insertAfterLast]
            split
            · exact ⟨_, rfl⟩
            · exact ⟨_, rfl⟩
          have herase : eraseLast f (a :: l') = a :: l := by
            rw [← hl']
            exact eraseLast_insertAfterLast hy (a :: l)
          rw [hl']
          simp [insertBeforeFirst, ha, eraseLast, hx]
          simpa [eraseLast, ha] using herase

end Marked
