import Mathlib.Tactic

set_option autoImplicit false

/-! # Places of a store

A store is read and written at places, and two places do not share anything. Values that are written
at pairwise distinct places are found there afterwards, all of them (`map_get_setAll`), and every
other place keeps what it had (`get_setAll_of_notMem`).
-/

namespace Places

variable {κ β σ : Type}

/-- Reading and writing at a place. `inside` says which places a store has. -/
structure Access (κ β σ : Type) where
  get : κ → σ → β
  set : κ → β → σ → σ
  inside : κ → σ → Prop

/-- What a place needs: a write is read back, changes no other place and keeps the places. -/
structure Access.Lawful (a : Access κ β σ) : Prop where
  get_set : ∀ {k : κ} {b : β} {s : σ}, a.inside k s → a.get k (a.set k b s) = b
  get_set_of_ne : ∀ {k l : κ} {b : β} {s : σ}, a.inside k s → a.inside l s → l ≠ k →
    a.get l (a.set k b s) = a.get l s
  inside_set : ∀ {k l : κ} {b : β} {s : σ}, a.inside l (a.set k b s) ↔ a.inside l s

variable {a : Access κ β σ}

/-- The values are written at their places, in order. -/
def Access.setAll (a : Access κ β σ) : List (κ × β) → σ → σ
  | [], s => s
  | (k, b) :: rest, s => a.setAll rest (a.set k b s)

/-- A place that is not written keeps what it had. -/
theorem Access.Lawful.get_setAll_of_notMem (ha : a.Lawful) {l : κ} {xs : List (κ × β)} {s : σ}
    (hin : ∀ x ∈ xs, a.inside x.1 s) (hl : a.inside l s) (hmem : ∀ x ∈ xs, x.1 ≠ l) :
    a.get l (a.setAll xs s) = a.get l s := by
  induction xs generalizing s with
  | nil => rfl
  | cons x xs ih =>
      have hx : a.inside x.1 s := hin x (List.mem_cons_self ..)
      have hne : l ≠ x.1 := (hmem x (List.mem_cons_self ..)).symm
      calc a.get l (a.setAll xs (a.set x.1 x.2 s))
          = a.get l (a.set x.1 x.2 s) :=
            ih (fun y hy => ha.inside_set.mpr (hin y (List.mem_cons_of_mem _ hy)))
              (ha.inside_set.mpr hl) (fun y hy => hmem y (List.mem_cons_of_mem _ hy))
        _ = a.get l s := ha.get_set_of_ne hx hl hne

/-- What is written at pairwise distinct places is there afterwards. -/
theorem Access.Lawful.map_get_setAll (ha : a.Lawful) {ks : List κ} {bs : List β} {s : σ}
    (hlen : ks.length = bs.length) (hin : ∀ k ∈ ks, a.inside k s) (hnodup : ks.Nodup) :
    ks.map (fun k => a.get k (a.setAll (ks.zip bs) s)) = bs := by
  induction ks generalizing bs s with
  | nil =>
      cases bs with
      | nil => rfl
      | cons b bs => simp at hlen
  | cons k ks ih =>
      cases bs with
      | nil => simp at hlen
      | cons b bs =>
          rw [List.nodup_cons] at hnodup
          have hk : a.inside k s := hin k (List.mem_cons_self ..)
          have hrest : ∀ l ∈ ks, a.inside l (a.set k b s) := by
            intro l hl
            exact ha.inside_set.mpr (hin l (List.mem_cons_of_mem _ hl))
          have hwritten : ∀ x ∈ ks.zip bs, x.1 ∈ ks := fun x hx => (List.of_mem_zip hx).1
          have hhead : a.get k (a.setAll (ks.zip bs) (a.set k b s)) = b := by
            rw [ha.get_setAll_of_notMem (fun x hx => hrest _ (hwritten x hx))
              (ha.inside_set.mpr hk)]
            · exact ha.get_set hk
            · intro x hx heq
              exact hnodup.1 (heq ▸ hwritten x hx)
          have htail : ks.map (fun l => a.get l (a.setAll (ks.zip bs) (a.set k b s))) = bs :=
            ih (by simpa using hlen) hrest hnodup.2
          simp only [List.zip_cons_cons, Access.setAll, List.map_cons, hhead, htail]

end Places
