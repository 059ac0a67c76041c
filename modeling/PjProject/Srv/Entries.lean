import PjProject.Srv.Resolution

set_option autoImplicit false

/-! # What the server entries are

Ordering the entries neither fails nor gives any of them an address. The addresses of the additional
section go to the first target of their name (`given`); there is no room for more than eight at one
target. `buildServerEntries_ok` says what `build_server_entries` makes of an answer.
-/

namespace Srv

open Sdp (Str stricmpEq)

/-! ## Ordering -/

theorem swap_length (srv : List SrvTarget) (i j : Nat) : (swap srv i j).length = srv.length := by
  unfold swap
  split
  · simp
  · rfl

theorem mem_swap {srv : List SrvTarget} {i j : Nat} {s : SrvTarget} (h : s ∈ swap srv i j) : s ∈ srv := by
  unfold swap at h
  split at h
  next a b ha hb =>
    rcases List.mem_or_eq_of_mem_set h with h | rfl
    · rcases List.mem_or_eq_of_mem_set h with h | rfl
      · exact h
      · exact List.mem_of_getElem? hb
    · exact List.mem_of_getElem? ha
  · exact h

/-- The entries are ones of the list, as many as there were. -/
structure Reordered (srv srv' : List SrvTarget) : Prop where
  length : srv'.length = srv.length
  mem : ∀ s ∈ srv', s ∈ srv

theorem Reordered.refl (srv : List SrvTarget) : Reordered srv srv := ⟨rfl, fun _ h => h⟩

theorem Reordered.trans {a b c : List SrvTarget} (h : Reordered a b) (h' : Reordered b c) :
    Reordered a c :=
  ⟨h'.length.trans h.length, fun s hs => h.mem s (h'.mem s hs)⟩

theorem reordered_swap (srv : List SrvTarget) (i j : Nat) : Reordered srv (swap srv i j) :=
  ⟨swap_length srv i j, fun _ h => mem_swap h⟩

theorem reordered_sortFrom (left i : Nat) (srv : List SrvTarget) :
    Reordered srv (sortFrom left i srv) := by
  induction left generalizing i srv with
  | zero => exact .refl srv
  | succ left ih => exact (reordered_swap srv i _).trans (ih (i + 1) _)

/-- The last running sum is the largest, so that some sum is not below the random number. -/
theorem electAt_reordered (rand i : Nat) (srv : List SrvTarget) :
    ∃ srv', electAt rand i srv = .ok srv' ∧ Reordered srv srv' := by
  unfold electAt
  generalize runningSums 0 (samePriority srv i) = sums
  dsimp only
  split
  next hlen =>
    split
    next hnone =>
      have hne : sums ≠ [] := by
        rintro rfl
        simp at hlen
      rw [List.findIdx?_eq_none_iff] at hnone
      have hlast := hnone (sums.getLast hne) (List.getLast_mem hne)
      have hlt : rand % (sums.getLastD 0 + 1) < sums.getLastD 0 + 1 := Nat.mod_lt _ (by omega)
      rw [List.getLastD_eq_getLast?, List.getLast?_eq_getLast_of_ne_nil hne] at hlast hlt
      simp only [Option.getD_some, decide_eq_false_iff_not, not_le] at hlast hlt
      omega
    · exact ⟨_, rfl, reordered_swap srv i _⟩
  next => exact ⟨srv, rfl, .refl srv⟩

theorem electFrom_reordered (rand : Nat → Nat) (left i : Nat) (srv : List SrvTarget) :
    ∃ srv', electFrom rand left i srv = .ok srv' ∧ Reordered srv srv' := by
  induction left generalizing i srv with
  | zero => exact ⟨srv, rfl, .refl srv⟩
  | succ left ih =>
      rcases electAt_reordered (rand i) i srv with ⟨srv₁, helect, hfirst⟩
      rcases ih (i + 1) srv₁ with ⟨srv₂, hrest, hothers⟩
      refine ⟨srv₂, ?_, hfirst.trans hothers⟩
      simp only [electFrom, helect, hrest]

theorem orderedTargets_reordered (rand : Nat → Nat) (ans : List ParsedRr) :
    ∃ srv, orderedTargets rand ans = .ok srv ∧ Reordered (saveRecords ans) srv := by
  rcases electFrom_reordered rand (saveRecords ans).length 0
    (sortFrom ((saveRecords ans).length - 1) 0 (saveRecords ans)) with ⟨srv, heq, hre⟩
  exact ⟨srv, heq, (reordered_sortFrom _ _ _).trans hre⟩

/-- A saved record has no address yet. -/
theorem saveRecords_addr {ans : List ParsedRr} {s : SrvTarget} (h : s ∈ saveRecords ans) :
    s.addr = [] := by
  unfold saveRecords at h
  rcases List.mem_filterMap.mp (List.mem_of_mem_take h) with ⟨rr, -, heq⟩
  split at heq
  · split at heq
    · simp at heq
    · simp only [Option.some.injEq] at heq
      rw [← heq]
  · simp at heq

/-! ## Addresses of the additional section -/

/-- The records that are not of the name. -/
def others (rrs : List ParsedRr) (name : Str) : List ParsedRr :=
  rrs.filter fun rr => !stricmpEq rr.name name

/-- The addresses for each target: those of its name, unless an earlier target has the name. -/
def given : List Str → List ParsedRr → List (List InAddr)
  | [], _ => []
  | name :: names, arr => addrsOf arr name :: given names (others arr name)

variable {arr : List ParsedRr} {srv : List SrvTarget} {name : Str} {addr : InAddr}

theorem addrsOf_cons_same (rr : ParsedRr) (hdata : rr.rdata = .a addr)
    (h : stricmpEq rr.name name = true) : addrsOf (rr :: arr) name = addr :: addrsOf arr name := by
  simp [addrsOf, hdata, h]

theorem addrsOf_cons_other (rr : ParsedRr) (h : stricmpEq rr.name name = false) :
    addrsOf (rr :: arr) name = addrsOf arr name := by
  unfold addrsOf
  rw [List.filterMap_cons_none]
  split
  · simp [h]
  · rfl

theorem addrsOf_cons_none (rr : ParsedRr) (hdata : ∀ addr, rr.rdata ≠ .a addr) :
    addrsOf (rr :: arr) name = addrsOf arr name := by
  unfold addrsOf
  rw [List.filterMap_cons_none]
  split
  next addr heq => exact absurd heq (hdata addr)
  next => rfl

/-- Only a full target makes an additional record fail. -/
theorem addAdditional_error {e : Fault} (h : addAdditional name addr srv = .error e) :
    e = .overflow := by
  induction srv with
  | nil => simp [addAdditional] at h
  | cons s rest ih =>
      simp only [addAdditional] at h
      split at h
      · split at h
        · simp at h
        · simpa using h.symm
      · split at h
        next e' he =>
          simp only [Except.error.injEq] at h
          exact ih (h ▸ he)
        next => simp at h

theorem others_cons_same (rr : ParsedRr) (h : stricmpEq rr.name name = true) :
    others (rr :: arr) name = others arr name := by
  simp [others, h]

theorem others_cons_other (rr : ParsedRr) (h : stricmpEq rr.name name = false) :
    others (rr :: arr) name = rr :: others arr name := by
  simp [others, h]

/-- What the first target takes of the additional section, and what it leaves to the others. -/
theorem addAllAdditional_cons (arr : List ParsedRr) {s : SrvTarget} (rest : List SrvTarget)
    (hcap : s.addr.length ≤ maxIpInARec) (resolved : Nat) :
    addAllAdditional arr (s :: rest) resolved =
      if s.addr.length + (addrsOf arr s.targetName).length ≤ maxIpInARec then
        match addAllAdditional (others arr s.targetName) rest
          (resolved + if s.addr.length = 0 ∧ (addrsOf arr s.targetName).length ≠ 0 then 1 else 0) with
        | .error e => .error e
        | .ok (rest', r) => .ok ({ s with addr := s.addr ++ addrsOf arr s.targetName } :: rest', r)
      else .error .overflow := by
  -- the first record goes to the target or to one behind it
  induction arr generalizing s rest resolved with
  | nil => simp [addAllAdditional, addrsOf, others, hcap]
  | cons rr arr ih =>
      cases hdata : rr.rdata with
      | a addr =>
          cases hsame : stricmpEq rr.name s.targetName with
          | true =>
              rw [addrsOf_cons_same rr hdata hsame, others_cons_same rr hsame]
              simp only [addAllAdditional, hdata, addAdditional, hsame, if_true]
              by_cases hroom : s.addr.length < maxIpInARec
              · rw [if_pos hroom]
                dsimp only
                rw [ih rest (by simp; omega)]
                have hcount : (if (s.addr ++ [addr]).length = 0 ∧
                    (addrsOf arr s.targetName).length ≠ 0 then 1 else 0) = 0 := by simp
                rw [hcount]
                simp [Nat.add_assoc, Nat.add_comm 1]
              · rw [if_neg hroom, if_neg (by simp; omega)]
          | false =>
              rw [addrsOf_cons_other rr hsame, others_cons_other rr hsame]
              simp only [addAllAdditional, hdata, addAdditional, hsame, Bool.false_eq_true, if_false]
              cases hadd : addAdditional rr.name addr rest with
              | error e =>
                  rw [addAdditional_error hadd]
                  simp
              | ok r =>
                  rcases r with ⟨rest₁, n⟩
                  dsimp only
                  rw [ih rest₁ hcap, Nat.add_right_comm]
      | _ =>
          have hskip : ∀ srv, addAllAdditional (rr :: arr) srv resolved =
              addAllAdditional arr srv resolved := by
            intro srv
            simp only [addAllAdditional, hdata]
          have hnone : ∀ addr, rr.rdata ≠ .a addr := by simp [hdata]
          rw [hskip, addrsOf_cons_none rr hnone, ih rest hcap]
          cases hsame : stricmpEq rr.name s.targetName with
          | true => rw [others_cons_same rr hsame]
          | false =>
              rw [others_cons_other rr hsame]
              simp only [addAllAdditional, hdata]

/-! ## The targets -/

/-- The number of targets that the answer gives an address, or that are addresses themselves. -/
def known (aton : Str → Option InAddr) : List Str → List ParsedRr → Nat
  | [], _ => 0
  | name :: names, arr =>
      (if (addrsOf arr name).length ≠ 0 ∨ (aton name).isSome then 1 else 0) +
        known aton names (others arr name)

theorem known_le (aton : Str → Option InAddr) (names : List Str) (arr : List ParsedRr) :
    known aton names arr ≤ names.length := by
  induction names generalizing arr with
  | nil => simp [known]
  | cons name names ih =>
      have hrest := ih (others arr name)
      simp only [known, List.length_cons]
      split
      · omega
      · omega

/-- No target is given more addresses than it has room for. -/
def Roomy (names : List Str) (arr : List ParsedRr) : Prop :=
  ∀ l ∈ given names arr, l.length ≤ maxIpInARec

instance decidableRoomy (names : List Str) (arr : List ParsedRr) : Decidable (Roomy names arr) :=
  inferInstanceAs (Decidable (∀ l ∈ given names arr, l.length ≤ maxIpInARec))

theorem roomy_cons {names : List Str} : Roomy (name :: names) arr ↔
    (addrsOf arr name).length ≤ maxIpInARec ∧ Roomy names (others arr name) := by
  simp [Roomy, given]

variable {aton : Str → Option InAddr}

/-- The number that the literals start from is only added to. -/
theorem addLiterals_add (srv : List SrvTarget) (resolved k : Nat) :
    addLiterals aton srv (resolved + k) =
      ((addLiterals aton srv resolved).1, (addLiterals aton srv resolved).2 + k) := by
  induction srv generalizing resolved with
  | nil => simp [addLiterals]
  | cons s rest ih =>
      simp only [addLiterals, Nat.add_right_comm resolved k, ih]

/-- What the literals leave of a target. -/
def withLiteral (aton : Str → Option InAddr) (s : SrvTarget) : SrvTarget :=
  if s.addr.length ≠ 0 then s
  else
    match aton s.targetName with
    | none => s
    | some addr => { s with addr := [addr] }

theorem addLiterals_cons (s : SrvTarget) (rest : List SrvTarget) (resolved : Nat) :
    addLiterals aton (s :: rest) resolved =
      (withLiteral aton s :: (addLiterals aton rest resolved).1,
        (addLiterals aton rest resolved).2 +
          if s.addr.length = 0 ∧ (aton s.targetName).isSome then 1 else 0) := by
  simp only [addLiterals, addLiterals_add, withLiteral]
  by_cases h0 : s.addr.length = 0
  · cases aton s.targetName with
    | none => simp [h0]
    | some addr => simp [h0]
  · simp [h0]

theorem withLiteral_capped {s : SrvTarget} (h : s.addr.length ≤ maxIpInARec) :
    (withLiteral aton s).addr.length ≤ maxIpInARec := by
  unfold withLiteral
  split
  · exact h
  · split
    · exact h
    · simp [maxIpInARec]

/-- **The targets behind the additional section and the literals**, which had no address before. -/
theorem entries_ok (hfresh : ∀ s ∈ srv, s.addr = [])
    (hroom : Roomy (srv.map SrvTarget.targetName) arr) (resolved : Nat) :
    ∃ srv₁ r₁ srv₂, addAllAdditional arr srv resolved = .ok (srv₁, r₁) ∧
      addLiterals aton srv₁ r₁ =
        (srv₂, resolved + known aton (srv.map SrvTarget.targetName) arr) ∧
      srv₂.length = srv.length ∧ ∀ s ∈ srv₂, s.addr.length ≤ maxIpInARec := by
  induction srv generalizing arr resolved with
  | nil =>
      refine ⟨[], resolved, [], ?_, ?_, rfl, by simp⟩
      · induction arr with
        | nil => rfl
        | cons rr arr ih =>
            simp only [addAllAdditional, addAdditional, Nat.add_zero]
            rw [ih (by simp [Roomy, given])]
            split
            · rfl
            · rfl
      · simp [addLiterals, known]
  | cons s rest ih =>
      have hs : s.addr = [] := hfresh s (by simp)
      rw [List.map_cons, roomy_cons] at hroom
      rcases ih (fun t ht => hfresh t (by simp [ht])) hroom.2
        (resolved + if s.addr.length = 0 ∧ (addrsOf arr s.targetName).length ≠ 0 then 1 else 0) with
        ⟨srv₁, r₁, srv₂, hadd, hlit, hlen, hcap⟩
      have hhead : s.addr.length + (addrsOf arr s.targetName).length ≤ maxIpInARec := by
        simpa [hs] using hroom.1
      rw [addAllAdditional_cons arr rest (by simp [hs]), if_pos hhead, hadd]
      have hcap' : ({ s with addr := s.addr ++ addrsOf arr s.targetName } : SrvTarget).addr.length ≤
          maxIpInARec := by
        simpa using hhead
      refine ⟨_, r₁, withLiteral aton { s with addr := s.addr ++ addrsOf arr s.targetName } :: srv₂,
        rfl, ?_, by simp [hlen], ?_⟩
      · rw [addLiterals_cons, hlit]
        simp only [hs, List.length_nil, true_and, List.nil_append, List.map_cons, known,
          Prod.mk.injEq, true_and]
        by_cases haddr : (addrsOf arr s.targetName).length = 0
        · simp [haddr]
          omega
        · simp [haddr]
          omega
      · intro t ht
        rcases List.mem_cons.mp ht with rfl | ht
        · exact withLiteral_capped hcap'
        · exact hcap t ht

/-- A target that is given more addresses than it has room for is written behind its end. -/
theorem entries_overflow (hfresh : ∀ s ∈ srv, s.addr = [])
    (hroom : ¬ Roomy (srv.map SrvTarget.targetName) arr) (resolved : Nat) :
    addAllAdditional arr srv resolved = .error .overflow := by
  induction srv generalizing arr resolved with
  | nil => exact absurd (by simp [Roomy, given]) hroom
  | cons s rest ih =>
      have hs : s.addr = [] := hfresh s (by simp)
      rw [List.map_cons, roomy_cons] at hroom
      rw [addAllAdditional_cons arr rest (by simp [hs])]
      split
      next hhead =>
        rw [ih (fun t ht => hfresh t (by simp [ht])) (fun h => hroom ⟨by simpa [hs] using hhead, h⟩)]
      next => rfl

/-! ## The answer -/

/-- The names of the targets, in the order in which they are to be tried. -/
def targetNames (rand : Nat → Nat) (ans : List ParsedRr) : List Str :=
  match orderedTargets rand ans with
  | .ok srv => srv.map SrvTarget.targetName
  | .error _ => []

theorem targetNames_length (rand : Nat → Nat) (ans : List ParsedRr) :
    (targetNames rand ans).length = (saveRecords ans).length := by
  rcases orderedTargets_reordered rand ans with ⟨srv, heq, hre⟩
  unfold targetNames
  rw [heq]
  simpa using hre.length

variable {rand : Nat → Nat} {response : ParsedPacket}

/-- **`build_server_entries`**, where there is room: a target for each saved record, and it counts those
that have an address. -/
theorem buildServerEntries_ok (hne : (saveRecords response.ans).length ≠ 0)
    (hroom : Roomy (targetNames rand response.ans) response.arr) (resolved : Nat) :
    ∃ srv, buildServerEntries rand aton response resolved =
        .ok (srv, resolved + known aton (targetNames rand response.ans) response.arr) ∧
      srv.length = (saveRecords response.ans).length ∧ ∀ s ∈ srv, s.addr.length ≤ maxIpInARec := by
  rcases orderedTargets_reordered rand response.ans with ⟨srv, heq, hre⟩
  have hfresh : ∀ s ∈ srv, s.addr = [] := fun s hs => saveRecords_addr (hre.mem s hs)
  have hnames : targetNames rand response.ans = srv.map SrvTarget.targetName := by
    unfold targetNames
    rw [heq]
  rw [hnames] at hroom ⊢
  rcases @entries_ok _ srv aton hfresh hroom resolved with
    ⟨srv₁, r₁, srv₂, hadd, hlit, hlen, hcap⟩
  refine ⟨srv₂, ?_, hlen.trans hre.length, hcap⟩
  simp only [buildServerEntries, if_neg hne, heq, hadd, hlit]

theorem buildServerEntries_overflow (hne : (saveRecords response.ans).length ≠ 0)
    (hroom : ¬ Roomy (targetNames rand response.ans) response.arr) (resolved : Nat) :
    buildServerEntries rand aton response resolved = .error .overflow := by
  rcases orderedTargets_reordered rand response.ans with ⟨srv, heq, hre⟩
  have hfresh : ∀ s ∈ srv, s.addr = [] := fun s hs => saveRecords_addr (hre.mem s hs)
  have hnames : targetNames rand response.ans = srv.map SrvTarget.targetName := by
    unfold targetNames
    rw [heq]
  rw [hnames] at hroom
  simp only [buildServerEntries, if_neg hne, heq, entries_overflow hfresh hroom]

end Srv
