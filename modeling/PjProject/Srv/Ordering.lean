import PjProject.Srv.Entries
import PjProject.Sip.UriCompare

set_option autoImplicit false

/-! # The order of the server entries

What `build_server_entries` makes of the SRV records of an answer. Its entries have pointers into
themselves and are exchanged by copying their bytes, and the running sums are fields of them; `RawTarget`
is an entry with these. The first pass is a selection sort by the priority. The second one goes over the
positions, and exchanges the entry there with the first one of its priority whose running sum reaches the
number drawn.

The entries come out as RFC 2782 has them for every answer and all draws. What can go wrong is behind
that: nothing limits the number of addresses that the additional section gives to a target.
-/

namespace Srv

open Sdp (Str stricmpEq)
open UriCompare (icKey stricmpEq_iff_key)

/-! ## Entries with pointers -/

/-- `struct srv_target` with `target_name.ptr`, which is the index of the entry whose `target_buf` it points
into, and `sum`. -/
structure RawTarget where
  target : SrvTarget
  namePtr : Nat
  sum : Nat

/-- The loop that saves the records. -/
def saveRaw (ans : List ParsedRr) : List RawTarget := (saveRecords ans).mapIdx fun i s => ⟨s, i, 0⟩

/-- `SWAP`. -/
def swapRaw (srv : List RawTarget) (i j : Nat) : List RawTarget :=
  if i = j then srv
  else
    match srv[i]?, srv[j]? with
    | some a, some b => (srv.set i { b with namePtr := i }).set j { a with namePtr := j }
    | _, _ => srv

/-- The first pass, whose inner loop reads the priorities. -/
def sortFromRaw : Nat → Nat → List RawTarget → List RawTarget
  | 0, _, srv => srv
  | left + 1, i, srv =>
      sortFromRaw left (i + 1) (swapRaw srv i
        (minPriority (srv.map RawTarget.target) (srv.length - (i + 1)) (i + 1) i))

/-- The loop over the entries of this priority, which sets their running sums. -/
def sumLoop (priority : Nat) : Nat → List RawTarget → List RawTarget
  | _, [] => []
  | sum, t :: rest =>
      if t.target.priority = priority then
        { t with sum := sum + t.target.weight } :: sumLoop priority (sum + t.target.weight) rest
      else t :: rest

/-- The running sums from `i` on. -/
def setSums (srv : List RawTarget) (i : Nat) : List RawTarget :=
  match srv[i]? with
  | none => srv
  | some t => srv.take i ++ sumLoop t.target.priority 0 (srv.drop i)

/-- The running sums of the entries from `i` on that have its priority. -/
def groupSums (srv : List RawTarget) (i : Nat) : List Nat :=
  match srv.drop i with
  | [] => []
  | t :: rest =>
      ((t :: rest).takeWhile fun u => u.target.priority == t.target.priority).map RawTarget.sum

/-- One turn of the second pass. -/
def electAtRaw (rand : Nat) (i : Nat) (srv : List RawTarget) : Except Fault (List RawTarget) :=
  let srv := setSums srv i
  let sums := groupSums srv i
  if 1 < sums.length then
    match sums.findIdx? fun sum => decide (rand % (sums.getLastD 0 + 1) ≤ sum) with
    | none => .error .assertion
    | some k => .ok (swapRaw srv i (i + k))
  else .ok srv

/-- The second pass. -/
def electFromRaw (rand : Nat → Nat) : Nat → Nat → List RawTarget → Except Fault (List RawTarget)
  | 0, _, srv => .ok srv
  | left + 1, i, srv =>
      match electAtRaw (rand i) i srv with
      | .error e => .error e
      | .ok srv => electFromRaw rand left (i + 1) srv

/-- The pointers are set again. -/
def updatePointers (srv : List RawTarget) : List RawTarget :=
  srv.mapIdx fun i t => { t with namePtr := i }

/-- The targets, with the names that their pointers give. -/
def readTargets (srv : List RawTarget) : List SrvTarget :=
  srv.map fun t =>
    { t.target with targetName := ((srv[t.namePtr]?).map fun u => u.target.targetName).getD [] }

/-- `build_server_entries`, with the entries as they are in memory. -/
def buildServerEntriesRaw (rand : Nat → Nat) (aton : Str → Option InAddr) (response : ParsedPacket)
    (hostResolved : Nat) : Except Fault (List SrvTarget × Nat) :=
  let srv := saveRaw response.ans
  if srv.length = 0 then .ok ([], hostResolved)
  else
    match electFromRaw rand srv.length 0 (sortFromRaw (srv.length - 1) 0 srv) with
    | .error e => .error e
    | .ok srv =>
        match addAllAdditional response.arr (readTargets (updatePointers srv)) hostResolved with
        | .error e => .error e
        | .ok (srv, resolved) => .ok (addLiterals aton srv resolved)

/-! ## They are the targets -/

/-- The entries without the pointers and sums. -/
def targets (srv : List RawTarget) : List SrvTarget := srv.map RawTarget.target

theorem swap_self (srv : List SrvTarget) (i : Nat) : swap srv i i = srv := by
  unfold swap
  cases h : srv[i]? with
  | none => rfl
  | some a =>
      obtain ⟨hi, ha⟩ := List.getElem?_eq_some_iff.mp h
      simp [← ha]

theorem targets_swapRaw (srv : List RawTarget) (i j : Nat) :
    targets (swapRaw srv i j) = swap (targets srv) i j := by
  unfold swapRaw
  split
  · rename_i hij
    rw [hij, swap_self]
  · unfold swap targets
    rw [List.getElem?_map, List.getElem?_map]
    cases srv[i]? with
    | none => rfl
    | some a =>
        cases srv[j]? with
        | none => rfl
        | some b => simp

theorem targets_sortFromRaw (left i : Nat) (srv : List RawTarget) :
    targets (sortFromRaw left i srv) = sortFrom left i (targets srv) := by
  induction left generalizing i srv with
  | zero => rfl
  | succ left ih =>
      rw [sortFromRaw, ih, targets_swapRaw, sortFrom]
      simp [targets]

theorem targets_sumLoop (priority sum : Nat) (srv : List RawTarget) :
    targets (sumLoop priority sum srv) = targets srv := by
  induction srv generalizing sum with
  | nil => rfl
  | cons t rest ih =>
      unfold sumLoop
      split
      · exact congrArg (t.target :: ·) (ih _)
      · rfl

theorem targets_setSums (srv : List RawTarget) (i : Nat) : targets (setSums srv i) = targets srv := by
  unfold setSums
  cases srv[i]? with
  | none => rfl
  | some t =>
      dsimp only
      have hloop := targets_sumLoop t.target.priority 0 (srv.drop i)
      unfold targets at hloop ⊢
      rw [List.map_append, hloop, ← List.map_append, List.take_append_drop]

/-- The sums that the loop has set. -/
theorem sums_sumLoop (priority sum : Nat) (srv : List RawTarget) :
    ((sumLoop priority sum srv).takeWhile fun u => u.target.priority == priority).map RawTarget.sum =
      runningSums sum ((targets srv).takeWhile fun u => u.priority == priority) := by
  induction srv generalizing sum with
  | nil => rfl
  | cons t rest ih =>
      by_cases hprio : t.target.priority = priority
      · simp [sumLoop, targets, hprio, runningSums] at ih ⊢
        exact ih _
      · simp [sumLoop, targets, hprio, runningSums]

theorem groupSums_setSums (srv : List RawTarget) (i : Nat) :
    groupSums (setSums srv i) i = runningSums 0 (samePriority (targets srv) i) := by
  cases hi : srv[i]? with
  | none =>
      have hlen := List.getElem?_eq_none_iff.mp hi
      have hdrop : srv.drop i = [] := List.drop_eq_nil_of_le hlen
      have htargets : (targets srv).drop i = [] := by
        rw [targets, ← List.map_drop, hdrop]
        rfl
      simp [setSums, hi, groupSums, hdrop, samePriority, htargets, runningSums]
  | some t =>
      obtain ⟨hlt, ht⟩ := List.getElem?_eq_some_iff.mp hi
      obtain ⟨rest, hdrop⟩ : ∃ rest, srv.drop i = t :: rest :=
        ⟨srv.drop (i + 1), by rw [List.drop_eq_getElem_cons hlt, ht]⟩
      have hset : (setSums srv i).drop i = sumLoop t.target.priority 0 (t :: rest) := by
        simp only [setSums, hi, hdrop]
        rw [List.drop_append_of_le_length (by simp; omega), List.drop_take_self, List.nil_append]
      have hhead : sumLoop t.target.priority 0 (t :: rest) =
          { t with sum := 0 + t.target.weight } ::
            sumLoop t.target.priority (0 + t.target.weight) rest := by
        rw [sumLoop, if_pos rfl]
      have hgroup : samePriority (targets srv) i =
          (targets (t :: rest)).takeWhile fun u => u.priority == t.target.priority := by
        rw [samePriority, targets, ← List.map_drop, hdrop]
        simp [targets]
      rw [hgroup, ← sums_sumLoop, groupSums, hset, hhead]

theorem electAtRaw_targets (rand i : Nat) (srv : List RawTarget) :
    (electAtRaw rand i srv).map targets = electAt rand i (targets srv) := by
  unfold electAtRaw electAt
  dsimp only
  rw [groupSums_setSums]
  generalize (runningSums 0 (samePriority (targets srv) i)).findIdx?
    (fun sum => decide (rand % ((runningSums 0 (samePriority (targets srv) i)).getLastD 0 + 1) ≤ sum)) = found
  split
  · cases found with
    | none => rfl
    | some k => simp only [Except.map, targets_swapRaw, targets_setSums]
  · simp only [Except.map, targets_setSums]

theorem electFromRaw_targets (rand : Nat → Nat) (left i : Nat) (srv : List RawTarget) :
    (electFromRaw rand left i srv).map targets = electFrom rand left i (targets srv) := by
  induction left generalizing i srv with
  | zero => rfl
  | succ left ih =>
      have hstep := electAtRaw_targets (rand i) i srv
      unfold electFromRaw electFrom
      rw [← hstep]
      cases electAtRaw (rand i) i srv with
      | error e => rfl
      | ok srv' => exact ih (i + 1) srv'

theorem targets_saveRaw (ans : List ParsedRr) : targets (saveRaw ans) = saveRecords ans := by
  refine List.ext_getElem? fun i => ?_
  cases hi : (saveRecords ans)[i]? with
  | none => simp [targets, saveRaw, hi]
  | some t => simp [targets, saveRaw, hi]

/-- The names are the targets' own. -/
theorem readTargets_updatePointers (srv : List RawTarget) :
    readTargets (updatePointers srv) = targets srv := by
  refine List.ext_getElem? fun i => ?_
  cases hi : srv[i]? with
  | none | some => simp [readTargets, updatePointers, targets, hi]

/-- **The entries in memory** are the targets, each with its own name. -/
theorem buildServerEntriesRaw_eq (rand : Nat → Nat) (aton : Str → Option InAddr)
    (response : ParsedPacket) (resolved : Nat) :
    buildServerEntriesRaw rand aton response resolved =
      buildServerEntries rand aton response resolved := by
  have hsave := targets_saveRaw response.ans
  have hlen : (saveRaw response.ans).length = (saveRecords response.ans).length := by
    rw [← hsave]
    exact (List.length_map _).symm
  have helect := electFromRaw_targets rand (saveRecords response.ans).length 0
    (sortFromRaw ((saveRecords response.ans).length - 1) 0 (saveRaw response.ans))
  rw [targets_sortFromRaw, hsave] at helect
  unfold buildServerEntriesRaw buildServerEntries orderedTargets
  dsimp only
  rw [hlen, ← helect]
  split
  · rfl
  · cases electFromRaw rand (saveRecords response.ans).length 0
        (sortFromRaw ((saveRecords response.ans).length - 1) 0 (saveRaw response.ans)) with
    | error e => rfl
    | ok srv =>
        dsimp only [Except.map]
        exact readTargets_updatePointers srv ▸ rfl

/-! ## Exchanging entries -/

theorem swap_perm (srv : List SrvTarget) (i j : Nat) : (swap srv i j).Perm srv := by
  unfold swap
  cases hi : srv[i]? with
  | none => exact .refl _
  | some a =>
      cases hj : srv[j]? with
      | none => exact .refl _
      | some b =>
          obtain ⟨hlt, rfl⟩ := List.getElem?_eq_some_iff.mp hi
          obtain ⟨hlt', rfl⟩ := List.getElem?_eq_some_iff.mp hj
          exact List.set_set_perm hlt hlt'

theorem getElem?_swap {srv : List SrvTarget} {i j : Nat} (hi : i < srv.length) (hj : j < srv.length)
    (k : Nat) :
    (swap srv i j)[k]? = if k = j then srv[i]? else if k = i then srv[j]? else srv[k]? := by
  rw [swap, List.getElem?_eq_getElem hi, List.getElem?_eq_getElem hj]
  dsimp only
  rw [List.getElem?_set, List.getElem?_set, List.length_set]
  by_cases hkj : k = j
  · rw [if_pos hkj.symm, if_pos hkj, if_pos (by omega)]
  · rw [if_neg (Ne.symm hkj), if_neg hkj]
    by_cases hki : k = i
    · rw [if_pos hki.symm, if_pos hki, if_pos (by omega)]
    · rw [if_neg (Ne.symm hki), if_neg hki]

/-! ## The first pass -/

/-- The inner loop finds the place of a smallest priority. -/
theorem minPriority_spec (srv : List SrvTarget) (left j min : Nat) (hmin : min < j)
    (hlen : j + left = srv.length) {s : SrvTarget} (hs : srv[min]? = some s) :
    ∃ t, srv[minPriority srv left j min]? = some t ∧ t.priority ≤ s.priority ∧
      (minPriority srv left j min = min ∨ j ≤ minPriority srv left j min) ∧
      ∀ k u, j ≤ k → srv[k]? = some u → t.priority ≤ u.priority := by
  induction left generalizing j min s with
  | zero =>
      refine ⟨s, hs, le_refl _, .inl rfl, fun k u hk hu => ?_⟩
      have hlt := (List.getElem?_eq_some_iff.mp hu).1
      omega
  | succ left ih =>
      have hj : j < srv.length := by omega
      have hget := List.getElem?_eq_getElem hj
      have hunfold : minPriority srv (left + 1) j min =
          minPriority srv left (j + 1) (if srv[j].priority < s.priority then j else min) := by
        rw [minPriority, hget, hs]
      rw [hunfold]
      by_cases hless : srv[j].priority < s.priority
      · rw [if_pos hless]
        rcases ih (j + 1) j (by omega) (by omega) hget with ⟨t, ht, hle, hplace, hall⟩
        refine ⟨t, ht, by omega, .inr (by omega), fun k u hk hu => ?_⟩
        rcases Nat.eq_or_lt_of_le hk with rfl | hk
        · rw [hget, Option.some.injEq] at hu
          rw [← hu]
          exact hle
        · exact hall k u hk hu
      · rw [if_neg hless]
        rcases ih (j + 1) min (by omega) (by omega) hs with ⟨t, ht, hle, hplace, hall⟩
        refine ⟨t, ht, hle, by omega, fun k u hk hu => ?_⟩
        rcases Nat.eq_or_lt_of_le hk with rfl | hk
        · rw [hget, Option.some.injEq] at hu
          rw [← hu]
          omega
        · exact hall k u hk hu

/-- The first entries are in order, and none behind them comes before one of them. -/
def SortedTo (i : Nat) (srv : List SrvTarget) : Prop :=
  ∀ a b s t, a < b → a < i → srv[a]? = some s → srv[b]? = some t → s.priority ≤ t.priority

theorem sortedTo_swap {i m : Nat} {srv : List SrvTarget} {t : SrvTarget} (h : SortedTo i srv)
    (hm : srv[m]? = some t) (him : i ≤ m)
    (hall : ∀ k u, i ≤ k → srv[k]? = some u → t.priority ≤ u.priority) :
    SortedTo (i + 1) (swap srv i m) := by
  have hlt := (List.getElem?_eq_some_iff.mp hm).1
  intro a b s u hab hai hs hu
  rw [getElem?_swap (by omega) hlt] at hs hu
  -- where the entry at `b` was before
  obtain ⟨b', hb', hub'⟩ : ∃ b', (i ≤ b' ∨ b' = b) ∧ srv[b']? = some u := by
    split at hu
    · exact ⟨i, .inl (le_refl i), hu⟩
    · split at hu
      · exact ⟨m, .inl him, hu⟩
      · exact ⟨b, .inr rfl, hu⟩
  rcases Nat.lt_or_ge a i with ha | ha
  · rw [if_neg (by omega), if_neg (by omega)] at hs
    exact h a b' s u (by omega) ha hs hub'
  · -- the smallest one
    obtain rfl : a = i := by omega
    have hsm : srv[m]? = some s := by
      by_cases ham : a = m
      · rw [if_pos ham] at hs
        rw [← ham]
        exact hs
      · rw [if_neg ham, if_pos rfl] at hs
        exact hs
    rw [hm, Option.some.injEq] at hsm
    rw [← hsm]
    exact hall b' u (by omega) hub'

/-- **The first pass** leaves the same entries, in nondecreasing priority. -/
theorem sortFrom_sorted (left i : Nat) (srv : List SrvTarget) (hlen : i + left + 1 = srv.length)
    (h : SortedTo i srv) :
    SortedTo (sortFrom left i srv).length (sortFrom left i srv) ∧ (sortFrom left i srv).Perm srv := by
  induction left generalizing i srv with
  | zero =>
      refine ⟨fun a b s t hab ha hs ht => ?_, .refl srv⟩
      have hb := (List.getElem?_eq_some_iff.mp ht).1
      have hend : (sortFrom 0 i srv).length = srv.length := rfl
      exact h a b s t hab (by omega) hs ht
  | succ left ih =>
      have hi : i < srv.length := by omega
      rcases minPriority_spec srv (srv.length - (i + 1)) (i + 1) i (by omega) (by omega)
        (List.getElem?_eq_getElem hi) with ⟨t, ht, hle, hplace, hall⟩
      have hstep := sortedTo_swap h ht (by omega) fun k u hk hu => by
        rcases Nat.eq_or_lt_of_le hk with rfl | hk
        · rw [List.getElem?_eq_getElem hi, Option.some.injEq] at hu
          rw [← hu]
          exact hle
        · exact hall k u hk hu
      rcases ih (i + 1) _ (by rw [swap_length]; omega) hstep with ⟨hsorted, hperm⟩
      exact ⟨hsorted, hperm.trans (swap_perm srv i _)⟩

/-! ## The second pass -/

/-- The sum of the weights. -/
def weightSum (srv : List SrvTarget) : Nat := (srv.map SrvTarget.weight).sum

/-- The entries that remain for position `i`, of the priority of the one that is there. -/
def remaining (srv : List SrvTarget) (i : Nat) : List SrvTarget :=
  (srv.drop i).filter fun t => decide (srv[i]?.map SrvTarget.priority = some t.priority)

/-- Position `i` is filled by the entry with number `k` of those that remain: the first one whose running
sum reaches the number drawn. The one that was there takes its place. -/
structure Elected (rand i k : Nat) (srv srv' : List SrvTarget) : Prop where
  lt : k < (remaining srv i).length
  reaches : rand % (weightSum (remaining srv i) + 1) ≤ weightSum ((remaining srv i).take (k + 1))
  first : ∀ k' < k,
    weightSum ((remaining srv i).take (k' + 1)) < rand % (weightSum (remaining srv i) + 1)
  place : srv[i + k]? = (remaining srv i)[k]?
  exchanged : srv' = swap srv i (i + k)

/-- The positions from `i` on are filled, one after the other. -/
inductive Passed (rand : Nat → Nat) : Nat → List SrvTarget → List SrvTarget → Prop where
  | done (srv : List SrvTarget) : Passed rand srv.length srv srv
  | turn {i k : Nat} {srv srv' out : List SrvTarget} (elected : Elected (rand i) i k srv srv')
      (rest : Passed rand (i + 1) srv' out) : Passed rand i srv out

theorem length_runningSums (sum : Nat) (srv : List SrvTarget) :
    (runningSums sum srv).length = srv.length := by
  induction srv generalizing sum with
  | nil => rfl
  | cons t rest ih => simp [runningSums, ih]

theorem getElem?_runningSums (sum : Nat) (srv : List SrvTarget) {k : Nat} (hk : k < srv.length) :
    (runningSums sum srv)[k]? = some (sum + weightSum (srv.take (k + 1))) := by
  induction srv generalizing sum k with
  | nil => simp at hk
  | cons t rest ih =>
      cases k with
      | zero => simp [runningSums, weightSum]
      | succ k =>
          rw [runningSums, List.getElem?_cons_succ, ih _ (by simpa using hk)]
          simp [weightSum, Nat.add_assoc]

theorem getLastD_runningSums {srv : List SrvTarget} (h : srv ≠ []) :
    (runningSums 0 srv).getLastD 0 = weightSum srv := by
  have hpos := List.length_pos_iff.mpr h
  rw [List.getLastD_eq_getLast?, List.getLast?_eq_getElem?, length_runningSums,
    getElem?_runningSums 0 srv (by omega), List.take_of_length_le (by omega)]
  simp

/-- The entries are in nondecreasing priority. -/
theorem sortedTo_length_iff {srv : List SrvTarget} :
    SortedTo srv.length srv ↔ srv.Pairwise fun s t => s.priority ≤ t.priority := by
  rw [List.pairwise_iff_getElem]
  constructor
  · intro h a b ha hb hab
    exact h a b _ _ hab ha (List.getElem?_eq_getElem ha) (List.getElem?_eq_getElem hb)
  · intro h a b s t hab ha hs ht
    obtain ⟨hlt, rfl⟩ := List.getElem?_eq_some_iff.mp hs
    obtain ⟨hlt', rfl⟩ := List.getElem?_eq_some_iff.mp ht
    exact h a b hlt hlt' hab

theorem takeWhile_eq_filter {p : Nat} {srv : List SrvTarget}
    (h : srv.Pairwise fun s t => s.priority ≤ t.priority) (hge : ∀ t ∈ srv, p ≤ t.priority) :
    (srv.takeWhile fun t => t.priority == p) = srv.filter fun t => decide (p = t.priority) := by
  induction srv with
  | nil => rfl
  | cons s rest ih =>
      rw [List.pairwise_cons] at h
      by_cases hs : s.priority = p
      · have hrest := ih h.2 fun t ht => hge t (List.mem_cons_of_mem s ht)
        simp [hs, hrest]
      · -- all others come behind it
        have hlt : p < s.priority := lt_of_le_of_ne (hge s List.mem_cons_self) (Ne.symm hs)
        have hnone : ∀ t ∈ rest, ¬ p = t.priority := by
          intro t ht
          have hle := h.1 t ht
          omega
        simp [hs, Ne.symm hs]
        exact hnone

/-- In nondecreasing order, the entries of one priority stand together. -/
theorem samePriority_eq {i : Nat} {srv : List SrvTarget} (h : SortedTo srv.length srv) :
    samePriority srv i = remaining srv i := by
  have hsorted : (srv.drop i).Pairwise fun s t => s.priority ≤ t.priority :=
    (sortedTo_length_iff.mp h).drop
  unfold samePriority remaining
  cases hi : srv[i]? with
  | none =>
      rw [List.drop_eq_nil_of_le (List.getElem?_eq_none_iff.mp hi)]
      rfl
  | some s =>
      obtain ⟨hlt, rfl⟩ := List.getElem?_eq_some_iff.mp hi
      have hdrop := List.drop_eq_getElem_cons hlt
      rw [hdrop, List.pairwise_cons] at hsorted
      have hrest := takeWhile_eq_filter hsorted.2 hsorted.1
      rw [hdrop, List.filter_cons_of_pos (by simp)]
      simp [hrest]

/-- They begin at `i`. -/
theorem getElem?_remaining {i k : Nat} {srv : List SrvTarget} (h : SortedTo srv.length srv)
    (hk : k < (remaining srv i).length) :
    srv[i + k]? = (remaining srv i)[k]? ∧
      srv[i + k]?.map SrvTarget.priority = srv[i]?.map SrvTarget.priority := by
  have hprefix : samePriority srv i <+: srv.drop i := by
    unfold samePriority
    split
    · exact List.nil_prefix
    · rename_i s rest hdrop
      rw [hdrop]
      exact (List.prefix_cons_inj s).mpr (List.takeWhile_prefix _)
  rw [samePriority_eq h] at hprefix
  obtain ⟨others, hothers⟩ := hprefix
  have hplace : srv[i + k]? = (remaining srv i)[k]? := by
    rw [← List.getElem?_drop, ← hothers, List.getElem?_append_left hk]
  have hmem := List.of_mem_filter (List.getElem_mem hk)
  rw [decide_eq_true_eq] at hmem
  refine ⟨hplace, ?_⟩
  rw [hplace, List.getElem?_eq_getElem hk, hmem]
  rfl

/-- Two entries of one priority may be exchanged. -/
theorem sortedTo_swap_same {i j : Nat} {srv : List SrvTarget} (h : SortedTo srv.length srv)
    (hj : j < srv.length) (hi : i < srv.length)
    (hsame : srv[j]?.map SrvTarget.priority = srv[i]?.map SrvTarget.priority) :
    SortedTo (swap srv i j).length (swap srv i j) := by
  have hpriority : ∀ (k : Nat) (s : SrvTarget), (swap srv i j)[k]? = some s →
      ∃ s', srv[k]? = some s' ∧ s'.priority = s.priority := by
    intro k s hs
    rw [getElem?_swap hi hj] at hs
    rw [List.getElem?_eq_getElem hi, List.getElem?_eq_getElem hj] at hsame
    simp only [Option.map_some, Option.some.injEq] at hsame
    split at hs
    · rename_i hk
      rw [List.getElem?_eq_getElem hi, Option.some.injEq] at hs
      exact ⟨srv[j], by rw [hk, List.getElem?_eq_getElem hj], by rw [hsame, hs]⟩
    · split at hs
      · rename_i hk
        rw [List.getElem?_eq_getElem hj, Option.some.injEq] at hs
        exact ⟨srv[i], by rw [hk, List.getElem?_eq_getElem hi], by rw [← hsame, hs]⟩
      · exact ⟨s, hs, rfl⟩
  intro a b s t hab ha hs ht
  rcases hpriority a s hs with ⟨s', hs', hsprio⟩
  rcases hpriority b t ht with ⟨t', ht', htprio⟩
  rw [← hsprio, ← htprio]
  exact h a b s' t' hab (by rw [swap_length] at ha; exact ha) hs' ht'

/-- **One position.** An entry is always elected: the last running sum is not below the number drawn. -/
theorem electAt_elected (rand : Nat) {i : Nat} {srv : List SrvTarget} (h : SortedTo srv.length srv)
    (hi : i < srv.length) : ∃ k, electAt rand i srv = .ok (swap srv i (i + k)) ∧
      Elected rand i k srv (swap srv i (i + k)) := by
  have hne : remaining srv i ≠ [] := by
    rw [← samePriority_eq h, samePriority, List.drop_eq_getElem_cons hi]
    simp
  have hpos := List.length_pos_iff.mpr hne
  have hlen : (runningSums 0 (remaining srv i)).length = (remaining srv i).length :=
    length_runningSums 0 _
  have hlast := getLastD_runningSums hne
  have hall : weightSum ((remaining srv i).take ((remaining srv i).length - 1 + 1)) =
      weightSum (remaining srv i) := by
    rw [List.take_of_length_le (by omega)]
  have hdraw : rand % (weightSum (remaining srv i) + 1) ≤ weightSum (remaining srv i) :=
    Nat.lt_succ_iff.mp (Nat.mod_lt _ (Nat.succ_pos _))
  unfold electAt
  dsimp only
  rw [samePriority_eq h, hlast]
  by_cases hcount : 1 < (runningSums 0 (remaining srv i)).length
  · rw [if_pos hcount]
    have hget : ∀ k < (remaining srv i).length, (runningSums 0 (remaining srv i))[k]? =
        some (weightSum ((remaining srv i).take (k + 1))) := by
      intro k hk
      rw [getElem?_runningSums 0 _ hk, Nat.zero_add]
    cases hfind : (runningSums 0 (remaining srv i)).findIdx? fun sum =>
        decide (rand % (weightSum (remaining srv i) + 1) ≤ sum) with
    | none =>
        rw [List.findIdx?_eq_none_iff] at hfind
        have hsum := hget ((remaining srv i).length - 1) (by omega)
        rw [hall] at hsum
        have hno := hfind _ (List.mem_of_getElem? hsum)
        rw [decide_eq_false_iff_not] at hno
        exact absurd hdraw hno
    | some k =>
        rcases List.findIdx?_eq_some_iff_getElem.mp hfind with ⟨hk, hreaches, hbefore⟩
        have hk' : k < (remaining srv i).length := by omega
        have hsums : ∀ (m : Nat) (hm : m < (runningSums 0 (remaining srv i)).length),
            (runningSums 0 (remaining srv i))[m] = weightSum ((remaining srv i).take (m + 1)) := by
          intro m hm
          have hm' := hget m (by omega)
          rw [List.getElem?_eq_getElem hm, Option.some.injEq] at hm'
          exact hm'
        refine ⟨k, rfl, hk', ?_, fun m hm => ?_, (getElem?_remaining h hk').1, rfl⟩
        · rw [hsums k hk, decide_eq_true_eq] at hreaches
          exact hreaches
        · have hno := hbefore m hm
          rw [hsums m (by omega), decide_eq_true_eq, not_le] at hno
          exact hno
  · -- the only one
    rw [if_neg hcount]
    refine ⟨0, by rw [Nat.add_zero, swap_self], hpos, ?_, nofun, (getElem?_remaining h hpos).1, rfl⟩
    have hone : (remaining srv i).length - 1 + 1 = 0 + 1 := by omega
    rw [← hone, hall]
    exact hdraw

/-- **The second pass** fills all positions, with the same entries and in nondecreasing priority. -/
theorem electFrom_passed (rand : Nat → Nat) (left i : Nat) {srv : List SrvTarget}
    (h : SortedTo srv.length srv) (hlen : i + left = srv.length) :
    ∃ out, electFrom rand left i srv = .ok out ∧ Passed rand i srv out ∧
      SortedTo out.length out ∧ out.Perm srv := by
  induction left generalizing i srv with
  | zero =>
      obtain rfl : i = srv.length := hlen
      exact ⟨srv, rfl, .done srv, h, .refl srv⟩
  | succ left ih =>
      have hi : i < srv.length := by omega
      rcases electAt_elected (rand i) h hi with ⟨k, helect, helected⟩
      have hplace := getElem?_remaining h helected.lt
      have hk : i + k < srv.length := by
        have hsome := hplace.1
        rw [List.getElem?_eq_getElem helected.lt] at hsome
        exact (List.getElem?_eq_some_iff.mp hsome).1
      rcases @ih (i + 1) _ (sortedTo_swap_same h hk hi hplace.2) (by rw [swap_length]; omega) with
        ⟨out, hout, hpassed, hsorted, hperm⟩
      refine ⟨out, ?_, .turn helected hpassed, hsorted, hperm.trans (swap_perm srv i _)⟩
      simp only [electFrom, helect, hout]

theorem getElem?_swap_before {srv : List SrvTarget} {i j m : Nat} (hi : m < i) (hj : m < j) :
    (swap srv i j)[m]? = srv[m]? := by
  unfold swap
  split
  · rw [List.getElem?_set_ne (by omega), List.getElem?_set_ne (by omega)]
  · rfl

variable {rand : Nat → Nat} {srv out : List SrvTarget}

/-- What a position has been filled with stays there. -/
theorem Passed.before {i : Nat} (h : Passed rand i srv out) :
    ∀ m < i, m < srv.length → out[m]? = srv[m]? := by
  induction h with
  | done srv => exact fun _ _ _ => rfl
  | @turn i k srv srv' out elected _ ih =>
      intro m hm hlt
      rw [elected.exchanged] at ih
      rw [ih m (by omega) (by rw [swap_length]; exact hlt)]
      exact getElem?_swap_before hm (by omega)

/-- A position of the result, and the entries as they were when it was filled. -/
def Filled (rand : Nat → Nat) (srv out : List SrvTarget) (j : Nat) : Prop :=
  ∃ before k, before.Perm srv ∧ (∀ m < j, out[m]? = before[m]?) ∧
    Elected (rand j) j k before (swap before j (j + k)) ∧ out[j]? = (remaining before j)[k]?

theorem Passed.filled {i : Nat} (h : Passed rand i srv out) :
    ∀ j, i ≤ j → j < srv.length → Filled rand srv out j := by
  induction h with
  | done srv => exact fun j hj hlt => absurd hlt (by omega)
  | @turn i k srv srv' out elected rest ih =>
      have hperm : srv'.Perm srv := by
        rw [elected.exchanged]
        exact swap_perm srv i _
      intro j hij hlt
      rcases Nat.eq_or_lt_of_le hij with rfl | hij
      · have hk : i + k < srv.length := by
          have hsome := elected.place
          rw [List.getElem?_eq_getElem elected.lt] at hsome
          exact (List.getElem?_eq_some_iff.mp hsome).1
        refine ⟨srv, k, .refl srv, fun m hm => ?_, ?_, ?_⟩
        · rw [rest.before m (by omega) (by rw [hperm.length_eq]; omega), elected.exchanged]
          exact getElem?_swap_before hm (by omega)
        · rw [← elected.exchanged]
          exact elected
        · rw [rest.before i (by omega) (by rw [hperm.length_eq]; omega), elected.exchanged,
            getElem?_swap hlt hk, ← elected.place]
          by_cases hzero : i = i + k
          · rw [if_pos hzero, ← hzero]
          · rw [if_neg hzero, if_pos rfl]
      · rcases ih j hij (by rw [hperm.length_eq]; exact hlt) with ⟨before, m, hbefore, hfirst, hrest⟩
        exact ⟨before, m, hbefore.trans hperm, hfirst, hrest⟩

/-! ## The entries of an answer -/

/-- A target without its addresses. -/
def clearAddr (s : SrvTarget) : SrvTarget := { s with addr := [] }

theorem clearAddr_addAdditional {name : Str} {addr : InAddr} {srv' : List SrvTarget} {n : Nat}
    (h : addAdditional name addr srv = .ok (srv', n)) : srv'.map clearAddr = srv.map clearAddr := by
  induction srv generalizing srv' n with
  | nil =>
      cases h
      rfl
  | cons s rest ih =>
      unfold addAdditional at h
      split at h
      · split at h
        · cases h
          rfl
        · cases h
      · split at h
        · cases h
        · rename_i rest' m hrest
          cases h
          rw [List.map_cons, ih hrest, List.map_cons]

theorem clearAddr_addAllAdditional {arr : List ParsedRr} {srv' : List SrvTarget} {resolved n : Nat}
    (h : addAllAdditional arr srv resolved = .ok (srv', n)) :
    srv'.map clearAddr = srv.map clearAddr := by
  induction arr generalizing srv resolved with
  | nil =>
      cases h
      rfl
  | cons rr arr ih =>
      unfold addAllAdditional at h
      split at h
      · split at h
        · cases h
        · rename_i srv₁ m hadd
          rw [ih h, clearAddr_addAdditional hadd]
      · exact ih h

theorem clearAddr_addLiterals (aton : Str → Option InAddr) (srv : List SrvTarget) (resolved : Nat) :
    (addLiterals aton srv resolved).1.map clearAddr = srv.map clearAddr := by
  induction srv generalizing resolved with
  | nil => rfl
  | cons s rest ih =>
      have hliteral : clearAddr (withLiteral aton s) = clearAddr s := by
        unfold withLiteral
        split
        · rfl
        · split <;> rfl
      rw [addLiterals_cons]
      simp [hliteral, ih]

/-- The order of RFC 2782: the saved records, in nondecreasing priority, each position filled by the first
of the entries that remain for it whose running sum reaches the number drawn. -/
structure Ordered (rand : Nat → Nat) (ans : List ParsedRr) (srv : List SrvTarget) : Prop where
  perm : srv.Perm (saveRecords ans)
  sorted : srv.Pairwise fun s t => s.priority ≤ t.priority
  passed : Passed rand 0 (sortFrom ((saveRecords ans).length - 1) 0 (saveRecords ans)) srv
  filled : ∀ j < srv.length, Filled rand (saveRecords ans) srv j

theorem orderedTargets_ordered (rand : Nat → Nat) {ans : List ParsedRr}
    (hne : (saveRecords ans).length ≠ 0) :
    ∃ srv, orderedTargets rand ans = .ok srv ∧ Ordered rand ans srv := by
  rcases sortFrom_sorted ((saveRecords ans).length - 1) 0 (saveRecords ans) (by omega)
    (fun a b s t _ ha => absurd ha (by omega)) with ⟨hsorted, hperm⟩
  rcases electFrom_passed rand (saveRecords ans).length 0 hsorted
    (by rw [Nat.zero_add, hperm.length_eq]) with ⟨srv, helect, hpassed, hsorted', hperm'⟩
  refine ⟨srv, helect, hperm'.trans hperm, sortedTo_length_iff.mp hsorted', hpassed, fun j hj => ?_⟩
  rcases hpassed.filled j (Nat.zero_le j) (by rw [← hperm'.length_eq]; exact hj) with
    ⟨before, k, hbefore, hrest⟩
  exact ⟨before, k, hbefore.trans hperm, hrest⟩

/-! ## The addresses -/

/-- What an earlier target leaves for a later one. -/
theorem addrsOf_others (arr : List ParsedRr) (name name' : Str) :
    addrsOf (others arr name) name' = if stricmpEq name name' then [] else addrsOf arr name' := by
  induction arr with
  | nil => simp [others, addrsOf]
  | cons rr arr ih =>
      cases hname : stricmpEq rr.name name with
      | true =>
          rw [others_cons_same rr hname, ih]
          cases hnames : stricmpEq name name' with
          | true => rfl
          | false =>
              -- the record is not of the later name
              have hother : stricmpEq rr.name name' = false := by
                rw [Bool.eq_false_iff] at hnames ⊢
                intro h
                rw [stricmpEq_iff_key] at hname h
                exact hnames (stricmpEq_iff_key.mpr (hname.symm.trans h))
              rw [addrsOf_cons_other rr hother]
      | false =>
          rw [others_cons_other rr hname]
          cases hname' : stricmpEq rr.name name' with
          | false => rw [addrsOf_cons_other rr hname', addrsOf_cons_other rr hname', ih]
          | true =>
              have hnames : stricmpEq name name' = false := by
                rw [Bool.eq_false_iff] at hname ⊢
                intro h
                rw [stricmpEq_iff_key] at hname' h
                exact hname (stricmpEq_iff_key.mpr (hname'.trans h.symm))
              have hcons : ∀ rrs, addrsOf (rr :: rrs) name' =
                  addrsOf [rr] name' ++ addrsOf rrs name' := by
                intro rrs
                rw [addrsOf, addrsOf, addrsOf, ← List.filterMap_append]
                rfl
              rw [hcons, hcons arr, ih, hnames]
              rfl

/-- The number of addresses of each name says how many a target is given. -/
theorem roomy_iff (names : List Str) (arr : List ParsedRr) :
    Roomy names arr ↔ ∀ name ∈ names, (addrsOf arr name).length ≤ maxIpInARec := by
  induction names generalizing arr with
  | nil => simp [Roomy, given]
  | cons name names ih =>
      rw [roomy_cons, ih, List.forall_mem_cons]
      refine and_congr_right fun hname => forall₂_congr fun name' _ => ?_
      rw [addrsOf_others]
      cases hnames : stricmpEq name name' with
      | true =>
          have hsame : addrsOf arr name' = addrsOf arr name := by
            have hkey : ∀ rr : ParsedRr, stricmpEq rr.name name' = stricmpEq rr.name name := by
              intro rr
              rw [Bool.eq_iff_iff, stricmpEq_iff_key, stricmpEq_iff_key,
                stricmpEq_iff_key.mp hnames]
            unfold addrsOf
            simp only [hkey]
          simp [hsame, hname]
      | false => rfl

/-- **The server entries are in the order of RFC 2782 and in their places** exactly if no target's name has
more additional A records than a target has room for. -/
theorem buildServerEntries_ordered_iff (rand : Nat → Nat) (aton : Str → Option InAddr)
    (response : ParsedPacket) (resolved : Nat) :
    (∃ srv n, buildServerEntriesRaw rand aton response resolved = .ok (srv, n) ∧
        Ordered rand response.ans (srv.map clearAddr) ∧ ∀ s ∈ srv, s.addr.length ≤ maxIpInARec) ↔
      ∀ s ∈ saveRecords response.ans, (addrsOf response.arr s.targetName).length ≤ maxIpInARec := by
  rw [buildServerEntriesRaw_eq]
  by_cases hne : (saveRecords response.ans).length = 0
  · -- no record is saved
    have hnil := List.length_eq_zero_iff.mp hne
    refine iff_of_true ⟨[], resolved, by rw [buildServerEntries, if_pos hne], ?_, by simp⟩ (by simp [hnil])
    refine ⟨by rw [hnil]; exact .nil, .nil, ?_, by simp⟩
    rw [hnil]
    exact .done []
  · rcases orderedTargets_ordered rand hne with ⟨srv, heq, hordered⟩
    have hfresh : ∀ s ∈ srv, s.addr = [] := fun s hs =>
      saveRecords_addr (hordered.perm.mem_iff.mp hs)
    have hclear : srv.map clearAddr = srv := by
      refine (List.map_congr_left fun s hs => ?_).trans (List.map_id srv)
      rw [clearAddr, ← hfresh s hs]
      rfl
    have hroom : Roomy (srv.map SrvTarget.targetName) response.arr ↔
        ∀ s ∈ saveRecords response.ans, (addrsOf response.arr s.targetName).length ≤ maxIpInARec := by
      rw [roomy_iff, List.forall_mem_map]
      exact forall_congr' fun s => by rw [hordered.perm.mem_iff]
    rw [← hroom]
    by_cases hroomy : Roomy (srv.map SrvTarget.targetName) response.arr
    · refine iff_of_true ?_ hroomy
      rcases @entries_ok _ srv aton hfresh hroomy resolved with
        ⟨srv₁, r₁, srv₂, hadd, hlit, -, hcap⟩
      have hbuild : buildServerEntries rand aton response resolved =
          .ok (addLiterals aton srv₁ r₁) := by
        simp only [buildServerEntries, if_neg hne, heq, hadd]
      have hcleared := clearAddr_addLiterals aton srv₁ r₁
      rw [hlit] at hcleared hbuild
      refine ⟨srv₂, _, hbuild, ?_, hcap⟩
      dsimp only at hcleared
      rw [hcleared, clearAddr_addAllAdditional hadd, hclear]
      exact hordered
    · refine iff_of_false ?_ hroomy
      rintro ⟨srv', n, hok, -⟩
      have hover : buildServerEntries rand aton response resolved = .error .overflow := by
        simp only [buildServerEntries, if_neg hne, heq, entries_overflow hfresh hroomy]
      rw [hover] at hok
      cases hok

/-- One SRV record, and nine addresses for its target. -/
def nineAddresses : ParsedPacket :=
  ⟨0, [], [⟨[115], .srv 1 1 5060 [97]⟩], List.replicate 9 ⟨[97], .a 1⟩⟩

/-- The ninth is written behind the array. -/
theorem nineAddresses_overflow :
    buildServerEntriesRaw (fun _ => 0) (fun _ => none) nineAddresses 0 = .error .overflow ∧
      ¬ ∃ srv n, buildServerEntriesRaw (fun _ => 0) (fun _ => none) nineAddresses 0 = .ok (srv, n) ∧
        Ordered (fun _ => 0) nineAddresses.ans (srv.map clearAddr) ∧
          ∀ s ∈ srv, s.addr.length ≤ maxIpInARec := by
  have hover : buildServerEntriesRaw (fun _ => 0) (fun _ => none) nineAddresses 0 =
      .error .overflow := by decide
  refine ⟨hover, ?_⟩
  rintro ⟨srv, n, hok, -⟩
  rw [hover] at hok
  cases hok

end Srv
