import PjProject.Json.Write

set_option autoImplicit false

/-! # What `pj_json_write` reads and writes

The calls of an element are made until one goes beyond its array, or the buffer is full.
`staysInside_iff`: the first happens in front of the second only, if a list with names stands inside
33 others, for the indentation is tested before it grows.
-/

namespace Json

open Buffer Outcome
open Sdp (Str str)

variable {φ σ : Type}

/-! ## The calls on a buffer -/

/-- A call that goes beyond its array. -/
def Call.overruns : Call → Bool
  | .piece array size => array.length < size
  | .stop => false

/-- What a call writes. -/
def Call.bytes : Call → Str
  | .piece array size => array.take size
  | .stop => []

/-- What the calls write. -/
def textOf (calls : List Call) : Str := calls.flatMap Call.bytes

/-- The number of bytes in front of the first call that goes beyond its array, if the calls come so
far. -/
def lead : List Call → Option Nat
  | [] => none
  | .stop :: _ => none
  | .piece array size :: rest => if array.length < size then some 0 else (lead rest).map (size + ·)

/-- All the calls are made inside their arrays. -/
def Clean (calls : List Call) : Prop := ∀ c ∈ calls, c ≠ .stop ∧ c.overruns = false

theorem Clean.tail {c : Call} {calls : List Call} (h : Clean (c :: calls)) : Clean calls :=
  fun x hx => h x (List.mem_cons_of_mem c hx)

theorem lead_of_clean {calls : List Call} (h : Clean calls) : lead calls = none := by
  induction calls with
  | nil => rfl
  | cons c calls ih =>
      obtain ⟨hstop, hover⟩ := h c List.mem_cons_self
      cases c with
      | stop => exact absurd rfl hstop
      | piece array size =>
          have hle : ¬ array.length < size := by simpa [Call.overruns] using hover
          rw [lead, if_neg hle, ih h.tail]
          rfl

/-- The buffer as `pj_json_write` starts with it. -/
def BufWriterData.Ok (d : BufWriterData) : Prop := d.pos + d.size = d.buffer.length

variable {d : BufWriterData}

/-- What `buf_writer` does with bytes for which there is room. -/
theorem bufWriter_ok (hd : d.Ok) {s : Str} (hs : s.length + 1 < d.size) :
    bufWriter s d = .ok ⟨written d.buffer d.pos s, d.pos + s.length, d.size - s.length⟩ ∧
      (⟨written d.buffer d.pos s, d.pos + s.length, d.size - s.length⟩ : BufWriterData).Ok := by
  unfold BufWriterData.Ok at hd
  have hroom : d.pos + s.length ≤ d.buffer.length := by omega
  constructor
  · rw [bufWriter, if_neg (by omega), writeAt, access, if_pos (.inr hroom)]
    rfl
  · unfold BufWriterData.Ok
    rw [length_written hroom]
    dsimp only
    omega

theorem bufWriter_full {s : Str} (hs : d.size ≤ s.length + 1) : bufWriter s d = .error .etoobig := by
  rw [bufWriter, if_pos hs]

/-- **The calls on a buffer**: they are all made if they are inside their arrays and their text fits,
and else they end where the first of them does not. -/
theorem runCalls_bufWriter (hd : d.Ok) (h2 : 2 ≤ d.size) (calls : List Call) :
    (Clean calls ∧ (textOf calls).length + 1 < d.size ∧
      runCalls bufWriter calls d = .ok ⟨written d.buffer d.pos (textOf calls),
        d.pos + (textOf calls).length, d.size - (textOf calls).length⟩) ∨
    ((∀ n, lead calls = some n → d.size ≤ n + 1) ∧
      (Clean calls → d.size ≤ (textOf calls).length + 1) ∧
      runCalls bufWriter calls d = .error .etoobig) ∨
    ((∃ n, lead calls = some n ∧ n + 1 < d.size) ∧ runCalls bufWriter calls d = .error .overread) := by
  induction calls generalizing d with
  | nil =>
      refine .inl ⟨by simp [Clean], h2, ?_⟩
      simp [runCalls, textOf, written]
  | cons c calls ih =>
      cases c with
      | stop =>
          refine .inr (.inl ⟨?_, fun hclean => absurd rfl (hclean _ List.mem_cons_self).1, rfl⟩)
          intro n hn
          cases hn
      | piece array size =>
          by_cases hover : array.length < size
          · refine .inr (.inr ⟨⟨0, by rw [lead, if_pos hover], h2⟩, ?_⟩)
            rw [runCalls, if_neg (by omega)]
          · have hlen : (array.take size).length = size := by
              rw [List.length_take]
              omega
            have htext : textOf (.piece array size :: calls) = array.take size ++ textOf calls := rfl
            have hclean : Clean (.piece array size :: calls) ↔ Clean calls := by
              refine ⟨Clean.tail, fun h => List.forall_mem_cons.mpr ⟨⟨Call.noConfusion, ?_⟩, h⟩⟩
              simpa [Call.overruns] using hover
            rw [lead, if_neg hover, runCalls, if_pos (by omega), hclean, htext, List.length_append, hlen]
            by_cases hroom : size + 1 < d.size
            · obtain ⟨hwrite, hd'⟩ := bufWriter_ok hd (s := array.take size) (by omega)
              rw [hlen] at hwrite hd'
              rw [hwrite, ok_bind]
              rcases ih hd' (show 2 ≤ d.size - size by omega) with ⟨hc, hfit, hrun⟩ |
                ⟨hlead, hc, hrun⟩ | ⟨⟨n, hlead, hfit⟩, hrun⟩
              · dsimp only at hfit hrun
                refine .inl ⟨hc, by omega, ?_⟩
                unfold BufWriterData.Ok at hd
                rw [hrun, written_written (by omega) (by omega), Nat.add_assoc, Nat.sub_sub]
              · refine .inr (.inl ⟨?_, fun h => ?_, hrun⟩)
                · intro n hn
                  rcases Option.map_eq_some_iff.mp hn with ⟨m, hm, rfl⟩
                  have := hlead m hm
                  dsimp only at this
                  omega
                · have := hc h
                  dsimp only at this
                  omega
              · dsimp only at hfit
                exact .inr (.inr ⟨⟨size + n, by rw [hlead]; rfl, by omega⟩, hrun⟩)
            · rw [bufWriter_full (by omega)]
              refine .inr (.inl ⟨?_, fun _ => by omega, rfl⟩)
              intro n hn
              rcases Option.map_eq_some_iff.mp hn with ⟨m, hm, rfl⟩
              omega

/-! ## How deep the lists are -/

/-- No call goes beyond its array. -/
def NoOverrun (calls : List Call) : Prop := ∀ c ∈ calls, c.overruns = false

theorem lead_of_noOverrun {calls : List Call} (h : NoOverrun calls) : lead calls = none := by
  induction calls with
  | nil => rfl
  | cons c calls ih =>
      cases c with
      | stop => rfl
      | piece array size =>
          have hle : ¬ array.length < size := by
            simpa [Call.overruns] using h _ List.mem_cons_self
          rw [lead, if_neg hle, ih fun x hx => h x (List.mem_cons_of_mem _ hx)]
          rfl

theorem NoOverrun.append {xs ys : List Call} (hx : NoOverrun xs) (hy : NoOverrun ys) :
    NoOverrun (xs ++ ys) := by
  intro c hc
  rcases List.mem_append.mp hc with hc | hc
  · exact hx c hc
  · exact hy c hc

theorem NoOverrun.cons {array : Str} {size : Nat} {ys : List Call} (h : size ≤ array.length)
    (hy : NoOverrun ys) : NoOverrun (.piece array size :: ys) := by
  refine List.forall_mem_cons.mpr ⟨?_, hy⟩
  simpa [Call.overruns] using h

theorem NoOverrun.nil : NoOverrun [] := nofun

theorem NoOverrun.all (s : Str) : NoOverrun [.all s] := NoOverrun.cons (Nat.le_refl _) .nil

theorem strCalls_noOverrun (value : Str) : NoOverrun (strCalls value) := by
  intro c hc
  rcases List.mem_map.mp hc with ⟨piece, -, rfl⟩
  simp [Call.all, Call.overruns]

theorem nameCalls_noOverrun (noName : Bool) {k : Nat} (hk : k ≤ maxIndent) (name : Str) :
    NoOverrun (nameCalls noName k name) := by
  have hindent : k ≤ indentBuf.length := by
    simpa [indentBuf] using hk
  unfold nameCalls
  by_cases hname : name = []
  · rw [if_pos hname]
    exact .nil
  · rw [if_neg hname]
    refine NoOverrun.cons hindent ?_
    cases noName with
    | true => exact .nil
    | false =>
        refine NoOverrun.cons (Nat.le_refl _)
          ((strCalls_noOverrun name).append (NoOverrun.cons (Nat.le_refl _) ?_))
        by_cases hlen : name.length < nameMinLen
        · rw [if_pos hlen]
          exact NoOverrun.cons (by simp [space]) .nil
        · rw [if_neg hlen]
          exact .nil

/-- The list is written with names: its first child has one. -/
def hasNames : List (JsonElem φ) → Bool
  | [] => false
  | child :: _ => child.name ≠ []

mutual

/-- How many lists with names stand inside one another. -/
def namedDepth : JsonElem φ → Nat
  | .array _ children => (hasNames children).toNat + maxDepth children
  | .obj _ children => (hasNames children).toNat + maxDepth children
  | _ => 0

/-- The greatest depth of a list of elements. -/
def maxDepth : List (JsonElem φ) → Nat
  | [] => 0
  | child :: rest => max (namedDepth child) (maxDepth rest)

end

/-- Between the brackets of a list. -/
theorem memberCalls_noOverrun {k : Nat} {children : List (JsonElem φ)}
    (hk : k + indentSize * ((hasNames children).toNat + maxDepth children) ≤ maxIndent)
    {loop : Bool → Nat → List Call}
    (hloop : ∀ named k, k + indentSize * maxDepth children ≤ maxIndent → NoOverrun (loop named k)) :
    NoOverrun (memberCalls k children loop) := by
  cases children with
  | nil => exact .nil
  | cons child rest =>
      rw [memberCalls]
      by_cases hname : child.name = []
      · rw [if_pos hname]
        refine hloop false k ?_
        simpa [hasNames, hname] using hk
      · simp only [hasNames, hname, ne_eq, not_false_eq_true, decide_true, Bool.toNat_true, indentSize,
          maxIndent] at hk
        have hindent : k ≤ indentBuf.length := by
          simp only [indentBuf, maxIndent, List.length_replicate]
          omega
        have hdeeper : deeper k = k + indentSize := by
          rw [deeper, if_pos (by simp only [maxIndent]; omega)]
        rw [if_neg hname, hdeeper]
        refine NoOverrun.cons (Nat.le_refl _) ((hloop true _ ?_).append (NoOverrun.cons hindent .nil))
        simp only [indentSize, maxIndent]
        omega

section

variable (F : CFloat φ)

mutual

/-- Down to the depth 33 every indentation is inside `indent_buf`. -/
theorem elemCalls_noOverrun (noName : Bool) (e : JsonElem φ) {k : Nat}
    (hk : k + indentSize * namedDepth e ≤ maxIndent) : NoOverrun (elemCalls F noName k e) := by
  have hname : NoOverrun (nameCalls noName k e.name) := nameCalls_noOverrun noName (by omega) e.name
  cases e with
  | null name => exact hname.append (.all _)
  | bool name b => exact hname.append (.all _)
  | number name num =>
      refine hname.append ?_
      unfold numCalls
      by_cases hlen : (numText F num).length ≥ 65
      · rw [if_pos hlen]
        exact List.forall_mem_singleton.mpr rfl
      · rw [if_neg hlen]
        exact .all _
  | string name value =>
      exact hname.append (NoOverrun.cons (Nat.le_refl _) ((strCalls_noOverrun value).append (.all _)))
  | array name children =>
      refine hname.append (NoOverrun.cons (Nat.le_refl _) (NoOverrun.cons (Nat.le_refl _) ?_))
      exact (memberCalls_noOverrun hk fun named k hk => loopCalls_noOverrun named true children hk).append
        (.all _)
  | obj name children =>
      refine hname.append (NoOverrun.cons (Nat.le_refl _) (NoOverrun.cons (Nat.le_refl _) ?_))
      exact (memberCalls_noOverrun hk fun named k hk => loopCalls_noOverrun named false children hk).append
        (.all _)

theorem loopCalls_noOverrun (named noName : Bool) (children : List (JsonElem φ)) {k : Nat}
    (hk : k + indentSize * maxDepth children ≤ maxIndent) :
    NoOverrun (loopCalls F named noName k children) := by
  cases children with
  | nil => exact .nil
  | cons child rest =>
      have hmax : maxDepth (child :: rest) = max (namedDepth child) (maxDepth rest) := rfl
      simp only [hmax, indentSize, maxIndent] at hk
      have hchild : k + indentSize * namedDepth child ≤ maxIndent := by
        simp only [indentSize, maxIndent]
        omega
      have hrest : k + indentSize * maxDepth rest ≤ maxIndent := by
        simp only [indentSize, maxIndent]
        omega
      refine (elemCalls_noOverrun noName child hchild).append
        (NoOverrun.append ?_ (loopCalls_noOverrun named noName rest hrest))
      unfold separatorCalls
      cases rest.isEmpty with
      | false => exact .all _
      | true =>
          cases named with
          | false => exact .nil
          | true => exact .all _

end

/-! ## `pj_json_write` -/

variable {F} {elem : JsonElem φ} {buffer : Str}

/-- `pj_json_write` makes the calls of its element, and stores a NUL. -/
theorem pjJsonWrite_eq : pjJsonWrite F elem buffer = (do
    let d ← runCalls bufWriter (elemCalls F false 0 elem) ⟨buffer, 0, buffer.length⟩
    let buffer ← writeAt .overflow d.buffer d.pos [0]
    return (buffer, d.pos)) := by
  rw [pjJsonWrite, pjJsonWritef, elemWrite_sends, bind_assoc]
  rfl

/-- The first call is inside its array, or there is none. -/
def FirstInside : List Call → Prop
  | .piece array size :: _ => size ≤ array.length
  | _ => True

theorem elemCalls_first (noName : Bool) (e : JsonElem φ) : FirstInside (elemCalls F noName 0 e) := by
  have hfirst : ∀ {name : Str} {calls : List Call}, FirstInside calls →
      FirstInside (nameCalls noName 0 name ++ calls) := by
    intro name calls hcalls
    unfold nameCalls
    by_cases hname : name = []
    · rw [if_pos hname]
      exact hcalls
    · rw [if_neg hname]
      exact Nat.zero_le _
  cases e with
  | null name => exact hfirst (Nat.le_refl _)
  | bool name b => exact hfirst (Nat.le_refl _)
  | number name num =>
      refine hfirst ?_
      unfold numCalls
      by_cases hlen : (numText F num).length ≥ 65
      · rw [if_pos hlen]
        exact trivial
      · rw [if_neg hlen]
        exact Nat.le_refl _
  | string name value => exact hfirst (Nat.le_refl _)
  | array name children => exact hfirst (Nat.le_refl _)
  | obj name children => exact hfirst (Nat.le_refl _)

/-- In a buffer of one byte, or none, nothing is written. -/
theorem runCalls_one {d : BufWriterData} (h1 : d.size ≤ 1) {calls : List Call} (hfirst : FirstInside calls)
    (hne : calls ≠ []) : runCalls bufWriter calls d = .error .etoobig := by
  cases calls with
  | nil => exact absurd rfl hne
  | cons c calls =>
      cases c with
      | stop => rfl
      | piece array size =>
          have hin : size ≤ array.length := hfirst
          rw [runCalls, if_pos hin, bufWriter_full (by omega)]
          rfl

theorem elemCalls_ne_nil (noName : Bool) (k : Nat) (e : JsonElem φ) : elemCalls F noName k e ≠ [] := by
  cases e with
  | number name num =>
      simp only [elemCalls, numCalls]
      by_cases hlen : (numText F num).length ≥ 65
      · simp [hlen]
      · simp [hlen]
  | _ => simp [elemCalls, childrenCalls]

/-- **`pj_json_write`**: it writes the text of the element if all calls are inside their arrays and the
text fits, and else it ends where the first of them does not. -/
theorem pjJsonWrite_cases :
    (Clean (elemCalls F false 0 elem) ∧ (textOf (elemCalls F false 0 elem)).length + 1 < buffer.length ∧
      pjJsonWrite F elem buffer =
        .ok (written buffer 0 (textOf (elemCalls F false 0 elem) ++ [0]),
          (textOf (elemCalls F false 0 elem)).length)) ∨
    ((∀ n, lead (elemCalls F false 0 elem) = some n → buffer.length ≤ n + 1) ∧
      (Clean (elemCalls F false 0 elem) →
        buffer.length ≤ (textOf (elemCalls F false 0 elem)).length + 1) ∧
      pjJsonWrite F elem buffer = .error .etoobig) ∨
    ((∃ n, lead (elemCalls F false 0 elem) = some n ∧ n + 1 < buffer.length) ∧
      pjJsonWrite F elem buffer = .error .overread) := by
  rw [pjJsonWrite_eq]
  by_cases h2 : 2 ≤ buffer.length
  · have hd : (⟨buffer, 0, buffer.length⟩ : BufWriterData).Ok := Nat.zero_add _
    rcases runCalls_bufWriter hd h2 (elemCalls F false 0 elem) with ⟨hclean, hfit, hrun⟩ |
      ⟨hlead, hclean, hrun⟩ | ⟨hlead, hrun⟩
    · refine .inl ⟨hclean, hfit, ?_⟩
      dsimp only at hfit hrun
      rw [hrun, ok_bind]
      dsimp only
      have hroom : (textOf (elemCalls F false 0 elem)).length + [(0 : UInt8)].length ≤
          (written buffer 0 (textOf (elemCalls F false 0 elem))).length := by
        rw [length_written (by omega), List.length_singleton]
        omega
      have hwritten : written (written buffer 0 (textOf (elemCalls F false 0 elem)))
          (textOf (elemCalls F false 0 elem)).length [0] =
            written buffer 0 (textOf (elemCalls F false 0 elem) ++ [0]) :=
        written_written (Nat.zero_le _) (Nat.zero_add _).symm
      rw [Nat.zero_add, writeAt, access, if_pos (.inr hroom), ok_bind, ← hwritten]
      rfl
    · exact .inr (.inl ⟨hlead, hclean, by rw [hrun]; rfl⟩)
    · exact .inr (.inr ⟨hlead, by rw [hrun]; rfl⟩)
  · have hsize : buffer.length ≤ 1 := by omega
    refine .inr (.inl ⟨fun n _ => by omega, fun _ => by omega, ?_⟩)
    rw [runCalls_one hsize (elemCalls_first false elem) (elemCalls_ne_nil false 0 elem)]
    rfl

/-- Writing an element to a buffer of `buffer.length` bytes stays inside: each call of the writer is
inside its array, and each store inside the buffer, the NUL included; `write_string_escaped` comes to
its end inside its own buffer, for any writer that does so; and behind a list of children the
indentation is what it was. -/
structure StaysInside (F : CFloat φ) (elem : JsonElem φ) (buffer : Str) : Prop where
  inside : Holds (fun r => r.1.length = buffer.length ∧ r.2 < buffer.length) (· = .etoobig)
    (pjJsonWrite F elem buffer)
  escaped : ∀ (σ : Type) (writer : Writer σ) (value : Str) (st : WriteState σ),
    (∀ s userData, Holds (fun _ => True) (· = .etoobig) (writer s userData)) →
      Holds (fun _ => True) (· = .etoobig) (writeStringEscaped writer value st)
  indent : ∀ (σ : Type) (writer : Writer σ) (quotes : UInt8 × UInt8) (noName : Bool)
    (children : List (JsonElem φ)) (st st' : WriteState σ),
    writeChildren writer quotes children
      (fun named st => childLoop F writer named noName children st) st = .ok st' →
        st'.indent = st.indent

/-- Calls inside their arrays end as their writer does. -/
theorem runCalls_holds {writer : Writer σ} {calls : List Call} (h : NoOverrun calls)
    (hwriter : ∀ s userData, Holds (fun _ => True) (· = .etoobig) (writer s userData)) (userData : σ) :
    Holds (fun _ => True) (· = .etoobig) (runCalls writer calls userData) := by
  induction calls generalizing userData with
  | nil => exact trivial
  | cons c calls ih =>
      cases c with
      | stop => exact rfl
      | piece array size =>
          have hin : size ≤ array.length := by
            simpa [Call.overruns] using h _ List.mem_cons_self
          rw [runCalls, if_pos hin]
          exact Holds.bind (hwriter _ _) fun userData _ =>
            ih (fun x hx => h x (List.mem_cons_of_mem _ hx)) userData

theorem writeStringEscaped_holds (σ : Type) (writer : Writer σ) (value : Str) (st : WriteState σ)
    (hwriter : ∀ s userData, Holds (fun _ => True) (· = .etoobig) (writer s userData)) :
    Holds (fun _ => True) (· = .etoobig) (writeStringEscaped writer value st) := by
  rw [show writeStringEscaped writer value st =
    writeStringEscaped writer value ⟨st.userData, st.indent⟩ from rfl, writeStringEscaped_sends]
  exact Holds.bind (runCalls_holds (strCalls_noOverrun value) hwriter st.userData) fun _ _ => trivial

theorem writeChildren_indent (σ : Type) (writer : Writer σ) (quotes : UInt8 × UInt8) (noName : Bool)
    (children : List (JsonElem φ)) (st st' : WriteState σ)
    (h : writeChildren writer quotes children
      (fun named st => childLoop F writer named noName children st) st = .ok st') :
    st'.indent = st.indent := by
  have hsends := writeChildren_sends writer quotes st.indent children
    fun named k => childLoop_sends F writer named noName children k
  exact hsends.indent h

/-- A call that goes beyond its array is reached if the text in front of it fits. -/
theorem not_staysInside_of_lead {n : Nat} (hlead : lead (elemCalls F false 0 elem) = some n)
    (hfit : n + 1 < buffer.length) : ¬ StaysInside F elem buffer := by
  intro hstays
  have hbad := hstays.inside
  rcases @pjJsonWrite_cases φ F elem buffer with ⟨hclean, -⟩ | ⟨hsmall, -⟩ | ⟨-, hrun⟩
  · rw [lead_of_clean hclean] at hlead
    cases hlead
  · have hle := hsmall n hlead
    omega
  · rw [hrun] at hbad
    cases hbad

/-- Nothing goes beyond its array if the first call that would is not reached. -/
theorem staysInside_iff_lead :
    StaysInside F elem buffer ↔
      ∀ n, lead (elemCalls F false 0 elem) = some n → buffer.length ≤ n + 1 := by
  rcases @pjJsonWrite_cases φ F elem buffer with ⟨hclean, hfit, hrun⟩ | ⟨hlead, -, hrun⟩ |
    ⟨⟨n, hlead, hfit⟩, hrun⟩
  · rw [lead_of_clean hclean]
    refine ⟨fun _ => nofun, fun _ => ⟨?_, writeStringEscaped_holds, writeChildren_indent⟩⟩
    rw [hrun]
    refine ⟨length_written ?_, by dsimp only; omega⟩
    rw [List.length_append, List.length_singleton]
    omega
  · refine ⟨fun _ => hlead, fun _ => ⟨?_, writeStringEscaped_holds, writeChildren_indent⟩⟩
    rw [hrun]
    exact rfl
  · constructor
    · intro hstays
      exact absurd hstays (not_staysInside_of_lead hlead hfit)
    · intro hsmall
      have hle := hsmall n hlead
      omega

/-- Where at most 33 lists with names stand inside one another, no call goes beyond its array. -/
theorem lead_of_depth (hdepth : namedDepth elem ≤ 33) : lead (elemCalls F false 0 elem) = none := by
  refine lead_of_noOverrun (elemCalls_noOverrun F false elem ?_)
  simp only [indentSize, maxIndent]
  omega

/-- **`pj_json_write` stays inside** if and only if no list with names stands inside 33 others, or the
text in front of the first indentation that is too long does not fit the buffer. -/
theorem staysInside_iff :
    StaysInside F elem buffer ↔ namedDepth elem ≤ 33 ∨
      ∀ n, lead (elemCalls F false 0 elem) = some n → buffer.length ≤ n + 1 := by
  rw [staysInside_iff_lead]
  constructor
  · exact Or.inr
  · rintro (hdepth | hsmall)
    · rw [lead_of_depth hdepth]
      exact nofun
    · exact hsmall

end

/-- Numbers that are integers. -/
def CFloat.ints : CFloat Int where
  toInt n := some n
  fixed _ := []
  ofInt n := n
  neg n := -n
  withFraction n _ _ := n
  toInt_ofInt _ _ := rfl
  neg_ofInt _ _ _ := rfl

/-- An object in an object in an object, `n` of them, and an integer inside. -/
def nested : Nat → JsonElem Int
  | 0 => .number [97] 1
  | n + 1 => .obj [97] [nested n]

/-- 34 objects inside one another, and a buffer with the room for them. -/
theorem not_staysInside_nested : ¬ StaysInside CFloat.ints (nested 34) (List.replicate 3000 0) := by
  have hlead : lead (elemCalls CFloat.ints false 0 (nested 34)) = some 2601 := by
    decide +kernel
  refine not_staysInside_of_lead hlead ?_
  rw [List.length_replicate]
  omega

end Json
