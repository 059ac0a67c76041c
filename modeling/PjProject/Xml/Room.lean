import PjProject.Xml.Print

set_option autoImplicit false

/-! # The room that a tree needs

Where the steps of a node lead depends on the room only. `Demands steps need closes` says that they go
through if and only if the room is `need` at least, and are stranded, at a step that is not refused and
does not fit, if and only if it ends less than three bytes behind one of `closes`. `node_demands` gives
both numbers for a tree: `need` is the length of its text, or one more, and `closes` are the places
where a node without content and sub nodes is closed behind the value of an attribute.
-/

namespace Xml

open Buffer Outcome
open Sdp (Str)

/-! ## Where the steps lead -/

/-- Through, to a step that is refused, or to one for which there is no room, the last one or not. -/
inductive Walk where
  | through
  | refused
  | stranded (last : Bool)
  deriving DecidableEq

def walk : List Step → Int → Walk
  | [], _ => .through
  | (need, s) :: rest, left =>
      if left < need then .refused
      else if left < s.length then .stranded rest.isEmpty
      else walk rest (left - s.length)

variable {xs ys : List Step} {left : Int} {buf : Str} {p : Nat}

theorem writeAt_ok {bytes : Str} (h : p + bytes.length ≤ buf.length) :
    (writeAt .overrun buf p bytes : Except PrintStop Str) = .ok (written buf p bytes) := by
  rw [writeAt, access, if_pos (.inr h)]
  rfl

/-- All the steps are made. -/
theorem run_through (hin : p + (textOf xs).length ≤ buf.length) (hwalk : walk xs left = .through) :
    run xs left buf p = .ok (written buf p (textOf xs), p + (textOf xs).length) := by
  induction xs generalizing left buf p with
  | nil => simp [run, written]
  | cons step rest ih =>
      obtain ⟨need, s⟩ := step
      rw [walk] at hwalk
      split_ifs at hwalk with hneed hroom
      rw [textOf_cons, List.length_append] at hin ⊢
      dsimp only at hin ⊢
      rw [run, if_neg hneed, writeAt_ok (by omega), ok_bind,
        ih (by rw [length_written (by omega)]; omega) hwalk, written_written (by omega) rfl, Nat.add_assoc]

/-- A step is refused. -/
theorem run_refused (hin : (p : Int) + left ≤ buf.length) (hwalk : walk xs left = .refused) :
    ∃ buf', run xs left buf p = .error (.nospace buf') ∧ buf'.length = buf.length := by
  induction xs generalizing left buf p with
  | nil => cases hwalk
  | cons step rest ih =>
      obtain ⟨need, s⟩ := step
      rw [walk] at hwalk
      rw [run]
      by_cases hneed : left < need
      · rw [if_pos hneed]
        exact ⟨buf, rfl, rfl⟩
      · rw [if_neg hneed] at hwalk ⊢
        split_ifs at hwalk with hroom
        have hwrite : p + s.length ≤ buf.length := by omega
        rw [writeAt_ok hwrite, ok_bind]
        have hin' : ((p + s.length : Nat) : Int) + (left - s.length) ≤ (written buf p s).length := by
          rw [length_written hwrite]
          push_cast
          omega
        obtain ⟨buf', hrun, hlen⟩ := ih hin' hwalk
        exact ⟨buf', hrun, hlen.trans (length_written hwrite)⟩

/-- A step has no room in the buffer. -/
theorem run_overrun {last : Bool} (hin : (p : Int) + left = buf.length)
    (hwalk : walk xs left = .stranded last) : run xs left buf p = .error .overrun := by
  induction xs generalizing left buf p with
  | nil => cases hwalk
  | cons step rest ih =>
      obtain ⟨need, s⟩ := step
      rw [walk] at hwalk
      split_ifs at hwalk with hneed hroom
      · have hout : ¬ (s = [] ∨ p + s.length ≤ buf.length) := by
          rintro (rfl | hle)
          · simp at hroom
            omega
          · omega
        rw [run, if_neg hneed, writeAt, access, if_neg hout]
        rfl
      · have hwrite : p + s.length ≤ buf.length := by omega
        rw [run, if_neg hneed, writeAt_ok hwrite, ok_bind]
        exact ih (by rw [length_written hwrite]; push_cast; omega) hwalk

/-- In a buffer with more room than that, the step behind it is refused. -/
theorem run_stranded {last : Bool} (hroomy : Roomy 3 xs) (hin : (p : Int) + left + 3 ≤ buf.length)
    (hwalk : walk xs left = .stranded last) :
    if last then run xs left buf p = .ok (written buf p (textOf xs), p + (textOf xs).length) ∧
        (textOf xs).length ≤ left + 3
    else ∃ buf', run xs left buf p = .error (.nospace buf') ∧ buf'.length = buf.length := by
  induction xs generalizing left buf p with
  | nil => cases hwalk
  | cons step rest ih =>
      obtain ⟨need, s⟩ := step
      obtain ⟨hstep, hrest⟩ := List.forall_mem_cons.mp hroomy
      dsimp only at hstep
      rw [walk] at hwalk
      rw [run]
      split_ifs at hwalk with hneed hroom
      · have hwrite : p + s.length ≤ buf.length := by omega
        rw [if_neg hneed, writeAt_ok hwrite, ok_bind]
        cases rest with
        | nil =>
            cases hwalk
            simp only [List.isEmpty_nil, if_true, run, textOf_cons, textOf_nil, List.append_nil, true_and]
            omega
        | cons next rest =>
            rw [List.isEmpty_cons, Walk.stranded.injEq] at hwalk
            subst hwalk
            obtain ⟨need', s'⟩ := next
            rw [run, if_pos (show left - s.length < need' by omega)]
            exact ⟨written buf p s, rfl, length_written hwrite⟩
      · have hwrite : p + s.length ≤ buf.length := by omega
        rw [if_neg hneed, writeAt_ok hwrite, ok_bind]
        have hin' : ((p + s.length : Nat) : Int) + (left - s.length) + 3 ≤ (written buf p s).length := by
          rw [length_written hwrite]
          push_cast
          omega
        have hrun := ih hrest hin' hwalk
        cases last with
        | true =>
            simp only [if_true] at hrun ⊢
            rw [hrun.1, written_written (by omega) rfl, textOf_cons, List.length_append]
            dsimp only
            rw [Nat.add_assoc]
            exact ⟨rfl, by push_cast; omega⟩
        | false =>
            simp only [Bool.false_eq_true, if_false] at hrun ⊢
            obtain ⟨buf', hrun, hlen⟩ := hrun
            exact ⟨buf', hrun, hlen.trans (length_written hwrite)⟩

theorem walk_append (left : Int) : walk (xs ++ ys) left =
    match walk xs left with
    | .through => walk ys (left - (textOf xs).length)
    | .refused => .refused
    | .stranded last => .stranded (last && ys.isEmpty) := by
  induction xs generalizing left with
  | nil => simp [walk]
  | cons step rest ih =>
      obtain ⟨need, s⟩ := step
      rw [List.cons_append, walk, walk]
      split_ifs with hneed hroom
      · rfl
      · cases rest with
        | nil => rfl
        | cons next rest => rfl
      · rw [ih, textOf_cons, List.length_append]
        dsimp only
        push_cast
        rw [show left - (s.length + (textOf rest).length) = left - s.length - (textOf rest).length by omega]

/-! ## What steps demand -/

/-- The room ends less than three bytes behind one of the places. -/
def InWindow (left : Int) (closes : List Nat) : Prop := ∃ w ∈ closes, (w : Int) ≤ left ∧ left < w + 3

/-- The steps go through with the room `need` and more; with less, they are stranded if the room ends
behind one of `closes`, and refused if not. -/
structure Demands (steps : List Step) (need : Nat) (closes : List Nat) : Prop where
  through : ∀ {left}, walk steps left = .through → (need : Int) ≤ left
  refused : ∀ {left}, walk steps left = .refused → left < need ∧ ¬ InWindow left closes
  stranded : ∀ {left last}, walk steps left = .stranded last → InWindow left closes
  inside : ∀ w ∈ closes, w + 3 ≤ need

variable {need need' : Nat} {closes closes' : List Nat}

theorem InWindow.lt (h : InWindow left closes) (hin : ∀ w ∈ closes, w + 3 ≤ need) : left < need := by
  obtain ⟨w, hw, -, hlt⟩ := h
  have hle := hin w hw
  omega

/-- With the room, the steps go through. -/
theorem Demands.walk_of_le (h : Demands xs need closes) (hleft : need ≤ left) : walk xs left = .through := by
  cases hwalk : walk xs left with
  | through => rfl
  | refused =>
      have hlt := (h.refused hwalk).1
      omega
  | stranded last =>
      have hlt := (h.stranded hwalk).lt h.inside
      omega

theorem demands_step (step : Step) (h : step.2.length ≤ step.1) : Demands [step] step.1 [] := by
  obtain ⟨need, s⟩ := step
  dsimp only at h
  have hwalk (left : Int) : walk [(need, s)] left = if left < need then .refused else .through := by
    rw [walk]
    by_cases hneed : left < need
    · rw [if_pos hneed, if_pos hneed]
    · rw [if_neg hneed, if_neg hneed, if_neg (by omega), walk]
  have hnone (left : Int) : ¬ InWindow left [] := by
    rintro ⟨w, hw, -⟩
    cases hw
  refine ⟨fun {left} hthrough => ?_, fun {left} hrefused => ?_, fun {left last} hstranded => ?_, nofun⟩
  · rw [hwalk] at hthrough
    by_contra hlt
    rw [if_pos (by omega)] at hthrough
    cases hthrough
  · rw [hwalk] at hrefused
    by_cases hneed : left < need
    · exact ⟨hneed, hnone left⟩
    · rw [if_neg hneed] at hrefused
      cases hrefused
  · rw [hwalk] at hstranded
    split_ifs at hstranded

theorem inWindow_append (k : Nat) : InWindow left (closes ++ closes'.map (k + ·)) ↔
    InWindow left closes ∨ InWindow (left - k) closes' := by
  constructor
  · rintro ⟨w, hw, hle, hlt⟩
    rcases List.mem_append.mp hw with hw | hw
    · exact .inl ⟨w, hw, hle, hlt⟩
    · obtain ⟨v, hv, rfl⟩ := List.mem_map.mp hw
      exact .inr ⟨v, hv, by push_cast at hle; omega, by push_cast at hlt; omega⟩
  · rintro (⟨w, hw, hle, hlt⟩ | ⟨v, hv, hle, hlt⟩)
    · exact ⟨w, List.mem_append_left _ hw, hle, hlt⟩
    · exact ⟨k + v, List.mem_append_right _ (List.mem_map_of_mem hv), by push_cast; omega, by push_cast; omega⟩

/-- Steps behind others, which demand no more than they do. -/
theorem Demands.append (hx : Demands xs need closes) (hy : Demands ys need' closes')
    (hneed : need ≤ (textOf xs).length + need') (hlate : ∀ w ∈ closes', need ≤ (textOf xs).length + w) :
    Demands (xs ++ ys) ((textOf xs).length + need') (closes ++ closes'.map ((textOf xs).length + ·)) := by
  have hcases (left : Int) := @walk_append xs ys left
  refine ⟨fun {left} hthrough => ?_, fun {left} hrefused => ?_, fun {left last} hstranded => ?_, ?_⟩
  · rw [hcases] at hthrough
    cases hwalk : walk xs left with
    | through =>
        rw [hwalk] at hthrough
        have hle := hy.through hthrough
        push_cast
        omega
    | refused | stranded =>
        rw [hwalk] at hthrough
        cases hthrough
  · rw [hcases] at hrefused
    rw [inWindow_append]
    cases hwalk : walk xs left with
    | through =>
        rw [hwalk] at hrefused
        have hle := hx.through hwalk
        obtain ⟨hlt, hnone⟩ := hy.refused hrefused
        refine ⟨by push_cast; omega, ?_⟩
        rintro (hin | hin)
        · have hlt' := hin.lt hx.inside
          omega
        · exact hnone hin
    | refused =>
        obtain ⟨hlt, hnone⟩ := hx.refused hwalk
        refine ⟨by push_cast; omega, ?_⟩
        rintro (hin | ⟨w, hw, hle, -⟩)
        · exact hnone hin
        · have hle' := hlate w hw
          omega
    | stranded last =>
        rw [hwalk] at hrefused
        cases hrefused
  · rw [hcases] at hstranded
    rw [inWindow_append]
    cases hwalk : walk xs left with
    | through =>
        rw [hwalk] at hstranded
        exact .inr (hy.stranded hstranded)
    | refused =>
        rw [hwalk] at hstranded
        cases hstranded
    | stranded last => exact .inl (hx.stranded hwalk)
  · intro w hw
    rcases List.mem_append.mp hw with hw | hw
    · have hle := hx.inside w hw
      omega
    · obtain ⟨v, hv, rfl⟩ := List.mem_map.mp hw
      have hle := hy.inside v hv
      omega

theorem Demands.cons (step : Step) (hstep : step.2.length ≤ step.1) (hy : Demands ys need closes)
    (hneed : step.1 ≤ step.2.length + need) (hlate : ∀ w ∈ closes, step.1 ≤ step.2.length + w) :
    Demands (step :: ys) (step.2.length + need) (closes.map (step.2.length + ·)) := by
  have htext : textOf [step] = step.2 := by
    rw [textOf_cons, textOf_nil, List.append_nil]
  have hboth := (demands_step step hstep).append hy (by rw [htext]; exact hneed) (by rw [htext]; exact hlate)
  rw [htext] at hboth
  exact hboth

/-- Steps behind others that demand the room for both. -/
theorem Demands.append_within (hx : Demands xs need closes) (hy : Demands ys need' closes')
    (hneed : (textOf xs).length + need' ≤ need) : Demands (xs ++ ys) need closes := by
  have hcases (left : Int) := @walk_append xs ys left
  have hthrough (left : Int) (hwalk : walk xs left = .through) : walk (xs ++ ys) left = .through := by
    have hle := hx.through hwalk
    rw [hcases, hwalk]
    exact hy.walk_of_le (by omega)
  have hother (left : Int) (hwalk : walk (xs ++ ys) left ≠ .through) :
      walk xs left ≠ .through := fun h => hwalk (hthrough left h)
  refine ⟨fun {left} h => ?_, fun {left} h => ?_, fun {left last} h => ?_, hx.inside⟩
  · rw [hcases] at h
    cases hwalk : walk xs left with
    | through => exact hx.through hwalk
    | refused | stranded =>
        rw [hwalk] at h
        cases h
  · have hne := hother left (by rw [h]; exact nofun)
    rw [hcases] at h
    cases hwalk : walk xs left with
    | through => exact absurd hwalk hne
    | refused => exact hx.refused hwalk
    | stranded last =>
        rw [hwalk] at h
        cases h
  · have hne := hother left (by rw [h]; exact nofun)
    rw [hcases] at h
    cases hwalk : walk xs left with
    | through => exact absurd hwalk hne
    | refused =>
        rw [hwalk] at h
        cases h
    | stranded last => exact hx.stranded hwalk

/-! ## What a tree demands -/

/-- The last attribute has a value. -/
def lastValued (attrs : List XmlAttr) : Bool :=
  match attrs.getLast? with
  | none => false
  | some attr => attr.value != []

/-- What the name and the attributes of a node store. -/
def headLength (indent : Nat) (name : Str) (attrs : List XmlAttr) : Nat :=
  indent + 1 + name.length + (textOf (attrSteps attrs)).length

mutual

/-- Where nodes are closed behind the value of an attribute. -/
def closesOf (indent : Nat) : XmlNode → List Nat
  | .mk name attrs children content =>
      if content = [] ∧ children.isEmpty then
        if lastValued attrs then [headLength indent name attrs] else []
      else (closesOfAll indent children).map (headLength indent name attrs + 1 + ·)

def closesOfAll (indent : Nat) : List XmlNode → List Nat
  | [] => []
  | subNode :: rest =>
      (closesOf (indent + 1) subNode).map (1 + ·) ++
        (closesOfAll indent rest).map (1 + (textOf (nodeSteps (indent + 1) subNode)).length + ·)

end

/-- The room that is asked for beyond the text. -/
def slack : XmlNode → Nat
  | .mk _ attrs children content =>
      if content = [] ∧ children.isEmpty then if attrs = [] then 1 else 0
      else if children.isEmpty then 0 else 1

/-- What the attributes ask for beyond their text. -/
def attrSlack (attrs : List XmlAttr) : Nat := if lastValued attrs then 0 else 3

theorem attrs_demands {attrs : List XmlAttr} (hne : attrs ≠ []) :
    Demands (attrSteps attrs) ((textOf (attrSteps attrs)).length + attrSlack attrs) [] ∧
      4 ≤ (textOf (attrSteps attrs)).length + attrSlack attrs := by
  induction attrs with
  | nil => exact absurd rfl hne
  | cons attr rest ih =>
      have hstep := demands_step _ (roomy_attrs (attr :: rest) _ List.mem_cons_self)
      have hlen := length_attrText attr
      cases rest with
      | nil =>
          have hslack : attr.name.length + attr.value.length + 4 =
              (textOf (attrSteps [attr])).length + attrSlack [attr] := by
            by_cases hvalue : attr.value = []
            · simp [attrSteps, attrSlack, lastValued, hlen, hvalue]
            · simp [attrSteps, attrSlack, lastValued, hlen, hvalue]
          rw [← hslack]
          exact ⟨hstep, by omega⟩
      | cons next rest =>
          obtain ⟨hrest, h4⟩ := ih (List.cons_ne_nil _ _)
          have hlast : attrSlack (attr :: next :: rest) = attrSlack (next :: rest) := by
            unfold attrSlack lastValued
            rw [List.getLast?_cons_cons]
          have htext : textOf (attrSteps (attr :: next :: rest)) =
              attrText attr ++ textOf (attrSteps (next :: rest)) := textOf_cons _ _
          rw [hlast, htext, List.length_append]
          have hboth := hstep.append hrest (by
            rw [textOf_cons, textOf_nil, List.append_nil]
            dsimp only
            split_ifs at hlen <;> omega) nofun
          rw [textOf_cons, textOf_nil, List.append_nil] at hboth
          rw [Nat.add_assoc]
          exact ⟨hboth, by omega⟩

/-- What the name and the attributes ask for beyond their text. -/
def headSlack (attrs : List XmlAttr) : Nat := if attrs = [] then 4 else attrSlack attrs

def headSteps (indent : Nat) (name : Str) (attrs : List XmlAttr) : List Step :=
  nameStep indent name :: attrSteps attrs

theorem length_head (indent : Nat) (name : Str) (attrs : List XmlAttr) :
    (textOf (headSteps indent name attrs)).length = headLength indent name attrs := by
  rw [headSteps, textOf_cons, List.length_append, length_nameStep, headLength]

theorem head_demands (indent : Nat) (name : Str) (attrs : List XmlAttr) :
    Demands (headSteps indent name attrs) (headLength indent name attrs + headSlack attrs) [] := by
  have hname := demands_step (nameStep indent name) (by rw [length_nameStep, nameStep]; omega)
  by_cases hne : attrs = []
  · subst hne
    have hneed : headLength indent name [] + headSlack [] = (nameStep indent name).1 := by
      simp only [headLength, headSlack, attrSteps, nameStep, List.map_nil, textOf_nil, List.length_nil,
        if_true]
      omega
    rw [hneed]
    exact hname
  · obtain ⟨hattrs, h4⟩ := attrs_demands hne
    have hboth := hname.append hattrs (by
      rw [textOf_cons, textOf_nil, List.append_nil, length_nameStep, nameStep]
      omega) nofun
    rw [textOf_cons, textOf_nil, List.append_nil, length_nameStep] at hboth
    rw [headLength, headSlack, if_neg hne, Nat.add_assoc]
    exact hboth

theorem headSlack_le (attrs : List XmlAttr) : headSlack attrs ≤ 4 := by
  unfold headSlack attrSlack
  split_ifs <;> omega

/-- The close of an empty node, behind a value and behind another attribute or the name. -/
theorem emptyClose_demands : Demands [emptyClose] 3 [0] := by
  have hwalk (left : Int) : walk [emptyClose] left =
      if left < 0 then .refused else if left < 3 then .stranded true else .through := rfl
  refine ⟨fun {left} h => ?_, fun {left} h => ?_, fun {left last} h => ?_, by simp⟩
  · rw [hwalk] at h
    split_ifs at h
    push_cast
    omega
  · rw [hwalk] at h
    split_ifs at h
    refine ⟨by push_cast; omega, ?_⟩
    rintro ⟨w, hw, hle, -⟩
    omega
  · rw [hwalk] at h
    split_ifs at h
    exact ⟨0, List.mem_singleton_self 0, by push_cast; omega, by push_cast; omega⟩

mutual

/-- Every place is behind the name and an attribute. -/
theorem le_of_mem_closesOf (indent : Nat) (node : XmlNode) : ∀ w ∈ closesOf indent node, indent + 5 ≤ w := by
  cases node with
  | mk name attrs children content =>
      intro w hw
      rw [closesOf] at hw
      split_ifs at hw with hempty hvalued
      · rw [List.mem_singleton.mp hw, headLength]
        have hne : attrs ≠ [] := by
          rintro rfl
          cases hvalued
        have h4 := (attrs_demands hne).2
        rw [attrSlack, if_pos hvalued] at h4
        omega
      · cases hw
      · obtain ⟨v, hv, rfl⟩ := List.mem_map.mp hw
        have hle := le_of_mem_closesOfAll indent children v hv
        omega

theorem le_of_mem_closesOfAll (indent : Nat) (children : List XmlNode) :
    ∀ w ∈ closesOfAll indent children, indent + 5 ≤ w := by
  cases children with
  | nil => exact nofun
  | cons subNode rest =>
      intro w hw
      rw [closesOfAll] at hw
      rcases List.mem_append.mp hw with hw | hw
      · obtain ⟨v, hv, rfl⟩ := List.mem_map.mp hw
        have hle := le_of_mem_closesOf (indent + 1) subNode v hv
        omega
      · obtain ⟨v, hv, rfl⟩ := List.mem_map.mp hw
        have hle := le_of_mem_closesOfAll indent rest v hv
        omega

end

theorem slack_le (node : XmlNode) : slack node ≤ 1 := by
  cases node with
  | mk name attrs children content =>
      rw [slack]
      split_ifs <;> omega

theorem length_node_ge (indent : Nat) (node : XmlNode) :
    indent + 4 ≤ (textOf (nodeSteps indent node)).length := by
  cases node with
  | mk name attrs children content =>
      rw [nodeSteps, textOf_cons, List.length_append, length_nameStep, textOf_append, List.length_append]
      by_cases hempty : content = [] ∧ children.isEmpty
      · rw [if_pos hempty]
        simp [emptyClose]
        omega
      · rw [if_neg hempty]
        simp only [textOf_cons, textOf_append, textOf_nil, endStep, List.length_append, List.length_cons,
          List.length_nil, length_endTag]
        split_ifs <;> omega

/-- What is behind the sub nodes of a node. -/
theorem tail_demands (indent : Nat) (name content : Str) (lastLine : Bool) :
    Demands (contentSteps content ++ [endStep indent name lastLine])
      (content.length + (endTag indent name lastLine).length + lastLine.toNat) [] := by
  have hlen := length_endTag indent name lastLine
  have hend := demands_step (endStep indent name lastLine) (roomy_end indent name lastLine _
    List.mem_cons_self)
  have hneed : (endStep indent name lastLine).1 = (endTag indent name lastLine).length + lastLine.toNat := by
    rw [hlen]
    cases lastLine with
    | false => rfl
    | true =>
        simp only [endStep, if_true, Bool.toNat_true]
        omega
  rw [hneed] at hend
  unfold contentSteps
  by_cases h : content = []
  · rw [if_pos h, h]
    simpa using hend
  · rw [if_neg h]
    have hboth := (demands_step (content.length, content) (Nat.le_refl _)).append hend
      (by simp) (by simp)
    simpa [Nat.add_assoc] using hboth

theorem textOf_content (content : Str) : textOf (contentSteps content) = content := by
  unfold contentSteps
  by_cases h : content = []
  · rw [if_pos h, h]
    rfl
  · rw [if_neg h]
    exact List.append_nil _

mutual

/-- **What a node demands.** -/
theorem node_demands (indent : Nat) (node : XmlNode) :
    Demands (nodeSteps indent node) ((textOf (nodeSteps indent node)).length + slack node)
      (closesOf indent node) := by
  cases node with
  | mk name attrs children content =>
      have hhead := head_demands indent name attrs
      have hlen := length_head indent name attrs
      have hslack := headSlack_le attrs
      have hsteps : nodeSteps indent (.mk name attrs children content) = headSteps indent name attrs ++
          if content = [] ∧ children.isEmpty then [emptyClose]
          else (1, [62]) :: (subNodeSteps indent children ++
            (contentSteps content ++ [endStep indent name (!children.isEmpty)])) := by
        rw [nodeSteps, headSteps, List.cons_append]
      rw [hsteps, textOf_append, List.length_append, hlen, slack, closesOf]
      by_cases hempty : content = [] ∧ children.isEmpty
      · rw [if_pos hempty, if_pos hempty, if_pos hempty]
        have hthree : (textOf [emptyClose]).length = 3 := rfl
        rw [hthree]
        by_cases hvalued : lastValued attrs = true
        · -- the last value leaves no room for certain
          have hne : attrs ≠ [] := by
            rintro rfl
            cases hvalued
          have hzero : headSlack attrs = 0 := by
            rw [headSlack, if_neg hne, attrSlack, if_pos hvalued]
          rw [if_pos hvalued, if_neg hne]
          rw [hzero] at hhead
          have hboth := hhead.append emptyClose_demands (by omega) (by
            intro w hw
            omega)
          rw [hlen] at hboth
          simpa using hboth
        · have hneed : headLength indent name attrs + 3 + (if attrs = [] then 1 else 0) =
              headLength indent name attrs + headSlack attrs := by
            unfold headSlack attrSlack
            split_ifs <;> omega
          rw [if_neg hvalued, hneed]
          refine hhead.append_within emptyClose_demands ?_
          rw [hlen]
          split_ifs at hneed <;> omega
      · rw [if_neg hempty, if_neg hempty, if_neg hempty]
        have htail := tail_demands indent name content (!children.isEmpty)
        have hend := length_endTag indent name (!children.isEmpty)
        have hpos : 3 ≤ content.length + (endTag indent name (!children.isEmpty)).length +
            (!children.isEmpty).toNat := by
          split_ifs at hend <;> omega
        have hsub := subNodes_demands indent children htail (by omega)
        have hrest := hsub.cons (1, [62]) (Nat.le_refl 1) (Nat.le_add_right 1 _)
          fun w _ => Nat.le_add_right 1 w
        have hmiddle : 1 ≤ content.length ∨ (!children.isEmpty).toNat = 1 := by
          by_cases hcontent : content = []
          · have hchildren : children.isEmpty = false := by
              cases hc : children.isEmpty with
              | false => rfl
              | true => exact absurd ⟨hcontent, hc⟩ hempty
            rw [hchildren]
            exact .inr rfl
          · exact .inl (List.length_pos_iff.mpr hcontent)
        have hboth := hhead.append hrest (by
          rw [hlen]
          dsimp only [List.length_singleton]
          omega) (by
          intro w hw
          obtain ⟨v, hv, rfl⟩ := List.mem_map.mp hw
          have hle := le_of_mem_closesOfAll indent children v hv
          rw [hlen]
          dsimp only [List.length_singleton]
          omega)
        have htext : (textOf ((1, [62]) :: (subNodeSteps indent children ++ (contentSteps content ++
            [endStep indent name (!children.isEmpty)])))).length + (if children.isEmpty then 0 else 1) =
              1 + ((textOf (subNodeSteps indent children)).length + (content.length +
                (endTag indent name (!children.isEmpty)).length + (!children.isEmpty).toNat)) := by
          have hbool : (!children.isEmpty).toNat = if children.isEmpty then 0 else 1 := by
            cases children.isEmpty with
            | false => rfl
            | true => rfl
          simp only [textOf_cons, textOf_append, textOf_content, textOf_nil, List.length_append, endStep,
            List.length_singleton, List.length_nil, hbool]
          omega
        rw [Nat.add_assoc, htext]
        rw [hlen] at hboth
        simpa [List.map_map, Function.comp_def, Nat.add_assoc] using hboth

/-- The sub nodes of a node, and what is behind them. -/
theorem subNodes_demands (indent : Nat) (children : List XmlNode) {tail : List Step} {need : Nat}
    (htail : Demands tail need []) (hneed : 1 ≤ need) :
    Demands (subNodeSteps indent children ++ tail)
      ((textOf (subNodeSteps indent children)).length + need) (closesOfAll indent children) := by
  cases children with
  | nil => simpa [subNodeSteps, closesOfAll] using htail
  | cons subNode rest =>
      have hnode := node_demands (indent + 1) subNode
      have hrest := subNodes_demands indent rest htail hneed
      have hslack := slack_le subNode
      have hlen := length_node_ge (indent + 1) subNode
      have hnext := hnode.append hrest (by omega) (by
        intro w hw
        have hle := le_of_mem_closesOfAll indent rest w hw
        omega)
      have hline := hnext.cons (indent + 3, [10]) (by simp) (by
        dsimp only [List.length_singleton]
        omega) (by
        intro w hw
        dsimp only [List.length_singleton]
        rcases List.mem_append.mp hw with hw | hw
        · have hle := le_of_mem_closesOf (indent + 1) subNode w hw
          omega
        · obtain ⟨v, hv, rfl⟩ := List.mem_map.mp hw
          omega)
      have htext : (textOf (subNodeSteps indent (subNode :: rest))).length = 1 +
          ((textOf (nodeSteps (indent + 1) subNode)).length +
            (textOf (subNodeSteps indent rest)).length) := by
        simp only [subNodeSteps, textOf_cons, textOf_append, List.length_append, List.length_singleton]
      rw [htext, Nat.add_assoc, Nat.add_assoc]
      simpa [subNodeSteps, closesOfAll, List.map_map, Function.comp_def, Nat.add_assoc] using hline

end

end Xml
