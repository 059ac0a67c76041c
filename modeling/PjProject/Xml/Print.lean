import PjProject.Library.Buffer
import PjProject.Library.MachineInt
import PjProject.Library.Outcome
import PjProject.Sdp.Session

set_option autoImplicit false

/-! # Printing XML

The trees and the printing half of `pjlib-util/src/pjlib-util/xml.c`. The buffer is the list of its
bytes, and a function that prints takes the position `p` in it; a store that is not inside is the stop
`overrun`, and a function that returns -1 leaves the buffer as it then is. `SIZE_LEFT()` is an `int`,
and so is what the recursion is given for its length.
-/

namespace Xml

open Buffer Outcome
open Sdp (Str str)
open MachineInt (int32 int32_of_range)

/-! ## Trees -/

/-- `pj_xml_attr`. -/
structure XmlAttr where
  name : Str
  value : Str
  deriving DecidableEq

/-- `pj_xml_node`, with its lists of attributes and of nodes. -/
inductive XmlNode where
  | mk (name : Str) (attrs : List XmlAttr) (children : List XmlNode) (content : Str)

/-! ## Printing -/

/-- How printing stops: the function returns -1, or a store goes outside the buffer. -/
inductive PrintStop where
  | nospace (buf : Str)
  | overrun
  deriving DecidableEq

/-- `SIZE_LEFT()` at the position `p`, in a buffer that begins at `start`. -/
def sizeLeft (start : Nat) (len : Int) (p : Nat) : Int := int32 (len - ((p : Int) - start))

/-- `if (SIZE_LEFT() < need) return -1`. -/
def checkLeft (start : Nat) (len : Int) (buf : Str) (p : Nat) (need : Nat) : Except PrintStop Unit :=
  if sizeLeft start len p < need then .error (.nospace buf) else .ok ()

/-- The spaces of an indentation. -/
def spaces (indent : Nat) : Str := List.replicate indent 32

/-- An attribute, with its value if there is one. -/
def attrText (attr : XmlAttr) : Str :=
  32 :: attr.name ++ if attr.value = [] then [] else [61, 34] ++ attr.value ++ [34]

/-- The loop over the attributes in `xml_print_node`. -/
def printAttrs (start : Nat) (len : Int) : List XmlAttr → Str → Nat → Except PrintStop (Str × Nat)
  | [], buf, p => .ok (buf, p)
  | attr :: rest, buf, p => do
      checkLeft start len buf p (attr.name.length + attr.value.length + 4)
      let buf ← writeAt .overrun buf p (attrText attr)
      printAttrs start len rest buf (p + (attrText attr).length)

/-- The content in `xml_print_node`. -/
def printContent (start : Nat) (len : Int) (content : Str) (buf : Str) (p : Nat) :
    Except PrintStop (Str × Nat) :=
  if content = [] then .ok (buf, p)
  else do
    checkLeft start len buf p content.length
    let buf ← writeAt .overrun buf p content
    return (buf, p + content.length)

/-- The closing tag, on a line of its own behind sub nodes. -/
def endTag (indent : Nat) (name : Str) (lastLine : Bool) : Str :=
  (if lastLine then 10 :: spaces indent else []) ++ [60, 47] ++ name ++ [62]

/-- The end of `xml_print_node`. -/
def printEnd (start : Nat) (len : Int) (indent : Nat) (name : Str) (lastLine : Bool) (buf : Str) (p : Nat) :
    Except PrintStop (Str × Nat) := do
  checkLeft start len buf p (if lastLine then name.length + 5 + indent else name.length + 3)
  let buf ← writeAt .overrun buf p (endTag indent name lastLine)
  return (buf, p + (endTag indent name lastLine).length)

mutual

/-- `xml_print_node`. The number it returns is that of the bytes from `start` on; that of a sub node is
below `2^31`, because three bytes at least stand in front of it. -/
def xmlPrintNode (indent : Nat) (start : Nat) (len : Int) :
    XmlNode → Str → Except PrintStop (Str × Nat)
  | .mk name attrs children content, buf => do
      checkLeft start len buf start (name.length + indent + 5)
      let buf ← writeAt .overrun buf start (spaces indent ++ 60 :: name)
      let (buf, p) ← printAttrs start len attrs buf (start + (spaces indent ++ 60 :: name).length)
      if content = [] ∧ children.isEmpty then
        let buf ← writeAt .overrun buf p [32, 47, 62]
        return (buf, p + 3)
      else
        checkLeft start len buf p 1
        let buf ← writeAt .overrun buf p [62]
        let (buf, p) ← printSubNodes indent start len children buf (p + 1)
        let (buf, p) ← printContent start len content buf p
        printEnd start len indent name (!children.isEmpty) buf p

/-- The loop over the sub nodes in `xml_print_node`. -/
def printSubNodes (indent : Nat) (start : Nat) (len : Int) :
    List XmlNode → Str → Nat → Except PrintStop (Str × Nat)
  | [], buf, p => .ok (buf, p)
  | subNode :: rest, buf, p => do
      checkLeft start len buf p (indent + 3)
      let buf ← writeAt .overrun buf p [10]
      let (buf, p) ← xmlPrintNode (indent + 1) (p + 1) (sizeLeft start len (p + 1)) subNode buf
      printSubNodes indent start len rest buf p

end

/-- The prolog of `pj_xml_print`: `<?xml version="1.0" encoding="UTF-8"?>` and a newline. -/
def prolog : Str :=
  str ['<', '?', 'x', 'm', 'l', ' ', 'v', 'e', 'r', 's', 'i', 'o', 'n', '=', '"', '1', '.', '0', '"', ' ',
    'e', 'n', 'c', 'o', 'd', 'i', 'n', 'g', '=', '"', 'U', 'T', 'F', '-', '8', '"', '?', '>'] ++ [10]

/-- What `xml_print_node` returns to `pj_xml_print`. -/
def printed (start : Nat) (x : Except PrintStop (Str × Nat)) : Except PrintStop (Int × Str) :=
  match x with
  | .ok (buf, p) => .ok (int32 ((p : Int) - start), buf)
  | .error (.nospace buf) => .ok (-1, buf)
  | .error .overrun => .error .overrun

/-- The newline at the end of `pj_xml_print`; the difference `len-printed` has no sign. -/
def printNewline (printed : Int) (buf : Str) : Except PrintStop (Int × Str) :=
  if printed > 0 ∧ (buf.length : Int) ≠ printed then do
    let buf ← writeAt .overrun buf printed.toNat [10]
    return (int32 (printed + 1), buf)
  else .ok (printed, buf)

/-- `pj_xml_print` to a buffer: what it returns, and the buffer. -/
def pjXmlPrint (node : XmlNode) (buf : Str) (includeProlog : Bool) : Except PrintStop (Int × Str) :=
  if buf.length = 0 then .ok (0, buf)
  else if includeProlog then
    if int32 buf.length < prolog.length then .ok (-1, buf)
    else do
      let buf ← writeAt .overrun buf 0 prolog
      let (n, buf) ← printed prolog.length
        (xmlPrintNode 0 prolog.length ((buf.length : Int) - prolog.length) node buf)
      printNewline (int32 (n + prolog.length)) buf
  else do
    let (n, buf) ← printed 0 (xmlPrintNode 0 0 buf.length node buf)
    printNewline n buf

end Xml

/-! ## Printing XML, step by step

`xml_print_node` is a list of steps (`nodeSteps`): each asks for some room and stores some bytes then.
`xmlPrintNode_eq` says that it runs these steps. Where they lead is a question of the numbers only
(`walk`): through, to a step that is refused, or to one that is not refused and has no room
(`run_through`, `run_refused`, `run_stranded`).
-/

namespace Xml

open Buffer Outcome
open Sdp (Str)
open MachineInt (int32 int32_of_range)

/-! ## Steps -/

/-- The room that is asked for, and what is stored then. -/
abbrev Step := Nat × Str

/-- The steps, from the position `p` on, with `left` for what `SIZE_LEFT()` is. -/
def run : List Step → Int → Str → Nat → Except PrintStop (Str × Nat)
  | [], _, buf, p => .ok (buf, p)
  | (need, s) :: rest, left, buf, p =>
      if left < need then .error (.nospace buf)
      else do
        let buf ← writeAt .overrun buf p s
        run rest (left - s.length) buf (p + s.length)

/-- What the steps store. -/
def textOf (steps : List Step) : Str := steps.flatMap (·.2)

@[simp] theorem textOf_nil : textOf [] = [] := rfl

@[simp] theorem textOf_cons (step : Step) (steps : List Step) :
    textOf (step :: steps) = step.2 ++ textOf steps := List.flatMap_cons

@[simp] theorem textOf_append (xs ys : List Step) : textOf (xs ++ ys) = textOf xs ++ textOf ys :=
  List.flatMap_append

/-- The end of a node without content and sub nodes. -/
def emptyClose : Step := (0, [32, 47, 62])

def nameStep (indent : Nat) (name : Str) : Step := (name.length + indent + 5, spaces indent ++ 60 :: name)

def attrSteps (attrs : List XmlAttr) : List Step :=
  attrs.map fun attr => (attr.name.length + attr.value.length + 4, attrText attr)

def contentSteps (content : Str) : List Step := if content = [] then [] else [(content.length, content)]

def endStep (indent : Nat) (name : Str) (lastLine : Bool) : Step :=
  (if lastLine then name.length + 5 + indent else name.length + 3, endTag indent name lastLine)

mutual

/-- The steps of a node. -/
def nodeSteps (indent : Nat) : XmlNode → List Step
  | .mk name attrs children content =>
      nameStep indent name :: (attrSteps attrs ++
        if content = [] ∧ children.isEmpty then [emptyClose]
        else (1, [62]) :: (subNodeSteps indent children ++
          (contentSteps content ++ [endStep indent name (!children.isEmpty)])))

/-- The steps of the sub nodes of a node. -/
def subNodeSteps (indent : Nat) : List XmlNode → List Step
  | [] => []
  | subNode :: rest => (indent + 3, [10]) :: (nodeSteps (indent + 1) subNode ++ subNodeSteps indent rest)

end

/-! ## `xml_print_node` runs its steps -/

/-- What a step stores is longer than the room it asks for by `d` at most. -/
def Roomy (d : Nat) (steps : List Step) : Prop := ∀ step ∈ steps, step.2.length ≤ step.1 + d

variable {d : Nat}

theorem Roomy.append {xs ys : List Step} (hx : Roomy d xs) (hy : Roomy d ys) : Roomy d (xs ++ ys) :=
  List.forall_mem_append.mpr ⟨hx, hy⟩

theorem Roomy.cons {step : Step} {steps : List Step} (hstep : step.2.length ≤ step.1 + d)
    (h : Roomy d steps) : Roomy d (step :: steps) :=
  List.forall_mem_cons.mpr ⟨hstep, h⟩

theorem Roomy.mono {steps : List Step} (h : Roomy 0 steps) : Roomy d steps :=
  fun step hstep => (h step hstep).trans (Nat.add_le_add_left (Nat.zero_le d) _)

theorem roomy_nil : Roomy d [] := nofun

@[simp] theorem length_spaces (indent : Nat) : (spaces indent).length = indent := List.length_replicate

theorem length_nameStep (indent : Nat) (name : Str) :
    (nameStep indent name).2.length = indent + 1 + name.length := by
  simp [nameStep]
  omega

theorem length_attrText (attr : XmlAttr) : (attrText attr).length =
    attr.name.length + attr.value.length + if attr.value = [] then 1 else 4 := by
  unfold attrText
  by_cases h : attr.value = []
  · simp [h]
  · simp [h]
    omega

theorem length_endTag (indent : Nat) (name : Str) (lastLine : Bool) :
    (endTag indent name lastLine).length = name.length + if lastLine then indent + 4 else 3 := by
  cases lastLine with
  | false => simp [endTag]
  | true =>
      simp [endTag]
      omega

theorem roomy_attrs (attrs : List XmlAttr) : Roomy 0 (attrSteps attrs) := by
  intro step hstep
  obtain ⟨attr, -, rfl⟩ := List.mem_map.mp hstep
  have hlen := length_attrText attr
  dsimp only
  split_ifs at hlen
  · omega
  · omega

theorem roomy_end (indent : Nat) (name : Str) (lastLine : Bool) : Roomy 0 [endStep indent name lastLine] := by
  refine Roomy.cons ?_ roomy_nil
  have hlen := length_endTag indent name lastLine
  cases lastLine with
  | false =>
      simp only [endStep, Bool.false_eq_true, if_false] at hlen ⊢
      omega
  | true =>
      simp only [endStep, if_true] at hlen ⊢
      omega

theorem roomy_content (content : Str) : Roomy 0 (contentSteps content) := by
  unfold contentSteps
  by_cases h : content = []
  · rw [if_pos h]
    exact roomy_nil
  · rw [if_neg h]
    exact Roomy.cons (Nat.le_refl _) roomy_nil

mutual

theorem roomy_node (indent : Nat) (node : XmlNode) : Roomy 3 (nodeSteps indent node) := by
  cases node with
  | mk name attrs children content =>
      refine Roomy.cons ?_ ((roomy_attrs attrs).mono.append ?_)
      · rw [length_nameStep, nameStep]
        omega
      · by_cases hempty : content = [] ∧ children.isEmpty
        · rw [if_pos hempty]
          exact Roomy.cons (Nat.le_refl 3) roomy_nil
        · rw [if_neg hempty]
          refine Roomy.cons (by simp) ?_
          exact (roomy_subNodes indent children).append
            ((roomy_content content).append (roomy_end _ _ _)).mono

theorem roomy_subNodes (indent : Nat) (children : List XmlNode) : Roomy 3 (subNodeSteps indent children) := by
  cases children with
  | nil => exact roomy_nil
  | cons subNode rest =>
      exact Roomy.cons (by simp) ((roomy_node (indent + 1) subNode).append (roomy_subNodes indent rest))

end

variable {start p : Nat} {len : Int} {buf : Str} {xs ys : List Step}

/-- The room behind some bytes, if they did not go far beyond it. -/
theorem sizeLeft_add {n : Nat} (h : -3 ≤ sizeLeft start len p - n) :
    sizeLeft start len (p + n) = sizeLeft start len p - n := by
  unfold sizeLeft int32 at *
  omega

/-- A step of the source. -/
theorem checkLeft_write (step : Step) (hd : d ≤ 3) (hroomy : step.2.length ≤ step.1 + d)
    {f : Str → Except PrintStop (Str × Nat)}
    (hf : -d ≤ sizeLeft start len (p + step.2.length) → ∀ buf,
      f buf = run ys (sizeLeft start len (p + step.2.length)) buf (p + step.2.length)) :
    (do
      checkLeft start len buf p step.1
      let buf ← writeAt .overrun buf p step.2
      f buf) = run (step :: ys) (sizeLeft start len p) buf p := by
  obtain ⟨need, s⟩ := step
  dsimp only at hroomy hf ⊢
  rw [run, checkLeft]
  by_cases hneed : sizeLeft start len p < need
  · rw [if_pos hneed, if_pos hneed]
    rfl
  · rw [if_neg hneed, if_neg hneed, ok_bind]
    have hleft : -3 ≤ sizeLeft start len p - s.length := by omega
    have hnext := sizeLeft_add hleft
    congr 1
    funext buf'
    rw [hf (by omega) buf', hnext]

/-- Where the steps end, and what they leave. -/
theorem run_ok {left : Int} {r : Str × Nat} (hroomy : Roomy d xs) (h : run xs left buf p = .ok r) :
    r.2 = p + (textOf xs).length ∧ (-d ≤ left → -d ≤ left - (textOf xs).length) := by
  induction xs generalizing left buf p with
  | nil =>
      cases h
      simp
  | cons step rest ih =>
      obtain ⟨need, s⟩ := step
      obtain ⟨hstep, hrest⟩ := List.forall_mem_cons.mp hroomy
      rw [run] at h
      by_cases hneed : left < need
      · rw [if_pos hneed] at h
        cases h
      · rw [if_neg hneed] at h
        obtain ⟨buf', -, h⟩ := bind_eq_ok h
        obtain ⟨hp, hleft⟩ := ih hrest h
        have hleft' := hleft (by dsimp only at hstep; omega)
        rw [textOf_cons, List.length_append]
        dsimp only
        push_cast
        exact ⟨by omega, fun _ => by omega⟩

/-- One part of the source behind the other. -/
theorem run_bind {f : Except PrintStop (Str × Nat)} {g : Str × Nat → Except PrintStop (Str × Nat)}
    (hd : d ≤ 3) (hroomy : Roomy d xs) (hleft : -d ≤ sizeLeft start len p)
    (hf : f = run xs (sizeLeft start len p) buf p)
    (hg : -d ≤ sizeLeft start len (p + (textOf xs).length) → ∀ buf, g (buf, p + (textOf xs).length) =
      run ys (sizeLeft start len (p + (textOf xs).length)) buf (p + (textOf xs).length)) :
    (f >>= g) = run (xs ++ ys) (sizeLeft start len p) buf p := by
  have happend (left : Int) (buf : Str) (p : Nat) : run (xs ++ ys) left buf p =
      run xs left buf p >>= fun r => run ys (left - ((r.2 : Int) - p)) r.1 r.2 := by
    clear hf hg hleft hroomy
    induction xs generalizing left buf p with
    | nil => simp [run, ok_bind]
    | cons step rest ih =>
        obtain ⟨need, s⟩ := step
        rw [List.cons_append, run, run]
        by_cases hneed : left < need
        · rw [if_pos hneed, if_pos hneed]
          rfl
        · rw [if_neg hneed, if_neg hneed]
          cases hwrite : (writeAt .overrun buf p s : Except PrintStop Str) with
          | error e => rfl
          | ok buf' =>
              rw [ok_bind, ok_bind, ih]
              congr 1
              funext r
              push_cast
              congr 1
              omega
  rw [happend, hf]
  cases hrun : run xs (sizeLeft start len p) buf p with
  | error e => rfl
  | ok r =>
      obtain ⟨hp, hrest⟩ := run_ok hroomy hrun
      have hafter := hrest hleft
      have hnext : sizeLeft start len (p + (textOf xs).length) =
          sizeLeft start len p - (textOf xs).length := sizeLeft_add (by omega)
      obtain ⟨buf', p'⟩ := r
      dsimp only at hp
      subst hp
      rw [ok_bind, ok_bind, hg (by omega) buf', hnext]
      dsimp only
      push_cast
      congr 1
      omega

theorem printAttrs_eq (attrs : List XmlAttr) (buf : Str) (p : Nat) :
    printAttrs start len attrs buf p = run (attrSteps attrs) (sizeLeft start len p) buf p := by
  induction attrs generalizing buf p with
  | nil => rfl
  | cons attr rest ih =>
      exact checkLeft_write _ (Nat.zero_le 3) (roomy_attrs (attr :: rest) _ List.mem_cons_self)
        fun _ buf => ih buf _

theorem printContent_eq (content : Str) (buf : Str) (p : Nat) :
    printContent start len content buf p = run (contentSteps content) (sizeLeft start len p) buf p := by
  unfold printContent contentSteps
  by_cases h : content = []
  · rw [if_pos h, if_pos h]
    rfl
  · rw [if_neg h, if_neg h]
    exact checkLeft_write (content.length, content) (Nat.zero_le 3) (Nat.le_refl _) fun _ _ => rfl

theorem printEnd_eq (indent : Nat) (name : Str) (lastLine : Bool) (buf : Str) (p : Nat) :
    printEnd start len indent name lastLine buf p =
      run [endStep indent name lastLine] (sizeLeft start len p) buf p :=
  checkLeft_write (endStep indent name lastLine) (Nat.zero_le 3)
    (roomy_end indent name lastLine _ List.mem_cons_self) fun _ _ => rfl

mutual

/-- **`xml_print_node` runs its steps.** -/
theorem xmlPrintNode_eq (node : XmlNode) (indent start : Nat) (len : Int) (buf : Str) :
    xmlPrintNode indent start len node buf =
      run (nodeSteps indent node) (sizeLeft start len start) buf start := by
  cases node with
  | mk name attrs children content =>
      refine checkLeft_write (nameStep indent name) (Nat.zero_le 3) ?_ fun hleft buf => ?_
      · rw [length_nameStep, nameStep]
        omega
      refine run_bind (Nat.zero_le 3) (roomy_attrs attrs) hleft (printAttrs_eq attrs buf _)
        fun hleft buf => ?_
      dsimp only
      by_cases hempty : content = [] ∧ children.isEmpty
      · rw [if_pos hempty, if_pos hempty, emptyClose, run, if_neg (by simpa using hleft)]
        rfl
      · rw [if_neg hempty, if_neg hempty]
        refine checkLeft_write (1, [62]) (Nat.le_refl 3) (by simp) fun hleft buf => ?_
        refine run_bind (Nat.le_refl 3) (roomy_subNodes indent children) hleft
          (printSubNodes_eq children indent start len buf _) fun hleft buf => ?_
        refine run_bind (Nat.le_refl 3) (roomy_content content).mono hleft (printContent_eq content buf _)
          fun hleft buf => ?_
        exact printEnd_eq indent name _ buf _

theorem printSubNodes_eq (children : List XmlNode) (indent start : Nat) (len : Int) (buf : Str) (p : Nat) :
    printSubNodes indent start len children buf p =
      run (subNodeSteps indent children) (sizeLeft start len p) buf p := by
  cases children with
  | nil => rfl
  | cons subNode rest =>
      refine checkLeft_write (indent + 3, [10]) (Nat.le_refl 3) (by simp) fun hleft buf => ?_
      have hlen : sizeLeft (p + 1) (sizeLeft start len (p + 1)) (p + 1) = sizeLeft start len (p + 1) := by
        unfold sizeLeft int32
        omega
      refine run_bind (Nat.le_refl 3) (roomy_node (indent + 1) subNode) hleft ?_ fun hleft buf => ?_
      · have hnode := xmlPrintNode_eq subNode (indent + 1) (p + 1) (sizeLeft start len (p + 1)) buf
        rw [hlen] at hnode
        exact hnode
      · exact printSubNodes_eq rest indent start len buf _

end

end Xml
