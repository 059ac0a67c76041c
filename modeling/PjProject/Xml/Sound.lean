import PjProject.Xml.Room

set_option autoImplicit false

/-! # What `pj_xml_print` promises

It stores inside the buffer only, and returns -1 or the length of a complete document
(`PrintSound`). `printSound_iff` gives the lengths and trees for which that is so: a tree that is
refused behind the prolog gives 39, because the -1 is added to the length of the prolog, and a node
that is closed where less than three bytes are left goes beyond the buffer.
-/

namespace Xml

open Buffer Outcome
open Sdp (Str)
open MachineInt (int32 int32_of_range int32_of_upper)

/-! ## Documents -/

mutual

/-- The text of a node. -/
def nodeText (indent : Nat) : XmlNode → Str
  | .mk name attrs children content =>
      spaces indent ++ 60 :: name ++ attrs.flatMap attrText ++
        if content = [] ∧ children.isEmpty then [32, 47, 62]
        else 62 :: subNodesText indent children ++ content ++ endTag indent name (!children.isEmpty)

/-- The text of the sub nodes of a node, each on a line of its own. -/
def subNodesText (indent : Nat) : List XmlNode → Str
  | [] => []
  | subNode :: rest => 10 :: nodeText (indent + 1) subNode ++ subNodesText indent rest

end

/-- The document of a tree. -/
def document (node : XmlNode) (includeProlog : Bool) : Str :=
  (if includeProlog then prolog else []) ++ nodeText 0 node

theorem textOf_attrSteps (attrs : List XmlAttr) : textOf (attrSteps attrs) = attrs.flatMap attrText := by
  induction attrs with
  | nil => rfl
  | cons attr rest ih =>
      calc textOf (attrSteps (attr :: rest))
          = attrText attr ++ textOf (attrSteps rest) := textOf_cons _ _
        _ = attrText attr ++ rest.flatMap attrText := by rw [ih]
        _ = (attr :: rest).flatMap attrText := List.flatMap_cons.symm

mutual

theorem textOf_nodeSteps (indent : Nat) (node : XmlNode) :
    textOf (nodeSteps indent node) = nodeText indent node := by
  cases node with
  | mk name attrs children content =>
      rw [nodeSteps, nodeText, textOf_cons, textOf_append, textOf_attrSteps]
      by_cases hempty : content = [] ∧ children.isEmpty
      · rw [if_pos hempty, if_pos hempty]
        simp [nameStep, emptyClose]
      · rw [if_neg hempty, if_neg hempty]
        simp [nameStep, endStep, textOf_content, textOf_subNodeSteps indent children]

theorem textOf_subNodeSteps (indent : Nat) (children : List XmlNode) :
    textOf (subNodeSteps indent children) = subNodesText indent children := by
  cases children with
  | nil => rfl
  | cons subNode rest =>
      rw [subNodeSteps, subNodesText, textOf_cons, textOf_append, textOf_nodeSteps (indent + 1) subNode,
        textOf_subNodeSteps indent rest]
      rfl

end

theorem length_nodeText (indent : Nat) (node : XmlNode) : 4 ≤ (nodeText indent node).length := by
  have hlen := length_node_ge indent node
  rw [textOf_nodeSteps] at hlen
  omega

/-! ## The root -/

/-- A node without content and sub nodes. -/
def isEmptyNode : XmlNode → Bool
  | .mk _ _ children content => content.isEmpty && children.isEmpty

theorem walk_ne_stranded {xs : List Step} (h : Roomy 0 xs) (left : Int) (last : Bool) :
    walk xs left ≠ .stranded last := by
  induction xs generalizing left with
  | nil =>
      intro h
      cases h
  | cons step rest ih =>
      obtain ⟨need, s⟩ := step
      obtain ⟨hstep, hrest⟩ := List.forall_mem_cons.mp h
      dsimp only at hstep
      rw [walk]
      by_cases hneed : left < need
      · rw [if_pos hneed]
        intro h
        cases h
      · rw [if_neg hneed, if_neg (by omega)]
        exact ih hrest _

/-- Where the root is stranded at its last step, it is empty. -/
theorem stranded_last {node : XmlNode} {indent : Nat} {left : Int} {last : Bool}
    (h : walk (nodeSteps indent node) left = .stranded last) : last = isEmptyNode node := by
  cases node with
  | mk name attrs children content =>
      rw [nodeSteps, ← List.cons_append, walk_append] at h
      have hhead : Roomy 0 (nameStep indent name :: attrSteps attrs) :=
        Roomy.cons (by rw [length_nameStep, nameStep]; omega) (roomy_attrs attrs)
      cases hwalk : walk (nameStep indent name :: attrSteps attrs) left with
      | refused =>
          rw [hwalk] at h
          cases h
      | stranded last => exact absurd hwalk (walk_ne_stranded hhead left last)
      | through =>
          rw [hwalk] at h
          dsimp only at h
          rw [isEmptyNode]
          by_cases hempty : content = [] ∧ children.isEmpty
          · rw [if_pos hempty, emptyClose, walk] at h
            split_ifs at h
            · rw [hempty.1, hempty.2]
              simpa using h.symm
            · cases h
          · rw [if_neg hempty] at h
            have hfalse : (content.isEmpty && children.isEmpty) = false := by
              rw [← Bool.not_eq_true, Bool.and_eq_true, List.isEmpty_iff]
              exact hempty
            rw [hfalse]
            -- the last step is the closing tag, which is not stranded
            have hend : ∀ l left last, walk (l ++ [endStep indent name (!children.isEmpty)]) left =
                .stranded last → last = false := by
              intro l left last hl
              rw [walk_append] at hl
              cases hwalk : walk l left with
              | through =>
                  rw [hwalk] at hl
                  exact absurd hl (walk_ne_stranded (roomy_end _ _ _) _ _)
              | refused =>
                  rw [hwalk] at hl
                  cases hl
              | stranded last' =>
                  rw [hwalk] at hl
                  simpa using hl.symm
            rw [← List.append_assoc, ← List.cons_append] at h
            exact hend _ _ _ h

/-! ## The results -/

/-- The length of the prolog, if there is one. -/
def prologLength (includeProlog : Bool) : Nat := if includeProlog then prolog.length else 0

/-- `SIZE_LEFT()` behind the prolog. -/
def room (len : Nat) (includeProlog : Bool) : Int := int32 len - prologLength includeProlog

/-- The room that `xml_print_node` asks for is there. -/
def Fits (node : XmlNode) (left : Int) : Prop := (nodeText 0 node).length + slack node ≤ left

/-- An empty root is closed beyond `SIZE_LEFT()`, in a buffer that is longer than an `int` says. -/
def ClosesBeyond (node : XmlNode) (len : Nat) (left : Int) : Prop :=
  2 ^ 31 ≤ len ∧ InWindow left (closesOf 0 node) ∧ isEmptyNode node = true

variable {node : XmlNode} {buf : Str} {start : Nat}

/-- What `xml_print_node` does with the root. -/
theorem printed_cases (node : XmlNode) (hstart : start ≤ buf.length) {left : Int}
    (hleft : left = int32 ((buf.length : Int) - start)) :
    ((Fits node left ∨ ClosesBeyond node (buf.length - start) left) ∧
        (nodeText 0 node).length ≤ left + 3 ∧ start + (nodeText 0 node).length ≤ buf.length ∧
        (start + (nodeText 0 node).length = buf.length → (nodeText 0 node).length ≤ left) ∧
        printed start (xmlPrintNode 0 start ((buf.length : Int) - start) node buf) =
          .ok (int32 (nodeText 0 node).length, written buf start (nodeText 0 node))) ∨
    (¬ Fits node left ∧ ¬ ClosesBeyond node (buf.length - start) left ∧
      (InWindow left (closesOf 0 node) → 2 ^ 31 ≤ buf.length - start) ∧
        ∃ buf', printed start (xmlPrintNode 0 start ((buf.length : Int) - start) node buf) =
          .ok (-1, buf') ∧ buf'.length = buf.length) ∨
    (¬ Fits node left ∧ ¬ ClosesBeyond node (buf.length - start) left ∧
      InWindow left (closesOf 0 node) ∧ buf.length - start < 2 ^ 31 ∧
        printed start (xmlPrintNode 0 start ((buf.length : Int) - start) node buf) = .error .overrun) := by
  have hdemands := node_demands 0 node
  have hsize : sizeLeft start ((buf.length : Int) - start) start = left := by
    rw [sizeLeft, hleft, sub_self, sub_zero]
  have hle : 0 ≤ left → (start : Int) + left ≤ buf.length ∧
      (2 ^ 31 ≤ buf.length - start → (start : Int) + left + 4 ≤ buf.length) ∧
      (buf.length - start < 2 ^ 31 → (start : Int) + left = buf.length) := by
    rw [hleft]
    unfold int32
    omega
  rw [xmlPrintNode_eq, hsize]
  rw [textOf_nodeSteps] at hdemands
  have hpos := length_nodeText 0 node
  cases hwalk : walk (nodeSteps 0 node) left with
  | through =>
      have hfits := hdemands.through hwalk
      have hin := (hle (by omega)).1
      have hrun := @run_through _ left buf start (by rw [textOf_nodeSteps]; omega) hwalk
      rw [textOf_nodeSteps] at hrun
      refine .inl ⟨.inl hfits, by omega, by omega, fun _ => by omega, ?_⟩
      rw [hrun, printed]
      simp
  | refused =>
      obtain ⟨hlt, hnone⟩ := hdemands.refused hwalk
      have hfits : ¬ Fits node left := by
        unfold Fits
        omega
      have hin : (start : Int) + left ≤ buf.length := by
        by_cases h0 : 0 ≤ left
        · exact (hle h0).1
        · omega
      obtain ⟨buf', hrun, hlen⟩ := @run_refused _ left buf start hin hwalk
      refine .inr (.inl ⟨hfits, fun h => hnone h.2.1, fun h => absurd h hnone, buf', ?_, hlen⟩)
      rw [hrun]
      rfl
  | stranded last =>
      have hin := hdemands.stranded hwalk
      have hlt := hin.lt hdemands.inside
      have hfits : ¬ Fits node left := by
        unfold Fits
        omega
      have h0 : 0 ≤ left := by
        obtain ⟨w, -, hle, -⟩ := hin
        omega
      obtain ⟨-, hlong, hshort⟩ := hle h0
      by_cases hsmall : buf.length - start < 2 ^ 31
      · refine .inr (.inr ⟨hfits, fun h => absurd h.1 (by omega), hin, hsmall, ?_⟩)
        rw [run_overrun (hshort hsmall) hwalk]
        rfl
      · have hbig : 2 ^ 31 ≤ buf.length - start := by omega
        have hlast := stranded_last hwalk
        have hrun := @run_stranded _ left buf start last (roomy_node 0 node)
          (by have := hlong hbig; omega) hwalk
        rw [textOf_nodeSteps] at hrun
        cases last with
        | true =>
            rw [if_pos rfl] at hrun
            have hroom := hlong hbig
            refine .inl ⟨.inr ⟨hbig, hin, hlast.symm⟩, hrun.2, by omega, fun _ => by omega, ?_⟩
            rw [hrun.1, printed]
            simp
        | false =>
            rw [if_neg Bool.false_ne_true] at hrun
            obtain ⟨buf', hrun, hlen⟩ := hrun
            refine .inr (.inl ⟨hfits, fun h => ?_, fun _ => hbig, buf', ?_, hlen⟩)
            · have hempty := h.2.2
              rw [← hlast] at hempty
              cases hempty
            · rw [hrun]
              rfl

theorem int32_add (x y : Int) : int32 (int32 x + y) = int32 (x + y) := by
  unfold int32
  omega

theorem int32_lt (x : Int) : int32 x < 2 ^ 31 := by
  unfold int32
  omega

/-- What is returned for a buffer: -1, or the length of the document, with or without a newline behind
it, which is what the buffer begins with. -/
def SoundResult (doc : Str) (len : Nat) (r : Int × Str) : Prop :=
  r.2.length = len ∧
    (r.1 = -1 ∨ ∃ text ∈ [doc, doc ++ [10]], r.1 = text.length ∧ r.2.take text.length = text)

/-- `pj_xml_print` stores inside the buffer, and returns -1 or the length of a complete document. -/
def PrintSound (node : XmlNode) (buf : Str) (includeProlog : Bool) : Prop :=
  Yields (SoundResult (document node includeProlog) buf.length) (pjXmlPrint node buf includeProlog)

theorem soundResult_iff {doc buf' : Str} {n : Int} {len : Nat} (hlen : buf'.length = len) (hn : n ≠ -1) :
    SoundResult doc len (n, buf') ↔
      (n = doc.length ∧ buf'.take doc.length = doc) ∨
        (n = (doc.length + 1 : Nat) ∧ buf'.take (doc.length + 1) = doc ++ [10]) := by
  simp [SoundResult, hlen, hn]

theorem take_written_all {text : Str} : (written buf 0 text).take text.length = text := by
  rw [take_written (Nat.zero_le _) (Nat.zero_add _).symm, List.take_zero, List.nil_append]

/-- A document in front of the newline: it fills the buffer, or the newline is behind it, or the length
is no longer an `int`. -/
theorem printNewline_cases {doc : Str} (hpos : 0 < doc.length) (hin : doc.length ≤ buf.length)
    (hbound : doc.length ≤ 2 ^ 31 + 2) (hfull : doc.length = buf.length → doc.length < 2 ^ 31) :
    (doc.length = buf.length ∧
      printNewline (int32 doc.length) (written buf 0 doc) = .ok (doc.length, written buf 0 doc)) ∨
    (doc.length + 1 < 2 ^ 31 ∧ doc.length + 1 ≤ buf.length ∧
      printNewline (int32 doc.length) (written buf 0 doc) =
        .ok ((doc.length + 1 : Nat), written buf 0 (doc ++ [10]))) ∨
    (doc.length ≠ buf.length ∧ ¬ doc.length + 1 < 2 ^ 31 ∧
      ∃ n buf', n < -1 ∧ buf'.length = buf.length ∧
        printNewline (int32 doc.length) (written buf 0 doc) = .ok (n, buf')) := by
  have hlen : (written buf 0 doc).length = buf.length := length_written (by omega)
  unfold printNewline
  by_cases hsmall : doc.length < 2 ^ 31
  · have hint : int32 doc.length = doc.length := int32_of_range (by omega) (by omega)
    rw [hint, hlen]
    by_cases hsame : doc.length = buf.length
    · rw [if_neg (fun h => h.2 (by omega))]
      exact .inl ⟨hsame, rfl⟩
    · have hroom : doc.length + [(10 : UInt8)].length ≤ (written buf 0 doc).length := by
        rw [hlen, List.length_singleton]
        omega
      have hwritten : written (written buf 0 doc) doc.length [10] = written buf 0 (doc ++ [10]) :=
        written_written (Nat.zero_le _) (Nat.zero_add _).symm
      rw [if_pos ⟨by omega, fun h => hsame (by omega)⟩, Int.toNat_natCast, writeAt_ok hroom, ok_bind]
      by_cases hnext : doc.length + 1 < 2 ^ 31
      · rw [int32_of_range (by omega) (by omega), hwritten]
        exact .inr (.inl ⟨hnext, by omega, rfl⟩)
      · have hwrap : int32 ((doc.length : Int) + 1) = (doc.length : Int) + 1 - 4294967296 :=
          int32_of_upper (by omega) (by omega)
        rw [hwrap]
        refine .inr (.inr ⟨hsame, hnext, _, _, ?_, (length_written hroom).trans hlen, rfl⟩)
        omega
  · have hwrap : int32 (doc.length : Int) = (doc.length : Int) - 4294967296 :=
      int32_of_upper (by omega) (by omega)
    rw [hwrap, if_neg (fun h => by omega)]
    refine .inr (.inr ⟨fun h => hsmall (hfull h), by omega, _, _, ?_, hlen, rfl⟩)
    omega

theorem printNewline_document {doc : Str} (hpos : 0 < doc.length) (hin : doc.length ≤ buf.length)
    (hbound : doc.length ≤ 2 ^ 31 + 2) (hfull : doc.length = buf.length → doc.length < 2 ^ 31) :
    Yields (SoundResult doc buf.length) (printNewline (int32 doc.length) (written buf 0 doc)) ↔
      (doc.length + 1 < 2 ^ 31 ∨ doc.length = buf.length) := by
  rcases printNewline_cases hpos hin hbound hfull with ⟨hsame, hrun⟩ | ⟨hsmall, hroom, hrun⟩ |
    ⟨hsame, hlarge, n, buf', hneg, hlen, hrun⟩
  · have hlen : (written buf 0 doc).length = buf.length := length_written (by omega)
    rw [hrun, yields_ok, soundResult_iff hlen (by omega)]
    exact ⟨fun _ => .inr hsame, fun _ => .inl ⟨rfl, take_written_all⟩⟩
  · have hlong : (doc ++ [10]).length = doc.length + 1 := List.length_append
    have hlen : (written buf 0 (doc ++ [10])).length = buf.length := length_written (by omega)
    rw [hrun, yields_ok, soundResult_iff hlen (by omega)]
    refine ⟨fun _ => .inl hsmall, fun _ => .inr ⟨rfl, ?_⟩⟩
    rw [← hlong]
    exact take_written_all
  · rw [hrun, yields_ok, soundResult_iff hlen (by omega)]
    constructor
    · rintro (⟨h, -⟩ | ⟨h, -⟩)
      · omega
      · omega
    · rintro (h | h)
      · exact absurd h hlarge
      · exact absurd h hsame

/-- -1 in front of the newline. -/
theorem printNewline_refused {doc : Str} {len : Nat} (h : buf.length = len) :
    Yields (SoundResult doc len) (printNewline (-1) buf) := by
  rw [printNewline, if_neg (fun h => absurd h.1 (by omega)), yields_ok]
  exact ⟨h, .inl rfl⟩

/-- The length of the prolog, without what is behind it. -/
theorem printNewline_prolog {doc : Str} {len : Nat} (hlen : buf.length = len) (hprolog : 39 ≤ len)
    (hdoc : 40 ≤ doc.length) : ¬ Yields (SoundResult doc len) (printNewline 38 buf) := by
  have hroom : 38 + [(10 : UInt8)].length ≤ buf.length := by
    rw [List.length_singleton]
    omega
  rw [printNewline, if_pos ⟨by omega, by omega⟩, show (38 : Int).toNat = 38 from rfl, writeAt_ok hroom, ok_bind]
  show ¬ Yields _ (.ok (int32 (38 + 1), written buf 38 [10]))
  have hlen' : (written buf 38 [10]).length = len := (length_written hroom).trans hlen
  rw [yields_ok, int32_of_range (by omega) (by omega), soundResult_iff hlen' (by omega)]
  rintro (⟨h, -⟩ | ⟨h, -⟩)
  · omega
  · omega

/-! ## The theorem -/

theorem length_document (node : XmlNode) (includeProlog : Bool) :
    (document node includeProlog).length = prologLength includeProlog + (nodeText 0 node).length := by
  cases includeProlog with
  | false => simp [document, prologLength]
  | true => simp [document, prologLength]

/-- The document is printed: it is inside the buffer, and what is returned is its length as an `int`, or
one more. -/
structure Prints (node : XmlNode) (buf : Str) (includeProlog : Bool) : Prop where
  inside : (document node includeProlog).length ≤ buf.length
  bound : (document node includeProlog).length ≤ 2 ^ 31 + 2
  full : (document node includeProlog).length = buf.length → (document node includeProlog).length < 2 ^ 31
  result : pjXmlPrint node buf includeProlog = printNewline (int32 (document node includeProlog).length)
    (written buf 0 (document node includeProlog))

/-- What `pj_xml_print` does where there is room for the prolog. -/
theorem pjXmlPrint_cases (node : XmlNode) (buf : Str) (includeProlog : Bool) (hzero : buf.length ≠ 0)
    (hroom : includeProlog = true → 0 ≤ room buf.length includeProlog) :
    ((Fits node (room buf.length includeProlog) ∨
        ClosesBeyond node buf.length (room buf.length includeProlog)) ∧ Prints node buf includeProlog) ∨
    (¬ Fits node (room buf.length includeProlog) ∧
      ¬ ClosesBeyond node buf.length (room buf.length includeProlog) ∧
      (InWindow (room buf.length includeProlog) (closesOf 0 node) → 2 ^ 31 ≤ buf.length) ∧
      ∃ buf', buf'.length = buf.length ∧
        pjXmlPrint node buf includeProlog = printNewline (if includeProlog then 38 else -1) buf') ∨
    (¬ Fits node (room buf.length includeProlog) ∧
      ¬ ClosesBeyond node buf.length (room buf.length includeProlog) ∧
      InWindow (room buf.length includeProlog) (closesOf 0 node) ∧ buf.length < 2 ^ 31 ∧
      pjXmlPrint node buf includeProlog = .error .overrun) := by
  have hlt := int32_lt buf.length
  have hdoc := length_document node includeProlog
  cases includeProlog with
  | false =>
      have hsame : room buf.length false = int32 buf.length := by
        simp [room, prologLength]
      have htext : document node false = nodeText 0 node := List.nil_append _
      have hleft : int32 (buf.length : Int) = int32 ((buf.length : Int) - (0 : Nat)) := by
        rw [Nat.cast_zero, sub_zero]
      have hcases := printed_cases node (Nat.zero_le buf.length) hleft
      rw [Nat.cast_zero, sub_zero, Nat.sub_zero] at hcases
      rw [hsame]
      unfold pjXmlPrint
      simp only [if_neg hzero, Bool.false_eq_true, if_false]
      rcases hcases with ⟨hprints, hleft3, hin, hfull, hrun⟩ | ⟨hfits, hbeyond, hlong, buf', hrun, hlen⟩ |
        ⟨hfits, hbeyond, hwindow, hshort, hrun⟩
      · refine .inl ⟨hprints, ⟨?_, ?_, fun h => ?_, ?_⟩⟩
        · rw [htext]
          omega
        · rw [htext]
          omega
        · rw [htext] at h ⊢
          have hle := hfull (by omega)
          omega
        · unfold pjXmlPrint
          simp only [if_neg hzero, Bool.false_eq_true, if_false]
          rw [hrun, ok_bind, htext]
      · exact .inr (.inl ⟨hfits, hbeyond, hlong, buf', hlen, by rw [hrun, ok_bind]⟩)
      · exact .inr (.inr ⟨hfits, hbeyond, hwindow, hshort, by rw [hrun]; rfl⟩)
  | true =>
      have hlength : prolog.length = 39 := rfl
      have hsame : room buf.length true = int32 buf.length - 39 := rfl
      have hlarge : 39 ≤ int32 (buf.length : Int) := by
        have hpos := hroom rfl
        rw [hsame] at hpos
        omega
      have hlen39 : 39 ≤ buf.length := by
        unfold int32 at hlarge
        omega
      have hwrite : 0 + prolog.length ≤ buf.length := by
        rw [hlength]
        omega
      have hlen' : (written buf 0 prolog).length = buf.length := length_written hwrite
      have hleft : int32 (buf.length : Int) - 39 =
          int32 (((written buf 0 prolog).length : Int) - (39 : Nat)) := by
        rw [hlen']
        unfold int32 at *
        omega
      have hcases := printed_cases node (show 39 ≤ (written buf 0 prolog).length by omega) hleft
      have hbig : (2 ^ 31 ≤ buf.length - 39) ↔ 2 ^ 31 ≤ buf.length := by
        unfold int32 at hlarge
        omega
      have hbeyond' : ClosesBeyond node (buf.length - 39) (int32 buf.length - 39) ↔
          ClosesBeyond node buf.length (int32 buf.length - 39) := by
        unfold ClosesBeyond
        rw [hbig]
      have hdoclen : (document node true).length = 39 + (nodeText 0 node).length := hdoc
      have hstart : pjXmlPrint node buf true = (do
          let r ← printed 39 (xmlPrintNode 0 39 ((buf.length : Int) - (39 : Nat)) node
            (written buf 0 prolog))
          printNewline (int32 (r.1 + (39 : Nat))) r.2) := by
        unfold pjXmlPrint
        rw [if_neg hzero, if_pos rfl, if_neg (by rw [hlength]; omega), writeAt_ok hwrite, ok_bind, hlength,
          hlen']
      rw [hlen', hbeyond', hbig] at hcases
      rw [hsame]
      rcases hcases with ⟨hprints, hleft3, hin, hfull, hrun⟩ | ⟨hfits, hbeyond, hlong, buf', hrun, hlen⟩ |
        ⟨hfits, hbeyond, hwindow, hshort, hrun⟩
      · have hwritten : written (written buf 0 prolog) 39 (nodeText 0 node) =
            written buf 0 (document node true) := written_written (Nat.zero_le _) rfl
        have hcast : int32 (int32 (nodeText 0 node).length + (39 : Nat)) =
            int32 (document node true).length := by
          rw [int32_add, hdoclen, Nat.cast_add, add_comm]
        refine .inl ⟨hprints, ⟨by omega, by omega, fun h => ?_, ?_⟩⟩
        · have hle := hfull (by omega)
          omega
        · rw [hstart, hrun, ok_bind]
          dsimp only
          rw [hcast, hwritten]
      · have hint : int32 (-1 + (39 : Nat)) = 38 := int32_of_range (by omega) (by omega)
        refine .inr (.inl ⟨hfits, hbeyond, hlong, buf', hlen, ?_⟩)
        rw [hstart, hrun, ok_bind]
        dsimp only
        rw [hint, if_pos rfl]
      · refine .inr (.inr ⟨hfits, hbeyond, hwindow, by omega, ?_⟩)
        rw [hstart, hrun]
        rfl

variable {includeProlog : Bool}

/-- Where the document is printed. -/
theorem Prints.sound_iff (h : Prints node buf includeProlog) : PrintSound node buf includeProlog ↔
    ((document node includeProlog).length + 1 < 2 ^ 31 ∨
      (document node includeProlog).length = buf.length) := by
  have hpos := length_nodeText 0 node
  have hdoc := length_document node includeProlog
  rw [PrintSound, h.result, printNewline_document (by omega) h.inside h.bound h.full]

/-- Behind the prolog, a tree that is refused is not sound. -/
theorem not_printSound_refused (hzero : buf.length ≠ 0) (hroom : 0 ≤ room buf.length true)
    (hfits : ¬ Fits node (room buf.length true))
    (hbeyond : ¬ ClosesBeyond node buf.length (room buf.length true)) : ¬ PrintSound node buf true := by
  have hpos := length_nodeText 0 node
  have hdoc : (document node true).length = 39 + (nodeText 0 node).length := length_document node true
  have hlen39 : 39 ≤ buf.length := by
    have hle : 0 ≤ int32 (buf.length : Int) - 39 := hroom
    unfold int32 at hle
    omega
  unfold PrintSound
  rcases pjXmlPrint_cases node buf true hzero (fun _ => hroom) with ⟨hprints, -⟩ |
    ⟨-, -, -, buf', hlen, hrun⟩ | ⟨-, -, -, -, hrun⟩
  · exact absurd hprints (not_or.mpr ⟨hfits, hbeyond⟩)
  · rw [hrun, if_pos rfl]
    exact printNewline_prolog hlen hlen39 (by omega)
  · rw [hrun]
    exact yields_error

/-- A tree that is stranded is not sound. -/
theorem not_printSound_window (hzero : buf.length ≠ 0)
    (hroom : includeProlog = true → 0 ≤ room buf.length includeProlog)
    (hfits : ¬ Fits node (room buf.length includeProlog)) (hshort : buf.length < 2 ^ 31)
    (hwindow : InWindow (room buf.length includeProlog) (closesOf 0 node)) :
    ¬ PrintSound node buf includeProlog := by
  unfold PrintSound
  rcases pjXmlPrint_cases node buf includeProlog hzero hroom with ⟨hprints, -⟩ |
    ⟨-, -, hlong, -⟩ | ⟨-, -, -, -, hrun⟩
  · rcases hprints with h | h
    · exact absurd h hfits
    · have hbig := h.1
      omega
  · have hbig := hlong hwindow
    omega
  · rw [hrun]
    exact yields_error

/-- **`pj_xml_print` keeps its promise** if and only if the buffer is not empty, and there is no room
for the prolog; or there is no prolog, the tree is refused, and no node is closed where the buffer ends;
or the tree is printed, and an `int` holds the length of the document and its newline. -/
theorem printSound_iff (node : XmlNode) (buf : Str) (includeProlog : Bool) :
    PrintSound node buf includeProlog ↔ 0 < buf.length ∧
      ((includeProlog = true ∧ room buf.length includeProlog < 0) ∨
        (includeProlog = false ∧ ¬ Fits node (room buf.length includeProlog) ∧
          (InWindow (room buf.length includeProlog) (closesOf 0 node) →
            2 ^ 31 ≤ buf.length ∧ isEmptyNode node = false)) ∨
        ((Fits node (room buf.length includeProlog) ∨
            ClosesBeyond node buf.length (room buf.length includeProlog)) ∧
          ((document node includeProlog).length + 1 < 2 ^ 31 ∨
            (document node includeProlog).length = buf.length))) := by
  have hpos := length_nodeText 0 node
  have hdoc := length_document node includeProlog
  by_cases hzero : buf.length = 0
  · refine ⟨fun hsound => ?_, fun h => absurd h.1 (by omega)⟩
    rw [PrintSound, pjXmlPrint, if_pos hzero, yields_ok, soundResult_iff rfl (by omega)] at hsound
    rcases hsound with ⟨h, -⟩ | ⟨h, -⟩
    · omega
    · omega
  rw [and_iff_right (by omega)]
  by_cases hroom : includeProlog = true → 0 ≤ room buf.length includeProlog
  · -- the first alternative is not the one
    have hsmall : ¬ (includeProlog = true ∧ room buf.length includeProlog < 0) := by
      rintro ⟨hp, hneg⟩
      have hle := hroom hp
      omega
    rcases pjXmlPrint_cases node buf includeProlog hzero hroom with ⟨hprints, hresult⟩ |
      ⟨hfits, hbeyond, hlong, buf', hlen, hrun⟩ | ⟨hfits, hbeyond, hwindow, hshort, -⟩
    · rw [hresult.sound_iff]
      constructor
      · exact fun h => .inr (.inr ⟨hprints, h⟩)
      · rintro (h | ⟨-, hfits, hwindow⟩ | ⟨-, h⟩)
        · exact absurd h hsmall
        · rcases hprints with hprints | ⟨hbig, hin, hempty⟩
          · exact absurd hprints hfits
          · have hnot := (hwindow hin).2
            rw [hempty] at hnot
            cases hnot
        · exact h
    · have hnone := not_or.mpr ⟨hfits, hbeyond⟩
      cases includeProlog with
      | false =>
          refine ⟨fun _ => .inr (.inl ⟨rfl, hfits, fun hin => ⟨hlong hin, ?_⟩⟩), fun _ => ?_⟩
          · rw [Bool.eq_false_iff]
            exact fun hempty => hbeyond ⟨hlong hin, hin, hempty⟩
          · rw [PrintSound, hrun, if_neg Bool.false_ne_true]
            exact printNewline_refused hlen
      | true =>
          refine ⟨fun h => absurd h (not_printSound_refused hzero (hroom rfl) hfits hbeyond), ?_⟩
          rintro (h | ⟨h, -⟩ | ⟨h, -⟩)
          · exact absurd h hsmall
          · cases h
          · exact absurd h hnone
    · refine ⟨fun h => absurd h (not_printSound_window hzero hroom hfits hshort hwindow), ?_⟩
      rintro (h | ⟨-, -, h⟩ | ⟨h, -⟩)
      · exact absurd h hsmall
      · have hbig := (h hwindow).1
        omega
      · exact absurd h (not_or.mpr ⟨hfits, hbeyond⟩)
  · rw [Classical.not_imp] at hroom
    obtain ⟨rfl, hneg⟩ := hroom
    have hroomlen : room buf.length true = int32 buf.length - prolog.length := rfl
    refine ⟨fun _ => .inl ⟨rfl, by omega⟩, fun _ => ?_⟩
    rw [PrintSound, pjXmlPrint, if_neg hzero, if_pos rfl, if_pos (by omega), yields_ok]
    exact ⟨rfl, .inl rfl⟩

/-- An empty element. -/
def leaf : XmlNode := .mk [97] [] [] []

/-- An empty element with an attribute. -/
def valued : XmlNode := .mk [97] [⟨[120], [49]⟩] [] []

/-- Where there is room for the prolog and one byte, the empty element gives 39; and in a buffer of eight
bytes the one with an attribute takes eleven. -/
theorem not_printSound_short : ¬ PrintSound leaf (List.replicate 40 0) true ∧
    ¬ PrintSound valued (List.replicate 8 0) false := by
  have h40 : int32 (40 : Nat) = 40 := by
    decide +kernel
  have h8 : int32 (8 : Nat) = 8 := by
    decide +kernel
  constructor
  · have hlen : (List.replicate 40 (0 : UInt8)).length = 40 := List.length_replicate
    have hroom : room 40 true = 1 := by
      rw [room, h40]
      rfl
    refine not_printSound_refused (by rw [hlen]; decide) (by rw [hlen, hroom]; decide) ?_ ?_
    · rw [hlen, hroom]
      simp [Fits, leaf, nodeText, spaces, slack]
    · rintro ⟨h, -⟩
      rw [hlen] at h
      omega
  · have hlen : (List.replicate 8 (0 : UInt8)).length = 8 := List.length_replicate
    have hroom : room 8 false = 8 := by
      rw [room, h8]
      rfl
    have hcloses : closesOf 0 valued = [8] := by
      simp [valued, closesOf, lastValued, headLength, attrSteps, attrText]
    refine not_printSound_window (by rw [hlen]; decide) (by simp) ?_ (by rw [hlen]; decide) ?_
    · rw [hlen, hroom]
      simp [Fits, valued, nodeText, attrText, spaces, slack]
    · rw [hlen, hroom, hcloses]
      exact ⟨8, List.mem_singleton_self 8, by omega, by omega⟩

end Xml
