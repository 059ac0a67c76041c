import PjProject.Dns.Bounds

set_option autoImplicit false

/-! # Queries

`pj_dns_make_query` of `pjlib-util/dns.c`, and what the parser takes from the packet. The encoding of a
name has a byte in front of each label, in place of the dots, and the root behind the last one: it is two bytes
longer than a name without a trailing dot. The size that is asked for is that of the name itself, so that up to
two bytes are written behind a buffer that is taken (`makeQuery_right_iff`).
-/

namespace Dns

open Buffer

/-! ## The encoder -/

/-- Why no query is made. -/
inductive QueryStop where
  | einval
  | ednsqrytoosmall
  /-- A byte is written behind the buffer. -/
  | overrun
  /-- The loop over the labels does not end. -/
  | endless
  deriving DecidableEq

/-- The character `.`. -/
def dot : UInt8 := 46

/-- `write16`. -/
def write16 (packet : List UInt8) (p val : Nat) : Except QueryStop (List UInt8) :=
  writeAt .overrun packet p [UInt8.ofNat (val / 256), UInt8.ofNat val]

/-- `endlabel` goes over a dot. -/
def overDot (endlabel : List UInt8) : List UInt8 :=
  if endlabel.head? = some dot then endlabel.tail else endlabel

/-- The loop over the labels of what is left of the name, and where it has come to. -/
def writeLabels : Nat → List UInt8 → Nat → List UInt8 → Except QueryStop (List UInt8 × Nat)
  | _, packet, p, [] => .ok (packet, p)
  | 0, _, _, _ => .error .endless
  | turns + 1, packet, p, name => do
      let label := name.takeWhile (· ≠ dot)
      let packet ← writeAt .overrun packet p [UInt8.ofNat label.length]
      let packet ← writeAt .overrun packet (p + 1) label
      writeLabels turns packet (p + 1 + label.length) (overDot (name.drop label.length))

/-- `pj_dns_make_query`: the packet, and `*size`. -/
def makeQuery (packet : List UInt8) (size : Nat) (id : UInt16) (qtype : Int) (name : List UInt8) :
    Except QueryStop (List UInt8 × Nat) :=
  if qtype = 0 then .error .einval
  else if size < 12 + name.length + 4 then .error .ednsqrytoosmall
  else do
    let packet ← writeAt .overrun packet 0 (List.replicate 12 0)
    let packet ← write16 packet 0 id.toNat
    -- recursion desired
    let packet ← write16 packet 2 256
    let packet ← write16 packet 4 1
    let (packet, p) ← writeLabels name.length packet 12 name
    let packet ← writeAt .overrun packet p [0]
    let packet ← write16 packet (p + 1) (qtype % 65536).toNat
    let packet ← write16 packet (p + 3) 1
    .ok (packet, (p + 5) % 4294967296)

/-! ## Names -/

/-- A label: at most 63 characters, without a dot, and not empty. -/
abbrev Label := { l : List UInt8 // l ≠ [] ∧ l.length ≤ 63 ∧ dot ∉ l }

/-- Labels with dots between them. -/
def dotted : List Label → List UInt8
  | [] => []
  | [l] => l.val
  | l :: l' :: labels => l.val ++ dot :: dotted (l' :: labels)

/-- A domain name; only a name with labels can have a trailing dot. -/
structure DomainName where
  labels : List Label
  trailing : Bool
  root : labels = [] → trailing = false

/-- The characters of a name. -/
def DomainName.text (name : DomainName) : List UInt8 :=
  dotted name.labels ++ if name.trailing then [dot] else []

/-- Each label behind its length. -/
def encodeLabels (labels : List Label) : List UInt8 :=
  labels.flatMap fun l => UInt8.ofNat l.val.length :: l.val

theorem encodeLabels_cons (l : Label) (labels : List Label) :
    encodeLabels (l :: labels) = UInt8.ofNat l.val.length :: l.val ++ encodeLabels labels := rfl

/-- The encoding and the characters: a byte more without a trailing dot. -/
theorem DomainName.length_encodeLabels (name : DomainName) :
    (encodeLabels name.labels).length =
      name.text.length + if name.trailing ∨ name.labels = [] then 0 else 1 := by
  have hdots : ∀ labels : List Label, labels ≠ [] →
      (encodeLabels labels).length = (dotted labels).length + 1 := by
    intro labels hne
    induction labels with
    | nil => exact absurd rfl hne
    | cons l labels ih =>
        cases labels with
        | nil => simp [encodeLabels, dotted]
        | cons l' labels =>
            have ih := ih (by simp)
            rw [encodeLabels_cons, dotted]
            simp only [List.cons_append, List.length_cons, List.length_append]
            omega
  by_cases hne : name.labels = []
  · simp [DomainName.text, hne, name.root hne, encodeLabels, dotted]
  · rw [hdots _ hne, DomainName.text]
    cases name.trailing <;> simp [hne]

/-! ## What is written -/

variable {packet : List UInt8} {p turns : Nat} {Q : List UInt8 × Nat → Prop}

/-- One turn of the loop: the label behind its length. -/
theorem writeLabels_label {l : Label} {rest : List UInt8} (hrest : rest = [] ∨ rest.head? = some dot) :
    writeLabels (turns + 1) packet p (l.val ++ rest) = (do
      let packet ← writeAt .overrun packet p [UInt8.ofNat l.val.length]
      let packet ← writeAt .overrun packet (p + 1) l.val
      writeLabels turns packet (p + 1 + l.val.length) (overDot rest)) := by
  rcases l with ⟨l, hne, hlen, hdot⟩
  obtain ⟨c, cs, hl⟩ := List.exists_cons_of_ne_nil hne
  have hword : (l ++ rest).takeWhile (· ≠ dot) = l := by
    have hl : ∀ a ∈ l, decide (a ≠ dot) = true :=
      fun a ha => decide_eq_true fun h => hdot (by rwa [h] at ha)
    rw [List.takeWhile_append_of_pos hl]
    rcases hrest with rfl | hrest
    · simp
    · cases rest with
      | nil => simp
      | cons d rest => simp [Option.some.inj hrest]
  have hdrop : (l ++ rest).drop l.length = rest := List.drop_left' rfl
  have hcons : l ++ rest = c :: (cs ++ rest) := by rw [hl, List.cons_append]
  simp only [hcons] at hword hdrop ⊢
  rw [writeLabels, hword, hdrop]
  simp

/-- The encodings of the labels, which do or do not fit. -/
theorem yields_writeLabels : ∀ (labels : List Label) {turns : Nat} {packet : List UInt8} {p : Nat}
    (trailing : Bool), (labels = [] → trailing = false) → labels.length ≤ turns →
    p ≤ packet.length →
    (Yields Q (writeLabels turns packet p (dotted labels ++ if trailing then [dot] else [])) ↔
      p + (encodeLabels labels).length ≤ packet.length ∧
        Q (written packet p (encodeLabels labels), p + (encodeLabels labels).length))
  | [], turns, packet, p, trailing, hroot, _, hp => by
      have hname : dotted [] ++ (if trailing then [dot] else []) = [] := by simp [dotted, hroot rfl]
      rw [hname]
      have hnil : written packet p [] = packet := by simp [written]
      cases turns <;> simp [writeLabels, encodeLabels, hnil, hp]
  | l :: labels, 0, _, _, _, _, hturns, _ => absurd hturns (by simp)
  | l :: labels, turns + 1, packet, p, trailing, hroot, hturns, hp => by
      -- what stands behind the label, and behind its dot
      obtain ⟨rest, htext, hrest, hover⟩ : ∃ rest,
          dotted (l :: labels) ++ (if trailing then [dot] else []) = l.val ++ rest ∧
            (rest = [] ∨ rest.head? = some dot) ∧
            overDot rest = dotted labels ++ if trailing ∧ labels ≠ [] then [dot] else [] := by
        cases labels with
        | nil => exact ⟨if trailing then [dot] else [], rfl, by cases trailing <;> simp,
            by cases trailing <;> simp [overDot, dotted]⟩
        | cons l' labels => exact ⟨dot :: (dotted (l' :: labels) ++ if trailing then [dot] else []),
            by simp [dotted], .inr rfl, by simp [overDot]⟩
      have hword : p + 1 = p + [UInt8.ofNat l.val.length].length := rfl
      have hend : p + 1 + l.val.length = p + (UInt8.ofNat l.val.length :: l.val).length := by
        rw [List.length_cons]
        omega
      rw [htext, writeLabels_label hrest, yields_written_append hp hword, hover,
        encodeLabels_cons, List.cons_append, List.nil_append, hend, List.length_append]
      have hrec : ∀ packet' : List UInt8, p + (UInt8.ofNat l.val.length :: l.val).length ≤
          packet'.length → _ := fun packet' hlen =>
        yields_writeLabels labels (decide (trailing ∧ labels ≠ [])) (by rintro rfl; simp)
          (Nat.le_of_succ_le_succ hturns) hlen
      simp only [decide_eq_true_eq] at hrec
      constructor
      · rintro ⟨h1, h⟩
        rw [hrec _ (by rw [length_written h1]; exact h1), length_written h1,
          written_written hp rfl, Nat.add_assoc] at h
        exact h
      · rintro ⟨h2, h⟩
        have h1 : p + (UInt8.ofNat l.val.length :: l.val).length ≤ packet.length := by omega
        rw [hrec _ (by rw [length_written h1]; exact h1), length_written h1,
          written_written hp rfl, Nat.add_assoc]
        exact ⟨h1, h2, h⟩

/-- The header of a query. -/
def queryHdr (id : UInt16) : List UInt8 :=
  [UInt8.ofNat (id.toNat / 256), UInt8.ofNat id.toNat, 1, 0, 0, 1, 0, 0, 0, 0, 0, 0]

/-- What stands behind the labels: the root, the type and the class. -/
def queryEnd (qtype : UInt16) : List UInt8 :=
  [0, UInt8.ofNat (qtype.toNat / 256), UInt8.ofNat qtype.toNat, 0, 1]

/-- The whole query. -/
def queryBytes (id qtype : UInt16) (labels : List Label) : List UInt8 :=
  queryHdr id ++ encodeLabels labels ++ queryEnd qtype

theorem length_queryBytes (id qtype : UInt16) (labels : List Label) :
    (queryBytes id qtype labels).length = (encodeLabels labels).length + 17 := by
  simp [queryBytes, queryHdr, queryEnd]

variable {size : Nat} {id qtype : UInt16} {name : DomainName}

/-- The header over the zeros. -/
theorem yields_queryHdr {f : List UInt8 → Except QueryStop (List UInt8 × Nat)} :
    (Yields Q (do
      let packet ← writeAt .overrun packet 0 (List.replicate 12 0)
      let packet ← write16 packet 0 id.toNat
      let packet ← write16 packet 2 256
      let packet ← write16 packet 4 1
      f packet)) ↔ 12 ≤ packet.length ∧ Yields Q (f (written packet 0 (queryHdr id))) := by
  rw [yields_written (Nat.zero_le _)]
  refine and_congr_right fun h => ?_
  -- each of them is written over a part of the twelve bytes
  have hone : ∀ (bytes : List UInt8) (k a b : Nat)
      (g : List UInt8 → Except QueryStop (List UInt8 × Nat)), bytes.length = 12 → k ≤ 10 →
      (Yields Q (writeAt .overrun (written packet 0 bytes) k [UInt8.ofNat a, UInt8.ofNat b] >>= g) ↔
        Yields Q (g (written packet 0 (written bytes k [UInt8.ofNat a, UInt8.ofNat b])))) := by
    intro bytes k a b g hlen hk
    have hpos : (written packet 0 bytes).length = packet.length :=
      length_written (by rw [hlen]; exact h)
    have h12 : 12 ≤ packet.length := h
    rw [yields_written (by omega), hpos,
      written_inside (Nat.zero_le _) (by simp [hlen]; omega) (Nat.zero_add k).symm]
    exact and_iff_right (by simp; omega)
  unfold write16
  rw [hone _ _ _ _ _ rfl (by decide), hone _ _ _ _ _ rfl (by decide), hone _ _ _ _ _ rfl (by decide)]
  exact Iff.rfl

/-- The root, the type and the class behind the labels. -/
theorem yields_queryEnd {bytes : List UInt8} {p : Nat} (hp : p = bytes.length)
    (h : p ≤ packet.length) :
    (Yields Q (do
      let packet ← writeAt .overrun (written packet 0 bytes) p [0]
      let packet ← write16 packet (p + 1) qtype.toNat
      let packet ← write16 packet (p + 3) 1
      .ok (packet, (p + 5) % 4294967296))) ↔
      p + 5 ≤ packet.length ∧
        Q (written packet 0 (bytes ++ queryEnd qtype), (p + 5) % 4294967296) := by
  subst hp
  have h0 : 0 + bytes.length ≤ packet.length := by omega
  unfold write16
  rw [yields_written_more h0 (Nat.zero_add _).symm]
  have hlen : ∀ more : List UInt8, 0 + (bytes ++ more).length = bytes.length + more.length := by
    intro more
    rw [List.length_append, Nat.zero_add]
  constructor
  · rintro ⟨h1, hy⟩
    rw [yields_written_more h1 (by rw [hlen]; rfl)] at hy
    rcases hy with ⟨h3, hy⟩
    rw [yields_written_more h3 (by rw [List.append_assoc, hlen]; rfl)] at hy
    rcases hy with ⟨h5, hy⟩
    simp only [List.append_assoc, hlen, List.cons_append, List.nil_append] at h5 hy
    exact ⟨h5, yields_ok.mp hy⟩
  · rintro ⟨h5, hy⟩
    have h1 : 0 + (bytes ++ [0]).length ≤ packet.length := by
      rw [hlen]
      exact Nat.le_trans (by simp) h5
    refine ⟨h1, ?_⟩
    rw [yields_written_more h1 (by rw [hlen]; rfl)]
    have h3 : 0 + (bytes ++ [0] ++ [UInt8.ofNat (qtype.toNat / 256),
        UInt8.ofNat qtype.toNat]).length ≤ packet.length := by
      rw [List.append_assoc, hlen]
      exact Nat.le_trans (by simp) h5
    refine ⟨h3, ?_⟩
    rw [yields_written_more h3 (by rw [List.append_assoc, hlen]; rfl)]
    simp only [List.append_assoc, hlen, List.cons_append, List.nil_append]
    exact ⟨h5, yields_ok.mpr hy⟩

/-- A label has a character at least. -/
theorem two_mul_length_le (labels : List Label) :
    2 * labels.length ≤ (encodeLabels labels).length := by
  induction labels with
  | nil => simp
  | cons l labels ih =>
      have hpos : 0 < l.val.length := List.length_pos_iff.mpr l.property.1
      rw [encodeLabels_cons]
      simp only [List.cons_append, List.length_cons, List.length_append]
      omega

/-- **`pj_dns_make_query`** for a size that is taken. -/
theorem yields_makeQuery (hq : qtype ≠ 0) (hsize : 12 + name.text.length + 4 ≤ size) :
    Yields Q (makeQuery packet size id qtype.toNat name.text) ↔
      (encodeLabels name.labels).length + 17 ≤ packet.length ∧
        Q (written packet 0 (queryBytes id qtype name.labels),
          ((encodeLabels name.labels).length + 17) % 4294967296) := by
  have hturns : name.labels.length ≤ name.text.length := by
    have h2 := two_mul_length_le name.labels
    have hlen := name.length_encodeLabels
    split at hlen
    · omega
    · omega
  have hq' : (qtype.toNat : Int) ≠ 0 := by
    intro h
    exact hq (UInt16.toNat.inj (by simpa using h))
  have htype : ((qtype.toNat : Int) % 65536).toNat = qtype.toNat := by
    have := qtype.toNat_lt
    omega
  rw [makeQuery, if_neg hq', if_neg (by omega), yields_queryHdr, htype]
  calc
    _ ↔ 12 ≤ packet.length ∧ (12 + (encodeLabels name.labels).length ≤ packet.length ∧
          (12 + (encodeLabels name.labels).length + 5 ≤ packet.length ∧
            Q (written packet 0 (queryBytes id qtype name.labels),
              (12 + (encodeLabels name.labels).length + 5) % 4294967296))) := by
        refine and_congr_right fun h12 => ?_
        have hlen : (written packet 0 (queryHdr id)).length = packet.length := length_written h12
        have hname : writeLabels name.text.length (written packet 0 (queryHdr id)) 12 name.text =
            writeLabels name.text.length (written packet 0 (queryHdr id)) 12
              (dotted name.labels ++ if name.trailing then [dot] else []) := rfl
        rw [yields_bind, hname,
          yields_writeLabels _ _ name.root hturns (by rw [hlen]; exact h12), hlen,
          written_written (Nat.zero_le _) (show 12 = 0 + (queryHdr id).length from rfl)]
        refine and_congr_right fun henc => ?_
        exact yields_queryEnd (by rw [List.length_append]; rfl) henc
    _ ↔ _ := by
        have hsum : 12 + (encodeLabels name.labels).length + 5 =
            (encodeLabels name.labels).length + 17 := by omega
        rw [hsum]
        constructor
        · rintro ⟨-, -, h⟩
          exact h
        · rintro ⟨h17, h⟩
          exact ⟨by omega, by omega, h17, h⟩

/-! ## What is parsed -/

/-- The walk along the encoding of a name, whatever stands in front of it and behind it. -/
theorem nameWalk_encodeLabels (levels : Nat) : ∀ (labels : List Label) (pre rest : List UInt8),
    NameWalk (pre ++ (encodeLabels labels ++ 0 :: rest)) (levels + 1) pre.length
      (some ⟨pre.length + (encodeLabels labels).length + 1, dotted labels⟩)
  | [], pre, rest => by
      refine .root ?_ ?_
      · simp [encodeLabels]
      · exact content_append rfl
  | l :: labels, pre, rest => by
      have hpos : 0 < l.val.length := List.length_pos_iff.mpr l.property.1
      have hlen := l.property.2.1
      have ih := nameWalk_encodeLabels levels labels (pre ++ UInt8.ofNat l.val.length :: l.val) rest
      obtain ⟨pkt, hpkt⟩ : ∃ pkt, pkt = pre ++ (encodeLabels (l :: labels) ++ 0 :: rest) := ⟨_, rfl⟩
      have hsplit : pkt =
          (pre ++ UInt8.ofNat l.val.length :: l.val) ++ (encodeLabels labels ++ 0 :: rest) := by
        rw [hpkt, encodeLabels_cons]
        simp
      have hend : (pre ++ UInt8.ofNat l.val.length :: l.val).length =
          pre.length + (l.val.length + 1) := by simp
      -- the byte in front of the label, the label, and the byte behind it
      have hb : content pkt pre.length = l.val.length := by
        rw [hpkt, encodeLabels_cons, List.cons_append, List.cons_append, content_append rfl]
        simp
        omega
      have hword : (pkt.drop (pre.length + 1)).take l.val.length = l.val := by
        rw [hsplit, List.append_assoc, List.cons_append, ← List.drop_drop, List.drop_left' rfl,
          List.drop_succ_cons, List.drop_zero, List.take_left' rfl]
      have hnext : content pkt (pre.length + (l.val.length + 1)) = 0 ↔ labels = [] := by
        rw [hsplit, ← hend]
        cases labels with
        | nil => exact iff_of_true (content_append rfl) rfl
        | cons l' labels =>
            have hpos' : 0 < l'.val.length := List.length_pos_iff.mpr l'.property.1
            have hlen' := l'.property.2.1
            rw [encodeLabels_cons, List.cons_append, List.cons_append, content_append rfl]
            simp
            omega
      have hin : pre.length + (l.val.length + 1) < pkt.length := by
        rw [hsplit, List.length_append, hend]
        simp
      have htext : labelText pkt pre.length l.val.length ++ dotted labels = dotted (l :: labels) := by
        rw [labelText, hword]
        cases labels with
        | nil => simp [hnext, dotted]
        | cons l' labels => simp [hnext, dotted, dot]
      rw [← hsplit, hend, ← hb] at ih
      have hwalk := NameWalk.label (by omega) (by omega) (by rw [hb]; omega) (by rw [hb]; exact hin) ih
      rw [hb, Option.map_some, htext] at hwalk
      have hpEnd : pre.length + (l.val.length + 1) + (encodeLabels labels).length + 1 =
          pre.length + (encodeLabels (l :: labels)).length + 1 := by
        rw [encodeLabels_cons]
        simp
        omega
      rw [← hpkt, ← hpEnd]
      exact hwalk

/-- What the parser takes from the query. -/
def parsedQuery (id qtype : UInt16) (name : DomainName) : ParsedPacket :=
  ⟨⟨id.toNat, 256, 1, 0, 0, 0⟩, [(12, ⟨dotted name.labels, qtype.toNat, 1⟩)], [], [], []⟩

/-- The two bytes of an integer. -/
theorem content16_append {pre rest : List UInt8} {p : Nat} (h : pre.length = p) (v : UInt16) :
    content16 (pre ++ UInt8.ofNat (v.toNat / 256) :: UInt8.ofNat v.toNat :: rest) p = v.toNat := by
  have hv := v.toNat_lt
  have hnext : content (pre ++ UInt8.ofNat (v.toNat / 256) :: UInt8.ofNat v.toNat :: rest) (p + 1) =
      (UInt8.ofNat v.toNat).toNat := by
    rw [List.append_cons]
    exact content_append (by simp [h])
  rw [content16, content_append h, hnext]
  simp
  omega

/-- The question of a query. -/
theorem parseQuery_queryBytes (id qtype : UInt16) (name : DomainName) :
    parseQuery (queryBytes id qtype name.labels) 12 =
      .ok (⟨dotted name.labels, qtype.toNat, 1⟩, (encodeLabels name.labels).length + 5) := by
  obtain ⟨pkt, hpkt⟩ : ∃ pkt, pkt = queryBytes id qtype name.labels := ⟨_, rfl⟩
  have hlen : pkt.length = (encodeLabels name.labels).length + 17 := by
    rw [hpkt, length_queryBytes]
  have hwalk : NameWalk pkt maxLevels 12
      (some ⟨12 + (encodeLabels name.labels).length + 1, dotted name.labels⟩) := by
    have h := nameWalk_encodeLabels 10 name.labels (queryHdr id)
      [UInt8.ofNat (qtype.toNat / 256), UInt8.ofNat qtype.toNat, 0, 1]
    rw [hpkt, queryBytes, List.append_assoc]
    exact h
  rcases (parseName_follows pkt 4 12).returns (NameWalk.single _ _ _) hwalk with ⟨_, hname, rfl⟩
  have hp : 12 + (12 + (encodeLabels name.labels).length + 1 - 12) =
      (encodeLabels name.labels).length + 13 := by omega
  have htype : content16 pkt ((encodeLabels name.labels).length + 13) = qtype.toNat := by
    have hsplit : pkt = (queryHdr id ++ encodeLabels name.labels ++ [0]) ++
        UInt8.ofNat (qtype.toNat / 256) :: UInt8.ofNat qtype.toNat :: [0, 1] := by
      rw [hpkt, queryBytes, queryEnd]
      simp
    rw [hsplit]
    exact content16_append (by simp [queryHdr]) qtype
  have hclass : content16 pkt ((encodeLabels name.labels).length + 13 + 2) = 1 := by
    have hsplit : pkt = (queryHdr id ++ encodeLabels name.labels ++
        [0, UInt8.ofNat (qtype.toNat / 256), UInt8.ofNat qtype.toNat]) ++ [0, 1] := by
      rw [hpkt, queryBytes, queryEnd]
      simp
    rw [hsplit]
    exact content16_append (by simp [queryHdr]) 1
  have hat : ∀ i, i + 2 ≤ (encodeLabels name.labels).length + 17 →
      be16At Stop.overread pkt i = .ok (content16 pkt i) :=
    fun i hi => if_pos (by rw [hlen]; exact hi)
  rw [← hpkt, parseQuery, hname, Outcome.ok_bind]
  simp only [hp]
  rw [hat _ (by omega), Outcome.ok_bind, hat _ (by omega), Outcome.ok_bind, htype, hclass]
  have hend : (encodeLabels name.labels).length + 13 + 4 - 12 =
      (encodeLabels name.labels).length + 5 := by omega
  rw [hend]

/-- **The parser** takes from a query what it has been made of. -/
theorem parsePacket_queryBytes (id qtype : UInt16) (name : DomainName) :
    parsePacket (queryBytes id qtype name.labels) = .ok (parsedQuery id qtype name) := by
  have hlen := length_queryBytes id qtype name.labels
  have hhdr : parseHdr (queryBytes id qtype name.labels) = .ok ⟨id.toNat, 256, 1, 0, 0, 0⟩ := by
    rw [parseHdr_eq (by omega), queryBytes, List.append_assoc]
    have hid : content16 (queryHdr id ++ (encodeLabels name.labels ++ queryEnd qtype)) 0 =
        id.toNat := @content16_append [] _ 0 rfl id
    rw [hid]
    simp [content16, content, queryHdr]
  rw [parsePacket, if_neg (by omega), if_neg (by omega), hhdr, Outcome.ok_bind]
  simp only [parseItems, parseQuery_queryBytes, Outcome.ok_bind]
  rfl

/-! ## Room for a query -/

/-- A query of `*size` bytes that is in its buffer, and from which the parser takes one question: the name without
the trailing dot, the type and the class IN. -/
structure TakenBack (packet : List UInt8) (id qtype : UInt16) (name : DomainName)
    (res : List UInt8 × Nat) : Prop where
  length : res.1.length = packet.length
  size_le : res.2 ≤ packet.length
  parsed : parsePacket (res.1.take res.2) = .ok (parsedQuery id qtype name)

/-- **Queries are made in their buffer and taken back** exactly if there is room for the root, and for the
byte that a name without a trailing dot takes more. -/
theorem makeQuery_right_iff (packet : List UInt8) (id qtype : UInt16) (name : DomainName)
    (hpacket : packet.length < 4294967296) (hq : qtype ≠ 0)
    (hsize : 12 + name.text.length + 4 ≤ packet.length) :
    Yields (TakenBack packet id qtype name)
        (makeQuery packet packet.length id qtype.toNat name.text) ↔
      name.text.length + (if name.trailing ∨ name.labels = [] then 17 else 18) ≤ packet.length := by
  have henc : (encodeLabels name.labels).length + 17 =
      name.text.length + (if name.trailing ∨ name.labels = [] then 17 else 18) := by
    rw [name.length_encodeLabels]
    split
    · omega
    · omega
  rw [yields_makeQuery hq hsize, ← henc]
  refine and_iff_left_of_imp fun hfit => ?_
  have hlen := length_queryBytes id qtype name.labels
  have hmod : ((encodeLabels name.labels).length + 17) % 4294967296 =
      (encodeLabels name.labels).length + 17 := Nat.mod_eq_of_lt (by omega)
  rw [hmod]
  refine ⟨length_written (by omega), hfit, ?_⟩
  rw [take_written (Nat.zero_le _) (by rw [hlen, Nat.zero_add]), List.take_zero, List.nil_append]
  exact parsePacket_queryBytes id qtype name

/-- The name `a.bc`, in the buffer in which it fits. -/
def nameABc : DomainName :=
  ⟨[⟨[97], by decide⟩, ⟨[98, 99], by decide⟩], false, by simp⟩

theorem makeQuery_right_nameABc :
    Yields (TakenBack (List.replicate 22 0) 7 1 nameABc)
      (makeQuery (List.replicate 22 0) (List.replicate 22 (0 : UInt8)).length 7 (1 : UInt16).toNat
        nameABc.text) :=
  (makeQuery_right_iff (List.replicate 22 0) 7 1 nameABc (by decide) (by decide) (by decide)).mpr
    (by decide)

/-- The name `a`, whose query has 19 bytes. -/
def nameA : DomainName := ⟨[⟨[97], by decide⟩], false, by simp⟩

/-- Seventeen bytes are taken for it, and the query is written behind them. -/
theorem makeQuery_overrun :
    12 + nameA.text.length + 4 ≤ (List.replicate 17 (0 : UInt8)).length ∧
      ¬ Yields (TakenBack (List.replicate 17 0) 7 1 nameA)
        (makeQuery (List.replicate 17 0) (List.replicate 17 (0 : UInt8)).length 7
          (1 : UInt16).toNat nameA.text) := by
  refine ⟨by decide, ?_⟩
  rintro ⟨res, h, -⟩
  have hover : makeQuery (List.replicate 17 0) (List.replicate 17 (0 : UInt8)).length 7
      (1 : UInt16).toNat nameA.text = .error .overrun := by decide
  rw [hover] at h
  cases h

end Dns
