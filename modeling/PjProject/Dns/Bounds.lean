import PjProject.Dns.Names

set_option autoImplicit false

/-! # What the parser of DNS packets reads

The walk along a packet: its questions and records, one after the other, until the packet ends or is
refused. `PacketInside` says that the bytes for which the walk asks are in the packet: those of a
name, the four bytes behind the name of a question, and the address of an A or AAAA record, or the
six bytes and the name of an SRV record, which are read whatever the length of the data is.
`pj_dns_parse_packet` reads no other byte exactly then (`parsePacket_inside_iff`).
-/

namespace Dns

open Buffer

variable {pkt : List UInt8} {levels p count : Nat}

/-! ## Questions -/

/-- The walk along a question, to the position behind it: the name and the four bytes of its type and
class. -/
def QueryWalk (pkt : List UInt8) (p : Nat) : Option Nat → Prop :=
  Then (NameWalk pkt maxLevels p) fun n r => n.pEnd + 4 ≤ pkt.length ∧ r = some (n.pEnd + 4)

theorem QueryWalk.single (pkt : List UInt8) (p : Nat) : Single (QueryWalk pkt p) :=
  Then.single (NameWalk.single pkt maxLevels p) fun _ _ _ h h' => h.2.trans h'.2.symm

/-- The question at `p`, which ends at `q`. -/
def QueryAt (pkt : List UInt8) (p : Nat) (query : ParsedQuery) (q : Nat) : Prop :=
  ∃ n, NameWalk pkt maxLevels p (some n) ∧ q = n.pEnd + 4 ∧
    query = ⟨n.text, content16 pkt n.pEnd, content16 pkt (n.pEnd + 2)⟩

theorem parseQuery_follows (pkt : List UInt8) (p : Nat) :
    Follows (fun x e => p + x.2 = e ∧ QueryAt pkt p x.1 e) (QueryWalk pkt p) (parseQuery pkt p) := by
  refine Follows.then (parseName_follows pkt 4 p) (NameWalk.single pkt maxLevels p) ?_
  rintro _ n rfl hn
  have hend := hn.pEnd n rfl
  have hp : p + (n.pEnd - p) = n.pEnd := by omega
  simp only [hp]
  refine Follows.access (fun r hr => by omega) fun _ => ?_
  refine Follows.access (fun r hr => hr.1) fun h => ?_
  have hlen : p + (n.pEnd + 4 - p) = n.pEnd + 4 := by omega
  exact Follows.ok ⟨hlen, n, hn, rfl, rfl⟩ ⟨h, rfl⟩

/-! ## Records -/

/-- The types whose data are read as what they are. -/
abbrev IsKnown (type : Nat) : Prop :=
  type = typeA ∨ type = typeAaaa ∨ IsName type ∨ type = typeSrv

/-- The walk along the data of a record, whose fixed fields end at `p`. -/
inductive RdataWalk (pkt : List UInt8) (type rdlength p : Nat) : Option Nat → Prop
  | a (ht : type = typeA) (hin : p + 4 ≤ pkt.length) :
      RdataWalk pkt type rdlength p (some (p + 4))
  | aaaa (ht : type = typeAaaa) (hin : p + 16 ≤ pkt.length) :
      RdataWalk pkt type rdlength p (some (p + 16))
  | cname {r : Option Name} (ht : IsName type) (hn : NameWalk pkt maxLevels p r) :
      RdataWalk pkt type rdlength p (r.map Name.pEnd)
  | srv {r : Option Name} (ht : type = typeSrv) (hin : p + 6 ≤ pkt.length)
      (hn : NameWalk pkt maxLevels (p + 6) r) : RdataWalk pkt type rdlength p (r.map Name.pEnd)
  | data (ht : ¬ IsKnown type) : RdataWalk pkt type rdlength p (some (p + rdlength))

/-- What the data of a known type ask for. -/
theorem RdataWalk.known {type rdlength : Nat} {r : Option Nat}
    (h : RdataWalk pkt type rdlength p r) :
    (type = typeA → p + 4 ≤ pkt.length) ∧ (type = typeAaaa → p + 16 ≤ pkt.length) ∧
      (IsName type → ∃ w, NameWalk pkt maxLevels p w) ∧
      (type = typeSrv → p + 6 ≤ pkt.length ∧ ∃ w, NameWalk pkt maxLevels (p + 6) w) := by
  cases h with
  | a ht hin =>
      subst ht
      exact ⟨fun _ => hin, fun h => absurd h (by decide), fun h => absurd h (by decide),
        fun h => absurd h (by decide)⟩
  | aaaa ht hin =>
      subst ht
      exact ⟨fun h => absurd h (by decide), fun _ => hin, fun h => absurd h (by decide),
        fun h => absurd h (by decide)⟩
  | cname ht hn =>
      refine ⟨?_, ?_, fun _ => ⟨_, hn⟩, ?_⟩ <;> rintro rfl <;> exact absurd ht (by decide)
  | srv ht hin hn =>
      subst ht
      exact ⟨fun h => absurd h (by decide), fun h => absurd h (by decide),
        fun h => absurd h (by decide), fun _ => ⟨hin, _, hn⟩⟩
  | data ht =>
      exact ⟨fun h => absurd (.inl h) ht, fun h => absurd (.inr (.inl h)) ht,
        fun h => absurd (.inr (.inr (.inl h))) ht, fun h => absurd (.inr (.inr (.inr h))) ht⟩

theorem RdataWalk.single (pkt : List UInt8) (type rdlength p : Nat) :
    Single (RdataWalk pkt type rdlength p) := by
  intro r r' h h'
  cases h with
  | a ht =>
      subst ht
      cases h' with
      | a => rfl
      | aaaa ht' => exact absurd ht' (by decide)
      | cname ht' => exact absurd ht' (by decide)
      | srv ht' => exact absurd ht' (by decide)
      | data ht' => exact absurd (.inl rfl) ht'
  | aaaa ht =>
      subst ht
      cases h' with
      | a ht' => exact absurd ht' (by decide)
      | aaaa => rfl
      | cname ht' => exact absurd ht' (by decide)
      | srv ht' => exact absurd ht' (by decide)
      | data ht' => exact absurd (.inr (.inl rfl)) ht'
  | cname ht hn =>
      cases h' with
      | a ht' => rw [ht'] at ht; exact absurd ht (by decide)
      | aaaa ht' => rw [ht'] at ht; exact absurd ht (by decide)
      | cname _ hn' => rw [NameWalk.single _ _ _ _ _ hn hn']
      | srv ht' => rw [ht'] at ht; exact absurd ht (by decide)
      | data ht' => exact absurd (.inr (.inr (.inl ht))) ht'
  | srv ht hin hn =>
      subst ht
      cases h' with
      | a ht' => exact absurd ht' (by decide)
      | aaaa ht' => exact absurd ht' (by decide)
      | cname ht' => exact absurd ht' (by decide)
      | srv _ _ hn' => rw [NameWalk.single _ _ _ _ _ hn hn']
      | data ht' => exact absurd (.inr (.inr (.inr rfl))) ht'
  | data ht =>
      cases h' with
      | a ht' => exact absurd (.inl ht') ht
      | aaaa ht' => exact absurd (.inr (.inl ht')) ht
      | cname ht' => exact absurd (.inr (.inr (.inl ht'))) ht
      | srv ht' => exact absurd (.inr (.inr (.inr ht'))) ht
      | data => rfl

/-- The data end in the packet. -/
theorem RdataWalk.pEnd {type rdlength : Nat} {r : Option Nat} (h : RdataWalk pkt type rdlength p r)
    (hlen : p + rdlength ≤ pkt.length) : ∀ q, r = some q → p ≤ q ∧ q ≤ pkt.length := by
  cases h with
  | a ht hin =>
      rintro q ⟨⟩
      exact ⟨by omega, hin⟩
  | aaaa ht hin =>
      rintro q ⟨⟩
      exact ⟨by omega, hin⟩
  | cname ht hn =>
      intro q hq
      rcases Option.map_eq_some_iff.mp hq with ⟨n, rfl, rfl⟩
      have h := hn.pEnd n rfl
      exact ⟨by omega, h.2⟩
  | srv ht hin hn =>
      intro q hq
      rcases Option.map_eq_some_iff.mp hq with ⟨n, rfl, rfl⟩
      have h := hn.pEnd n rfl
      exact ⟨by omega, h.2⟩
  | data ht =>
      rintro q ⟨⟩
      exact ⟨by omega, hlen⟩

/-- A name at `q`, whose end is the end of the data. -/
theorem parseName_rdata {q type rdlength : Nat} {mk : List UInt8 → Rdata}
    (hwalk : ∀ w, NameWalk pkt maxLevels q w → RdataWalk pkt type rdlength p (w.map Name.pEnd))
    (hsome : ∀ r, RdataWalk pkt type rdlength p r → ∃ w, NameWalk pkt maxLevels q w) :
    Follows (fun x e => x.2 = e) (RdataWalk pkt type rdlength p)
      (parseName pkt 0 q >>= fun x => .ok (mk x.1, q + x.2)) := by
  refine Follows.bind (parseName_follows pkt 0 q) ?_ (hwalk none) hsome
  rintro _ n rfl hn
  have hend := hn.pEnd n rfl
  exact Follows.ok (by show q + (n.pEnd - q) = n.pEnd; omega) (hwalk _ hn)

theorem parseRdata_follows {type rdlength : Nat} (hlen : p + rdlength ≤ pkt.length) :
    Follows (fun x e => x.2 = e) (RdataWalk pkt type rdlength p)
      (parseRdata pkt type rdlength p) := by
  unfold parseRdata
  refine Follows.ite (fun ha => ?_) fun ha => Follows.ite (fun h6 => ?_) fun h6 =>
    Follows.ite (fun hc => ?_) fun hc => Follows.ite (fun hs => ?_) fun hs => ?_
  · refine Follows.access (fun r hr => .inr (hr.known.1 ha)) fun h => ?_
    exact Follows.ok rfl (.a ha (by omega))
  · refine Follows.access (fun r hr => .inr (hr.known.2.1 h6)) fun h => ?_
    exact Follows.ok rfl (.aaaa h6 (by omega))
  · exact parseName_rdata (fun w hw => .cname hc hw) fun r hr => hr.known.2.2.1 hc
  · have hin : ∀ r, RdataWalk pkt type rdlength p r → p + 6 ≤ pkt.length :=
      fun r hr => (hr.known.2.2.2 hs).1
    refine Follows.access (fun r hr => by have := hin r hr; omega) fun _ => ?_
    refine Follows.access (fun r hr => by have := hin r hr; omega) fun _ => ?_
    refine Follows.access (fun r hr => hin r hr) fun h => ?_
    exact parseName_rdata (fun w hw => .srv hs h hw) fun r hr => (hr.known.2.2.2 hs).2
  · have hother : ¬ IsKnown type := by
      rintro (h | h | h | h)
      · exact ha h
      · exact h6 h
      · exact hc h
      · exact hs h
    refine Follows.access (fun _ _ => .inr hlen) fun _ => ?_
    exact Follows.ok rfl (.data hother)

/-- The walk along a record behind its name. -/
inductive BodyWalk (pkt : List UInt8) (p : Nat) : Option Nat → Prop
  | short (hshort : pkt.length < p + 10) : BodyWalk pkt p none
  | dnsclass (hin : p + 10 ≤ pkt.length) (hclass : content16 pkt (p + 2) ≠ 1) : BodyWalk pkt p none
  | rdlength (hin : p + 10 ≤ pkt.length) (hclass : content16 pkt (p + 2) = 1)
      (hlong : pkt.length < p + 10 + content16 pkt (p + 8)) : BodyWalk pkt p none
  | rdata {r : Option Nat} (hclass : content16 pkt (p + 2) = 1)
      (hlen : p + 10 + content16 pkt (p + 8) ≤ pkt.length)
      (hr : RdataWalk pkt (content16 pkt p) (content16 pkt (p + 8)) (p + 10) r) : BodyWalk pkt p r

/-- A record of class IN with a length that fits has data. -/
theorem BodyWalk.data {r : Option Nat} (h : BodyWalk pkt p r)
    (hclass : content16 pkt (p + 2) = 1) (hlen : p + 10 + content16 pkt (p + 8) ≤ pkt.length) :
    RdataWalk pkt (content16 pkt p) (content16 pkt (p + 8)) (p + 10) r := by
  cases h with
  | short hshort => omega
  | dnsclass _ hc => exact absurd hclass hc
  | rdlength _ _ hlong => omega
  | rdata _ _ hr => exact hr

theorem BodyWalk.single (pkt : List UInt8) (p : Nat) : Single (BodyWalk pkt p) := by
  intro r r' h h'
  cases h with
  | short hshort =>
      cases h' with
      | rdata => omega
      | _ => rfl
  | dnsclass hin hc =>
      cases h' with
      | rdata hclass => exact absurd hclass hc
      | _ => rfl
  | rdlength hin hclass hlong =>
      cases h' with
      | rdata => omega
      | _ => rfl
  | rdata hclass hlen hr => exact RdataWalk.single pkt _ _ _ _ _ hr (h'.data hclass hlen)

/-- The walk along a record, to the position behind what is read of it. -/
def RrWalk (pkt : List UInt8) (p : Nat) : Option Nat → Prop :=
  Then (NameWalk pkt maxLevels p) fun n => BodyWalk pkt n.pEnd

theorem RrWalk.single (pkt : List UInt8) (p : Nat) : Single (RrWalk pkt p) :=
  Then.single (NameWalk.single pkt maxLevels p) fun n => BodyWalk.single pkt n.pEnd

/-- The record at `p`, of which the bytes up to `q` are read. -/
def RrAt (pkt : List UInt8) (p : Nat) (rr : ParsedRr) (q : Nat) : Prop :=
  ∃ n data, NameWalk pkt maxLevels p (some n) ∧
    rr = ⟨n.text, content16 pkt n.pEnd, content16 pkt (n.pEnd + 2), content32 pkt (n.pEnd + 4),
      content16 pkt (n.pEnd + 8), data⟩ ∧
    n.pEnd + 10 + content16 pkt (n.pEnd + 8) ≤ pkt.length ∧
    RdataWalk pkt (content16 pkt n.pEnd) (content16 pkt (n.pEnd + 8)) (n.pEnd + 10) (some q)

theorem parseRr_follows (pkt : List UInt8) (p : Nat) :
    Follows (fun x e => p + x.2 = e ∧ RrAt pkt p x.1 e) (RrWalk pkt p) (parseRr pkt p) := by
  refine Follows.then (parseName_follows pkt 4 p) (NameWalk.single pkt maxLevels p) ?_
  rintro _ n rfl hn
  have hend := hn.pEnd n rfl
  have hp : p + (n.pEnd - p) = n.pEnd := by omega
  simp only [hp]
  refine Follows.ite (fun hs => Follows.refused (.short hs)) fun hs => ?_
  -- the fixed fields are inside
  have hin : n.pEnd + 10 ≤ pkt.length := by omega
  refine Follows.access (fun _ _ => by omega) fun _ => ?_
  refine Follows.access (fun _ _ => by omega) fun _ => ?_
  refine Follows.ite (fun hc => Follows.refused (.dnsclass hin hc)) fun hc => ?_
  have hclass : content16 pkt (n.pEnd + 2) = 1 := not_not.mp hc
  refine Follows.access (fun _ _ => by omega) fun _ => ?_
  refine Follows.access (fun _ _ => by omega) fun _ => ?_
  refine Follows.ite (fun hl => Follows.refused (.rdlength hin hclass hl)) fun hl => ?_
  have hlen : n.pEnd + 10 + content16 pkt (n.pEnd + 8) ≤ pkt.length := by omega
  -- the data, which may end before or behind what the length says
  refine Follows.bind (parseRdata_follows hlen) ?_ (.rdata hclass hlen)
    fun r hr => ⟨r, hr.data hclass hlen⟩
  rintro x _ rfl hx
  have hle := hx.pEnd hlen x.2 rfl
  have hback : p + (x.2 - p) = x.2 := by omega
  exact Follows.ok ⟨hback, n, x.1, hn, rfl, hlen, hx⟩ (.rdata hclass hlen hx)

/-! ## Packets -/

/-- The walk along `count` items. -/
def ItemsWalk (Item : Nat → Option Nat → Prop) : Nat → Nat → Option Nat → Prop
  | 0, p => fun r => r = some p
  | count + 1, p => Then (Item p) (ItemsWalk Item count)

section Items

variable {α : Type} {Item : Nat → Option Nat → Prop}

theorem ItemsWalk.single (hitem : ∀ p, Single (Item p)) :
    ∀ count p, Single (ItemsWalk Item count p)
  | 0, _ => fun _ _ h h' => h.trans h'.symm
  | count + 1, p => Then.single (hitem p) (ItemsWalk.single hitem count)

/-- Items with their positions, the first of which begins at `p` and the last of which ends at `e`. -/
inductive ItemsAt (At : Nat → α → Nat → Prop) : Nat → List (Nat × α) → Nat → Prop
  | nil (p : Nat) : ItemsAt At p [] p
  | cons {p q e : Nat} {item : α} {items : List (Nat × α)} (h : At p item q)
      (hrest : ItemsAt At q items e) : ItemsAt At p ((p, item) :: items) e

theorem ItemsAt.append {At : Nat → α → Nat → Prop} {p q e : Nat} {items rest : List (Nat × α)}
    (h : ItemsAt At p items q) (hrest : ItemsAt At q rest e) : ItemsAt At p (items ++ rest) e := by
  induction h with
  | nil => exact hrest
  | cons h _ ih => exact .cons h (ih hrest)

/-- Items whose parser follows their walk are parsed along the walk of all. -/
theorem parseItems_follows {At : Nat → α → Nat → Prop} {parseItem : Nat → Except Stop (α × Nat)}
    (hitem : ∀ p, Follows (fun x e => p + x.2 = e ∧ At p x.1 e) (Item p) (parseItem p))
    (hsingle : ∀ p, Single (Item p)) :
    ∀ (count p : Nat),
      Follows (fun x e => x.2 = e ∧ x.1.length = count ∧ ItemsAt At p x.1 e)
        (ItemsWalk Item count p) (parseItems parseItem count p)
  | 0, p => Follows.ok ⟨rfl, rfl, .nil p⟩ rfl
  | count + 1, p => by
      refine Follows.then (hitem p) (hsingle p) ?_
      rintro ⟨item, len⟩ _ ⟨rfl, hat⟩ -
      refine (parseItems_follows hitem hsingle count (p + len)).bind ?_ id fun r hr => ⟨r, hr⟩
      rintro x _ ⟨rfl, rfl, hrest⟩ hx
      exact Follows.ok ⟨rfl, rfl, .cons hat hrest⟩ hx

end Items

/-- The walk along the four sections behind the header. -/
def PacketWalk (pkt : List UInt8) : Option Nat → Prop :=
  Then (ItemsWalk (QueryWalk pkt) (content16 pkt 4) 12) fun p =>
    Then (ItemsWalk (RrWalk pkt) (content16 pkt 6) p) fun p =>
      Then (ItemsWalk (RrWalk pkt) (content16 pkt 8) p) fun p =>
        ItemsWalk (RrWalk pkt) (content16 pkt 10) p

/-- The bytes along the walk are in the packet. -/
def PacketInside (pkt : List UInt8) : Prop := pkt.length < 12 ∨ ∃ r, PacketWalk pkt r

/-- Only bytes of the packet are read, no name is longer than its buffer, and the parser ends. -/
def InBounds (pkt : List UInt8) : Prop :=
  parsePacket pkt ≠ .error .overread ∧ parsePacket pkt ≠ .error .overrun ∧
    parsePacket pkt ≠ .error .endless

theorem parseHdr_eq (h : 12 ≤ pkt.length) :
    parseHdr pkt = .ok ⟨content16 pkt 0, content16 pkt 2, content16 pkt 4, content16 pkt 6,
      content16 pkt 8, content16 pkt 10⟩ := by
  have hat : ∀ i, i ≤ 10 → be16At Stop.overread pkt i = .ok (content16 pkt i) :=
    fun i hi => if_pos (by omega)
  simp [parseHdr, hat, Outcome.ok_bind]

/-- The questions from behind the header on, then the records of the three sections. -/
structure PacketAt (pkt : List UInt8) (res : ParsedPacket) (e : Nat) : Prop where
  length : res.ans.length = content16 pkt 6 ∧ res.ns.length = content16 pkt 8 ∧
    res.arr.length = content16 pkt 10
  items : ∃ p, ItemsWalk (QueryWalk pkt) (content16 pkt 4) 12 (some p) ∧
    ItemsAt (QueryAt pkt) 12 res.q p ∧ ItemsAt (RrAt pkt) p (res.ans ++ (res.ns ++ res.arr)) e

theorem parsePacket_follows (h : 12 ≤ pkt.length) :
    Follows (PacketAt pkt) (PacketWalk pkt) (parsePacket pkt) := by
  have hrr := parseItems_follows (parseRr_follows pkt) (RrWalk.single pkt)
  have hone := ItemsWalk.single (RrWalk.single pkt)
  rw [parsePacket, if_neg (by omega), if_neg (by omega), parseHdr_eq h, Outcome.ok_bind]
  refine Follows.then (parseItems_follows (parseQuery_follows pkt) (QueryWalk.single pkt) _ 12)
    (ItemsWalk.single (QueryWalk.single pkt) _ 12) ?_
  rintro q _ ⟨rfl, -, hq⟩ hwalk
  refine Follows.then (hrr _ q.2) (hone _ q.2) ?_
  rintro ans _ ⟨rfl, hans, hansAt⟩ -
  refine Follows.then (hrr _ ans.2) (hone _ ans.2) ?_
  rintro ns _ ⟨rfl, hns, hnsAt⟩ -
  refine (hrr _ ns.2).bind ?_ id fun r hr => ⟨r, hr⟩
  rintro arr _ ⟨rfl, harr, harrAt⟩ hd
  exact Follows.ok ⟨⟨hans, hns, harr⟩, q.2, hwalk, hq, hansAt.append (hnsAt.append harrAt)⟩ hd

/-- **The parser of packets**: it ends and writes no name behind its buffer; it reads only bytes of the
packet exactly if the bytes along the walk are in it. -/
theorem parsePacket_inside_iff (pkt : List UInt8) : InBounds pkt ↔ PacketInside pkt := by
  by_cases h : 12 ≤ pkt.length
  · have hf := parsePacket_follows h
    constructor
    · rintro ⟨hread, -, -⟩
      by_contra hin
      exact hread (hf.overread_iff.mpr fun hr => hin (.inr hr))
    · rintro (hlt | hin)
      · omega
      · exact ⟨fun hread => hf.overread_iff.mp hread hin, hf.ends⟩
  · have hshort : parsePacket pkt = .error (.status .einval) ∨
        parsePacket pkt = .error (.status .ednsinsize) := by
      unfold parsePacket
      by_cases h0 : pkt.length = 0
      · exact .inl (if_pos h0)
      · exact .inr (by rw [if_neg h0, if_pos (by omega)])
    refine iff_of_true ?_ (.inl (by omega))
    unfold InBounds
    rcases hshort with hs | hs <;> simp [hs]

/-- An answer with an A record whose data are empty: the four bytes of the address are behind the
packet. -/
theorem not_inBounds_emptyA :
    ¬ InBounds [0, 7, 129, 128, 0, 0, 0, 1, 0, 0, 0, 0, 0, 0, 1, 0, 1, 0, 0, 0, 60, 0, 0] :=
  fun h => h.1 (by decide)

end Dns

/-! ## Where the records of a DNS packet begin

A record is parsed where the parser has stopped reading the one in front of it, and not where the RDLENGTH
of that one says. The two are the same exactly if the data of each record but the last are as long as
what is read for their type (`delimited_iff`).
-/

namespace Dns

open Buffer

variable {pkt : List UInt8} {p q e : Nat}

/-- The data at `p`, of `rdlength` bytes, are what is read for their type: an address, or a name that ends
where they do. -/
structure Sized (pkt : List UInt8) (type rdlength p : Nat) : Prop where
  a : type = typeA → rdlength = 4
  aaaa : type = typeAaaa → rdlength = 16
  cname : IsName type → ∃ n, NameWalk pkt maxLevels p (some n) ∧ n.pEnd = p + rdlength
  srv : type = typeSrv → ∃ n, NameWalk pkt maxLevels (p + 6) (some n) ∧ n.pEnd = p + rdlength

/-- The data are read to the end that RDLENGTH gives them. -/
theorem RdataWalk.sized_iff {type rdlength : Nat}
    (h : RdataWalk pkt type rdlength p (some q)) : Sized pkt type rdlength p ↔ q = p + rdlength := by
  have hw := h.known
  constructor
  · intro hs
    generalize hr : some q = r at h
    cases h with
    | a ht =>
        have h4 := hs.a ht
        simp only [Option.some.injEq] at hr
        omega
    | aaaa ht =>
        have h16 := hs.aaaa ht
        simp only [Option.some.injEq] at hr
        omega
    | cname ht hn =>
        rcases hs.cname ht with ⟨n, hn', hend⟩
        cases NameWalk.single _ _ _ _ _ hn hn'
        simp only [Option.map_some, Option.some.injEq] at hr
        omega
    | srv ht _ hn =>
        rcases hs.srv ht with ⟨n, hn', hend⟩
        cases NameWalk.single _ _ _ _ _ hn hn'
        simp only [Option.map_some, Option.some.injEq] at hr
        omega
    | data => simpa using hr
  · rintro rfl
    have hsingle := fun r hr => RdataWalk.single pkt type rdlength p (some (p + rdlength)) r h hr
    refine ⟨fun ht => ?_, fun ht => ?_, fun ht => ?_, fun ht => ?_⟩
    · have := hsingle _ (.a ht (hw.1 ht))
      simp only [Option.some.injEq] at this
      omega
    · have := hsingle _ (.aaaa ht (hw.2.1 ht))
      simp only [Option.some.injEq] at this
      omega
    · rcases hw.2.2.1 ht with ⟨w, hn⟩
      rcases Option.map_eq_some_iff.mp (hsingle _ (.cname ht hn)).symm with ⟨n, rfl, hend⟩
      exact ⟨n, hn, hend⟩
    · rcases hw.2.2.2 ht with ⟨hin, w, hn⟩
      rcases Option.map_eq_some_iff.mp (hsingle _ (.srv ht hin hn)).symm with ⟨n, rfl, hend⟩
      exact ⟨n, hn, hend⟩

/-- The record `b` is parsed behind the owner name, the ten bytes and the `rdlength` bytes of `a`. -/
def Delimited (pkt : List UInt8) (a b : Nat × ParsedRr) : Prop :=
  ∃ n, NameWalk pkt maxLevels a.1 (some n) ∧ b.1 = n.pEnd + 10 + a.2.rdlength

/-- Of `count` records, the first at `p` and each behind the RDLENGTH bytes of the one in front, all but the
last have data of the size of their type. -/
def SizedRecords (pkt : List UInt8) : Nat → Nat → Prop
  | count + 2, p => ∃ n, NameWalk pkt maxLevels p (some n) ∧
      Sized pkt (content16 pkt n.pEnd) (content16 pkt (n.pEnd + 8)) (n.pEnd + 10) ∧
        SizedRecords pkt (count + 1) (n.pEnd + 10 + content16 pkt (n.pEnd + 8))
  | _, _ => True

/-- Records that are parsed, one where the other has been read. -/
theorem ItemsAt.chain_iff {items : List (Nat × ParsedRr)}
    (h : ItemsAt (RrAt pkt) p items e) :
    List.IsChain (Delimited pkt) items ↔ SizedRecords pkt items.length p := by
  induction h with
  | nil => simp [SizedRecords]
  | @cons p q e rr items hrr hrest ih =>
      cases hrest with
      | nil => simp [SizedRecords]
      | @cons _ _ _ rr2 items hrr2 hrest =>
          rcases hrr with ⟨n, data, hn, hrr, hlen, hwalk⟩
          have hrdlength : rr.rdlength = content16 pkt (n.pEnd + 8) := by rw [hrr]
          have hone : ∀ m, NameWalk pkt maxLevels p (some m) → m = n := by
            intro m hm
            simpa using NameWalk.single _ _ _ _ _ hm hn
          have hnext : Delimited pkt (p, rr) (q, rr2) ↔
              Sized pkt (content16 pkt n.pEnd) (content16 pkt (n.pEnd + 8)) (n.pEnd + 10) := by
            rw [hwalk.sized_iff]
            constructor
            · rintro ⟨m, hm, hq⟩
              rw [hone m hm, hrdlength] at hq
              exact hq
            · intro hq
              exact ⟨n, hn, hrdlength ▸ hq⟩
          rw [List.isChain_cons_cons, hnext, ih]
          constructor
          · rintro ⟨hs, hrest⟩
            have hq := hwalk.sized_iff.mp hs
            exact ⟨n, hn, hs, hq ▸ hrest⟩
          · rintro ⟨m, hm, hs, hrest⟩
            rw [hone m hm] at hs hrest
            have hq := hwalk.sized_iff.mp hs
            exact ⟨hs, hq ▸ hrest⟩

/-- **The records of a packet**: each begins where RDLENGTH has the one in front of it end, exactly if each
but the last has the size of its type. -/
theorem delimited_iff {res : ParsedPacket} (h : parsePacket pkt = .ok res) :
    List.IsChain (Delimited pkt) (res.ans ++ (res.ns ++ res.arr)) ↔
      ∀ p, ItemsWalk (QueryWalk pkt) (content16 pkt 4) 12 (some p) →
        SizedRecords pkt (content16 pkt 6 + (content16 pkt 8 + content16 pkt 10)) p := by
  have hlen : 12 ≤ pkt.length := by
    by_contra hlt
    unfold parsePacket at h
    split at h
    · cases h
    · rw [if_pos (by omega)] at h
      cases h
  have hf := parsePacket_follows hlen
  rw [h] at hf
  rcases hf with ⟨e, hat, -⟩
  rcases hat.items with ⟨p, hp, -, hrecords⟩
  rcases hat.length with ⟨hans, hns, harr⟩
  rw [hrecords.chain_iff, List.length_append, List.length_append, hans, hns, harr]
  constructor
  · intro hs p' hp'
    cases ItemsWalk.single (QueryWalk.single pkt) _ _ _ _ hp hp'
    exact hs
  · intro hs
    exact hs p hp

/-- An A record of the root, with the data `data`. -/
def rootA (rdlength : UInt8) (data : List UInt8) : List UInt8 :=
  [0, 0, 1, 0, 1, 0, 0, 0, 60, 0, rdlength] ++ data

/-- A response without questions and with two answers. -/
def twoAnswers (first second : List UInt8) : List UInt8 :=
  [0, 7, 129, 128, 0, 0, 0, 2, 0, 0, 0, 0] ++ first ++ second

/-- The header and the first answer of the response, and another one. -/
def twoAnswersParsed (rdlength start type ttl : Nat) (rdata : Rdata) : ParsedPacket :=
  ⟨⟨7, 33152, 0, 2, 0, 0⟩, [], [(12, ⟨[], 1, 1, 60, rdlength, .a [10, 0, 0, 1]⟩),
    (start, ⟨[], type, 1, ttl, if type = 1 then 4 else 0, rdata⟩)], [], []⟩

/-- Two A records with four bytes of data. -/
theorem delimited_twoA :
    List.IsChain (Delimited (twoAnswers (rootA 4 [10, 0, 0, 1]) (rootA 4 [10, 0, 0, 2])))
      ((twoAnswersParsed 4 27 1 60 (.a [10, 0, 0, 2])).ans ++ ([] ++ [])) := by
  refine (@delimited_iff (twoAnswers (rootA 4 [10, 0, 0, 1]) (rootA 4 [10, 0, 0, 2]))
    (twoAnswersParsed 4 27 1 60 (.a [10, 0, 0, 2])) (by decide)).mpr ?_
  intro p hp
  obtain rfl : p = 12 := by
    have h : some p = some 12 := hp
    simpa using h
  refine ⟨⟨13, []⟩, .root (by decide) (by decide), ⟨fun _ => by decide, ?_, ?_, ?_⟩, trivial⟩
  · exact fun h => absurd h (by decide)
  · exact fun h => absurd h (by decide)
  · exact fun h => absurd h (by decide)

/-- The data of the first record are the address and eleven bytes more, which the parser takes for the second
record. -/
theorem not_delimited_longA :
    ∃ res, parsePacket (twoAnswers (rootA 15 [10, 0, 0, 1, 0, 0, 16, 0, 1, 0, 0, 0, 5, 0, 0])
        (rootA 4 [10, 0, 0, 2])) = .ok res ∧
      ¬ List.IsChain (Delimited (twoAnswers
        (rootA 15 [10, 0, 0, 1, 0, 0, 16, 0, 1, 0, 0, 0, 5, 0, 0]) (rootA 4 [10, 0, 0, 2])))
          (res.ans ++ (res.ns ++ res.arr)) := by
  refine ⟨twoAnswersParsed 15 27 16 5 (.data []), by decide, fun h => ?_⟩
  rcases (List.isChain_cons_cons.mp h).1 with ⟨n, hn, hnext⟩
  have hroot := NameWalk.single _ _ _ _ _ hn (.root (by decide) (by decide))
  simp only [Option.some.injEq] at hroot
  subst hroot
  exact absurd hnext (by decide)

end Dns
