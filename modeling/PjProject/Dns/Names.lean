import PjProject.Library.Buffer
import PjProject.Library.Outcome

set_option autoImplicit false

/-! # DNS packets

`pj_dns_parse_packet` of `pjlib-util/dns.c`, with the names, questions and records it takes from a packet.
A position is the distance from the first byte of the packet, so that `max` is its length; the bytes
of a record or name are read with the checks the source makes, and with no others. A read that is not
inside of the packet is an `overread`, and a name that is longer than the buffer allocated for it an
`overrun`. A packet is shorter than `2 ^ 31` bytes, so that its lengths are those of an `int`.
-/

namespace Dns

open Buffer

/-! ## Data -/

/-- What the parser returns for a packet that it does not take. -/
inductive Status where
  | einval
  | ednsinsize
  | ednsinclass
  | ednsinnameptr
  deriving DecidableEq

/-- Why the parser comes to no packet. -/
inductive Stop where
  | status (s : Status)
  /-- A byte outside of the packet is read. -/
  | overread
  /-- A byte is written behind the buffer of a name. -/
  | overrun
  /-- The loop over the labels does not end. -/
  | endless
  deriving DecidableEq

/-- `PJ_DNS_TYPE_A`. -/
def typeA : Nat := 1

/-- `PJ_DNS_TYPE_NS`. -/
def typeNs : Nat := 2

/-- `PJ_DNS_TYPE_CNAME`. -/
def typeCname : Nat := 5

/-- `PJ_DNS_TYPE_PTR`. -/
def typePtr : Nat := 12

/-- `PJ_DNS_TYPE_AAAA`. -/
def typeAaaa : Nat := 28

/-- `PJ_DNS_TYPE_SRV`. -/
def typeSrv : Nat := 33

/-- The types whose data are a name. -/
abbrev IsName (type : Nat) : Prop := type = typeCname ∨ type = typeNs ∨ type = typePtr

/-- `pj_dns_hdr`. -/
structure Hdr where
  id : Nat
  flags : Nat
  qdcount : Nat
  anscount : Nat
  nscount : Nat
  arcount : Nat
  deriving DecidableEq

/-- `pj_dns_parsed_query`. -/
structure ParsedQuery where
  name : List UInt8
  type : Nat
  dnsclass : Nat
  deriving DecidableEq

/-- `rdata`, or the raw `data` of the other types. -/
inductive Rdata where
  | a (ipAddr : List UInt8)
  | aaaa (ipAddr : List UInt8)
  | cname (name : List UInt8)
  | srv (prio weight port : Nat) (target : List UInt8)
  | data (raw : List UInt8)
  deriving DecidableEq

/-- `pj_dns_parsed_rr`. -/
structure ParsedRr where
  name : List UInt8
  type : Nat
  dnsclass : Nat
  ttl : Nat
  rdlength : Nat
  rdata : Rdata
  deriving DecidableEq

/-! ## Names -/

/-- `parsed_len` and `name_len`. -/
structure Lens where
  parsed : Nat
  name : Nat
  deriving DecidableEq

/-- `(b & 0xc0) == 0xc0`. -/
abbrev IsPointer (b : Nat) : Prop := b / 64 = 3

/-- The offset of a pointer, without its two highest bits. -/
def offsetOf (word : Nat) : Nat := word % 16384

/-- The loop of `get_name_len`; `follow` is the call for the target of a pointer. -/
def getNameLenLoop (pkt : List UInt8) (follow : Nat → Except Stop Lens) :
    Nat → Nat → Lens → Except Stop Lens
  | 0, _, _ => .error .endless
  | turns + 1, p, lens => do
      let b ← byteAt .overread pkt p
      if b = 0 then .ok ⟨lens.parsed + 1, lens.name⟩
      else if IsPointer b then do
        let word ← be16At .overread pkt p
        if pkt.length ≤ offsetOf word then .error (.status .ednsinnameptr)
        else do
          let target ← follow (offsetOf word)
          .ok ⟨lens.parsed + 2, lens.name + target.name⟩
      -- compared with the length of the packet, not with what is left of it
      else if pkt.length < b then .error (.status .ednsinnameptr)
      else do
        let next ← byteAt .overread pkt (p + (b + 1))
        let labelLen := if next ≠ 0 then b + 1 else b
        if pkt.length ≤ p + (b + 1) then .error (.status .ednsinsize)
        else getNameLenLoop pkt follow turns (p + (b + 1)) ⟨lens.parsed + (b + 1), lens.name + labelLen⟩

/-- `get_name_len`, with as many calls left as `levels`: one for each `rec_counter` from 0 to 10. -/
def getNameLen (pkt : List UInt8) : Nat → Nat → Except Stop Lens
  | 0, _ => .error (.status .ednsinnameptr)
  | levels + 1, start =>
      getNameLenLoop pkt (getNameLen pkt levels) (pkt.length + 1) start ⟨0, 0⟩

/-- Bytes are written behind a name, into a buffer of `cap` bytes. -/
def append (cap : Nat) (name bytes : List UInt8) : Except Stop (List UInt8) :=
  access .overrun (name.length + bytes.length ≤ cap) (name ++ bytes)

/-- The loop of `get_name`. -/
def getNameLoop (pkt : List UInt8) (cap : Nat)
    (follow : Nat → List UInt8 → Except Stop (List UInt8)) :
    Nat → Nat → List UInt8 → Except Stop (List UInt8)
  | 0, _, _ => .error .endless
  | turns + 1, p, name => do
      let b ← byteAt .overread pkt p
      if b = 0 then .ok name
      else if IsPointer b then do
        let word ← be16At .overread pkt p
        if pkt.length ≤ offsetOf word then .error (.status .ednsinnameptr)
        else follow (offsetOf word) name
      else if pkt.length < b then .error (.status .ednsinnameptr)
      else do
        let label ← bytesAt .overread pkt (p + 1) b
        let name ← append cap name label
        let next ← byteAt .overread pkt (p + (b + 1))
        let name ← if next ≠ 0 then append cap name [46] else .ok name
        if pkt.length ≤ p + (b + 1) then .error (.status .ednsinsize)
        else getNameLoop pkt cap follow turns (p + (b + 1)) name

/-- `get_name`. -/
def getName (pkt : List UInt8) (cap : Nat) : Nat → Nat → List UInt8 → Except Stop (List UInt8)
  | 0, _, _ => .error (.status .ednsinnameptr)
  | levels + 1, start, name =>
      getNameLoop pkt cap (getName pkt cap levels) (pkt.length + 1) start name

/-- The calls that `rec_counter` allows. -/
def maxLevels : Nat := 11

/-- A name: its length, its buffer with `spare` bytes more, and its copy. What is returned is the name,
and the length of its encoding. -/
def parseName (pkt : List UInt8) (spare start : Nat) : Except Stop (List UInt8 × Nat) := do
  let lens ← getNameLen pkt maxLevels start
  let name ← getName pkt (lens.name + spare) maxLevels start []
  .ok (name, lens.parsed)

/-! ## Questions and records -/

/-- `parse_query`, with `parsed_len`. -/
def parseQuery (pkt : List UInt8) (start : Nat) : Except Stop (ParsedQuery × Nat) := do
  let (name, nameLen) ← parseName pkt 4 start
  let p := start + nameLen
  let type ← be16At .overread pkt p
  let dnsclass ← be16At .overread pkt (p + 2)
  .ok (⟨name, type, dnsclass⟩, p + 4 - start)

/-- The data of a record whose fixed fields end at `p`, with the position behind what was read. -/
def parseRdata (pkt : List UInt8) (type rdlength p : Nat) : Except Stop (Rdata × Nat) :=
  if type = typeA then do
    let ipAddr ← bytesAt .overread pkt p 4
    .ok (.a ipAddr, p + 4)
  else if type = typeAaaa then do
    let ipAddr ← bytesAt .overread pkt p 16
    .ok (.aaaa ipAddr, p + 16)
  else if IsName type then do
    let (name, nameLen) ← parseName pkt 0 p
    .ok (.cname name, p + nameLen)
  else if type = typeSrv then do
    let prio ← be16At .overread pkt p
    let weight ← be16At .overread pkt (p + 2)
    let port ← be16At .overread pkt (p + 4)
    let (target, nameLen) ← parseName pkt 0 (p + 6)
    .ok (.srv prio weight port target, p + 6 + nameLen)
  else do
    let raw ← bytesAt .overread pkt p rdlength
    .ok (.data raw, p + rdlength)

/-- `parse_rr`, with `parsed_len`. -/
def parseRr (pkt : List UInt8) (start : Nat) : Except Stop (ParsedRr × Nat) := do
  let (name, nameLen) ← parseName pkt 4 start
  let p := start + nameLen
  if pkt.length < p + 10 then .error (.status .ednsinsize)
  else do
    let type ← be16At .overread pkt p
    let dnsclass ← be16At .overread pkt (p + 2)
    if dnsclass ≠ 1 then .error (.status .ednsinclass)
    else do
      let ttl ← be32At .overread pkt (p + 4)
      let rdlength ← be16At .overread pkt (p + 8)
      if pkt.length < p + 10 + rdlength then .error (.status .ednsinsize)
      else do
        let (rdata, pEnd) ← parseRdata pkt type rdlength (p + 10)
        .ok (⟨name, type, dnsclass, ttl, rdlength, rdata⟩, pEnd - start)

/-! ## Packets -/

/-- `count` items, the first of which begins at `start`: each with the position at which it was parsed,
and the position behind the last one. -/
def parseItems {α : Type} (parseItem : Nat → Except Stop (α × Nat)) :
    Nat → Nat → Except Stop (List (Nat × α) × Nat)
  | 0, start => .ok ([], start)
  | count + 1, start => do
      let (item, parsedLen) ← parseItem start
      let (items, pEnd) ← parseItems parseItem count (start + parsedLen)
      .ok ((start, item) :: items, pEnd)

/-- `pj_dns_parsed_packet`, each question and record with its position. -/
structure ParsedPacket where
  hdr : Hdr
  q : List (Nat × ParsedQuery)
  ans : List (Nat × ParsedRr)
  ns : List (Nat × ParsedRr)
  arr : List (Nat × ParsedRr)
  deriving DecidableEq

/-- The header, in host byte order. -/
def parseHdr (pkt : List UInt8) : Except Stop Hdr := do
  let id ← be16At .overread pkt 0
  let flags ← be16At .overread pkt 2
  let qdcount ← be16At .overread pkt 4
  let anscount ← be16At .overread pkt 6
  let nscount ← be16At .overread pkt 8
  let arcount ← be16At .overread pkt 10
  .ok ⟨id, flags, qdcount, anscount, nscount, arcount⟩

/-- `pj_dns_parse_packet`. -/
def parsePacket (pkt : List UInt8) : Except Stop ParsedPacket :=
  if pkt.length = 0 then .error (.status .einval)
  else if pkt.length < 12 then .error (.status .ednsinsize)
  else do
    let hdr ← parseHdr pkt
    let (q, start) ← parseItems (parseQuery pkt) hdr.qdcount 12
    let (ans, start) ← parseItems (parseRr pkt) hdr.anscount start
    let (ns, start) ← parseItems (parseRr pkt) hdr.nscount start
    let (arr, _) ← parseItems (parseRr pkt) hdr.arcount start
    .ok ⟨hdr, q, ans, ns, arr⟩

end Dns

/-! ## Names in a DNS packet

`NameWalk pkt levels p r` is the walk along the labels and pointers of the name at `p`, all of whose
bytes are in the packet: the name is taken (`some`), or the walk comes to something for which it is refused
(`none`). `get_name_len` reads outside of the packet exactly if there is no such walk
(`getNameLen_follows`), and `get_name` writes as many bytes as it has counted
(`NameWalk.getName`), so that the two agree about each name (`parseName_follows`).
-/

namespace Dns

open Buffer

/-! ## What a computation comes to -/

/-- `x` is the outcome that `R` describes: a value that stands for what `R` has (`G`), a packet that is
refused (`none`), or a read outside if `R` describes nothing. -/
def Follows {α β : Type} (G : α → β → Prop) (R : Option β → Prop) : Except Stop α → Prop
  | .ok a => ∃ b, G a b ∧ R (some b)
  | .error (.status _) => R none
  | .error .overread => ∀ r, ¬ R r
  | .error .overrun => False
  | .error .endless => False

section Follows

variable {α β γ δ : Type} {G : α → β → Prop} {H : γ → δ → Prop} {R : Option β → Prop}
  {S : Option δ → Prop}

theorem Follows.ok {a : α} {b : β} (hg : G a b) (h : R (some b)) : Follows G R (.ok a) :=
  ⟨b, hg, h⟩

theorem Follows.refused {s : Status} (h : R none) : Follows G R (.error (.status s)) := h

/-- The rule of a call. -/
theorem Follows.bind {x : Except Stop γ} {f : γ → Except Stop α} (hx : Follows H S x)
    (hf : ∀ c d, H c d → S (some d) → Follows G R (f c)) (hnone : S none → R none)
    (hsome : ∀ r, R r → ∃ s, S s) : Follows G R (x >>= f) := by
  match x with
  | .ok c =>
      rcases hx with ⟨d, hc, hd⟩
      exact hf c d hc hd
  | .error (.status s) => exact hnone hx
  | .error .overread =>
      intro r hr
      rcases hsome r hr with ⟨s, hs⟩
      exact hx s hs
  | .error .overrun => exact hx.elim
  | .error .endless => exact hx.elim

/-- The rule of a consequence. -/
theorem Follows.mono {H : α → δ → Prop} {x : Except Stop α} (hx : Follows H S x)
    (hok : ∀ a d, H a d → S (some d) → ∃ b, G a b ∧ R (some b)) (hnone : S none → R none)
    (hsome : ∀ r, R r → ∃ s, S s) : Follows G R x := by
  match x with
  | .ok a =>
      rcases hx with ⟨d, ha, hd⟩
      exact hok a d ha hd
  | .error (.status s) => exact hnone hx
  | .error .overread =>
      intro r hr
      rcases hsome r hr with ⟨s, hs⟩
      exact hx s hs
  | .error .overrun => exact hx.elim
  | .error .endless => exact hx.elim

/-- The rule of an access: what `R` describes is inside. -/
theorem Follows.access {c : Prop} [Decidable c] {b : γ} {f : γ → Except Stop α}
    (hin : ∀ r, R r → c) (hf : c → Follows G R (f b)) :
    Follows G R (Buffer.access .overread c b >>= f) := by
  unfold Buffer.access
  by_cases hc : c
  · rw [if_pos hc]
    exact hf hc
  · rw [if_neg hc]
    exact fun r hr => hc (hin r hr)

theorem Follows.ite {c : Prop} [Decidable c] {x y : Except Stop α} (hx : c → Follows G R x)
    (hy : ¬ c → Follows G R y) : Follows G R (if c then x else y) := by
  by_cases hc : c
  · rw [if_pos hc]
    exact hx hc
  · rw [if_neg hc]
    exact hy hc

/-- A walk comes to one end. -/
def Single (R : Option β → Prop) : Prop := ∀ r r', R r → R r' → r = r'

/-- One walk, and another from where it has come to. -/
inductive Then (S : Option δ → Prop) (T : δ → Option β → Prop) : Option β → Prop
  | refused (h : S none) : Then S T none
  | next {d : δ} {r : Option β} (h : S (some d)) (hr : T d r) : Then S T r

theorem Then.single {T : δ → Option β → Prop} (hs : Single S) (ht : ∀ d, Single (T d)) :
    Single (Then S T) := by
  rintro r r' (h | ⟨h, hr⟩) (h' | ⟨h', hr'⟩)
  · rfl
  · exact absurd (hs _ _ h h') nofun
  · exact absurd (hs _ _ h h') nofun
  · cases hs _ _ h h'
    exact ht _ _ _ hr hr'

/-- The rule of a sequence. -/
theorem Follows.then {T : δ → Option β → Prop} {x : Except Stop γ} {f : γ → Except Stop α}
    (hx : Follows H S x) (hs : Single S)
    (hf : ∀ c d, H c d → S (some d) → Follows G (T d) (f c)) : Follows G (Then S T) (x >>= f) := by
  refine hx.bind ?_ .refused ?_
  · intro c d hc hd
    refine (hf c d hc hd).mono (fun a b hab hb => ⟨b, hab, .next hd hb⟩) (.next hd) ?_
    rintro r (h | ⟨h, hr⟩)
    · exact absurd (hs _ _ hd h) nofun
    · cases hs _ _ hd h
      exact ⟨r, hr⟩
  · rintro r (h | ⟨h, -⟩)
    · exact ⟨_, h⟩
    · exact ⟨_, h⟩

/-- The value that `R` describes is returned. -/
theorem Follows.returns {x : Except Stop α} {b : β} (h : Follows G R x) (hs : Single R)
    (hb : R (some b)) : ∃ a, x = .ok a ∧ G a b := by
  match x with
  | .ok a =>
      rcases h with ⟨b', hg, hb'⟩
      cases hs _ _ hb hb'
      exact ⟨a, rfl, hg⟩
  | .error (.status s) => exact absurd (hs _ _ hb h) nofun
  | .error .overread => exact absurd hb (h _)
  | .error .overrun => exact h.elim
  | .error .endless => exact h.elim

/-- There is no read outside if `R` describes the outcome. -/
theorem Follows.overread_iff {x : Except Stop α} (h : Follows G R x) :
    x = .error .overread ↔ ¬ ∃ r, R r := by
  match x with
  | .ok a =>
      rcases h with ⟨b, -, hb⟩
      exact iff_of_false (by simp) (not_not.mpr ⟨some b, hb⟩)
  | .error (.status s) => exact iff_of_false (by simp) (not_not.mpr ⟨none, h⟩)
  | .error .overread => exact iff_of_true rfl (fun ⟨r, hr⟩ => h r hr)
  | .error .overrun => exact h.elim
  | .error .endless => exact h.elim

/-- There is no write outside, and an end. -/
theorem Follows.ends {x : Except Stop α} (h : Follows G R x) :
    x ≠ .error .overrun ∧ x ≠ .error .endless := by
  constructor
  · rintro rfl
    exact h
  · rintro rfl
    exact h

end Follows

/-! ## Walks -/

/-- A name: the position behind its encoding, and its text. -/
structure Name where
  pEnd : Nat
  text : List UInt8
  deriving DecidableEq

/-- The label of `b` bytes at `p`, with a dot if another label or a pointer follows it. -/
def labelText (pkt : List UInt8) (p b : Nat) : List UInt8 :=
  (pkt.drop (p + 1)).take b ++ if content pkt (p + (b + 1)) ≠ 0 then [46] else []

/-- The walk along a name, inside of the packet. -/
inductive NameWalk (pkt : List UInt8) : Nat → Nat → Option Name → Prop
  /-- No more than eleven levels of pointers. -/
  | deep (p : Nat) : NameWalk pkt 0 p none
  | root {levels p : Nat} (hp : p < pkt.length) (hb : content pkt p = 0) :
      NameWalk pkt (levels + 1) p (some ⟨p + 1, []⟩)
  | far {levels p : Nat} (hp : p + 2 ≤ pkt.length) (hb : IsPointer (content pkt p))
      (hfar : pkt.length ≤ offsetOf (content16 pkt p)) : NameWalk pkt (levels + 1) p none
  | pointer {levels p : Nat} {r : Option Name} (hp : p + 2 ≤ pkt.length)
      (hb : IsPointer (content pkt p)) (hin : offsetOf (content16 pkt p) < pkt.length)
      (hr : NameWalk pkt levels (offsetOf (content16 pkt p)) r) :
      NameWalk pkt (levels + 1) p (r.map fun n => ⟨p + 2, n.text⟩)
  | long {levels p : Nat} (hp : p < pkt.length) (hb : ¬ IsPointer (content pkt p))
      (hlong : pkt.length < content pkt p) : NameWalk pkt (levels + 1) p none
  | label {levels p : Nat} {r : Option Name} (hp : p < pkt.length) (hz : content pkt p ≠ 0)
      (hb : ¬ IsPointer (content pkt p)) (hnext : p + (content pkt p + 1) < pkt.length)
      (hr : NameWalk pkt (levels + 1) (p + (content pkt p + 1)) r) :
      NameWalk pkt (levels + 1) p
        (r.map fun n => ⟨n.pEnd, labelText pkt p (content pkt p) ++ n.text⟩)

variable {pkt : List UInt8} {levels p : Nat} {r : Option Name}

/-- The first byte of a name is in the packet. -/
theorem NameWalk.start (h : NameWalk pkt (levels + 1) p r) : p < pkt.length := by
  cases h <;> omega

/-- Both bytes of a pointer are. -/
theorem NameWalk.pointer_inside (h : NameWalk pkt (levels + 1) p r) (hb : IsPointer (content pkt p)) :
    p + 2 ≤ pkt.length := by
  cases h with
  | root hp hz => rw [hz] at hb; exact absurd hb (by decide)
  | far hp => exact hp
  | pointer hp => exact hp
  | long hp hn => exact absurd hb hn
  | label hp hz hn => exact absurd hb hn

/-- ... and so is the walk from its offset. -/
theorem NameWalk.target (h : NameWalk pkt (levels + 1) p r) (hb : IsPointer (content pkt p))
    (hin : offsetOf (content16 pkt p) < pkt.length) :
    ∃ r', NameWalk pkt levels (offsetOf (content16 pkt p)) r' := by
  cases h with
  | root hp hz => rw [hz] at hb; exact absurd hb (by decide)
  | far hp hb hfar => exact absurd hfar (Nat.not_le.mpr hin)
  | pointer hp hb hin hr => exact ⟨_, hr⟩
  | long hp hn => exact absurd hb hn
  | label hp hz hn => exact absurd hb hn

/-- The byte behind a label is in the packet, and the walk goes on there. -/
theorem NameWalk.behind (h : NameWalk pkt (levels + 1) p r) (hz : content pkt p ≠ 0)
    (hb : ¬ IsPointer (content pkt p)) (hlen : content pkt p ≤ pkt.length) :
    p + (content pkt p + 1) < pkt.length ∧
      ∃ r', NameWalk pkt (levels + 1) (p + (content pkt p + 1)) r' := by
  cases h with
  | root hp h0 => exact absurd h0 hz
  | far hp hn => exact absurd hn hb
  | pointer hp hn => exact absurd hn hb
  | long hp hn hlong => omega
  | label hp _ _ hnext hr => exact ⟨hnext, _, hr⟩

/-- The walk along a name comes to one end. -/
theorem NameWalk.single (pkt : List UInt8) (levels p : Nat) : Single (NameWalk pkt levels p) := by
  intro r r' h h'
  induction h generalizing r' with
  | deep p =>
      cases h'
      rfl
  | root hp hb =>
      cases h' with
      | root => rfl
      | far _ hn => rw [hb] at hn; exact absurd hn (by decide)
      | pointer _ hn => rw [hb] at hn; exact absurd hn (by decide)
      | long _ _ hlong => omega
      | label _ hz => exact absurd hb hz
  | far hp hb hfar =>
      cases h' with
      | root _ hz => rw [hz] at hb; exact absurd hb (by decide)
      | far => rfl
      | pointer _ _ hin => omega
      | long => rfl
      | label _ _ hn => exact absurd hb hn
  | pointer hp hb hin hr ih =>
      cases h' with
      | root _ hz => rw [hz] at hb; exact absurd hb (by decide)
      | far _ _ hfar => omega
      | pointer _ _ _ hr' => rw [ih _ hr']
      | long _ hn => exact absurd hb hn
      | label _ _ hn => exact absurd hb hn
  | long hp hb hlong =>
      cases h' with
      | root _ hz => omega
      | far => rfl
      | pointer _ hn => exact absurd hn hb
      | long => rfl
      | label _ _ _ hnext => omega
  | label hp hz hb hnext hr ih =>
      cases h' with
      | root _ h0 => exact absurd h0 hz
      | far _ hn => exact absurd hn hb
      | pointer _ hn => exact absurd hn hb
      | long _ _ hlong => omega
      | label _ _ _ _ hr' => rw [ih _ hr']

/-! ## `get_name_len` -/

/-- What `get_name_len` has counted of a name, added to what it had. -/
def counted (p : Nat) (lens : Lens) (n : Name) : Lens :=
  ⟨lens.parsed + (n.pEnd - p), lens.name + n.text.length⟩

/-- A name ends behind its beginning, in the packet. -/
theorem NameWalk.pEnd (h : NameWalk pkt levels p r) :
    ∀ n, r = some n → p < n.pEnd ∧ n.pEnd ≤ pkt.length := by
  induction h with
  | deep => nofun
  | root hp =>
      rintro n ⟨⟩
      exact ⟨Nat.lt_succ_self _, hp⟩
  | far => nofun
  | @pointer levels p r hp hb hin hr ih =>
      intro n hn
      rcases Option.map_eq_some_iff.mp hn with ⟨m, -, rfl⟩
      exact ⟨by show p < p + 2; omega, hp⟩
  | long => nofun
  | @label levels p r hp hz hb hnext hr ih =>
      intro n hn
      rcases Option.map_eq_some_iff.mp hn with ⟨m, rfl, rfl⟩
      have h := ih m rfl
      exact ⟨by show p < m.pEnd; omega, h.2⟩

theorem length_labelText {b : Nat} (h : p + (b + 1) < pkt.length) :
    (labelText pkt p b).length = if content pkt (p + (b + 1)) ≠ 0 then b + 1 else b := by
  have hlen : ((pkt.drop (p + 1)).take b).length = b := by
    rw [List.length_take, List.length_drop]
    omega
  unfold labelText
  rw [List.length_append, hlen]
  split <;> simp

/-- The loop counts what is left of the name. -/
theorem getNameLenLoop_follows {follow : Nat → Except Stop Lens}
    (hfollow : ∀ q, Follows (fun l n => l = counted q ⟨0, 0⟩ n) (NameWalk pkt levels q) (follow q)) :
    ∀ (turns p : Nat) (lens : Lens), 0 < turns → pkt.length < p + turns →
      Follows (fun l n => l = counted p lens n) (NameWalk pkt (levels + 1) p)
        (getNameLenLoop pkt follow turns p lens)
  | 0, _, _, h, _ => absurd h (Nat.lt_irrefl 0)
  | turns + 1, p, lens, _, hturns => by
      refine Follows.access (fun r hw => hw.start) fun hp => ?_
      refine Follows.ite (fun hz => ?_) fun hz => Follows.ite (fun hb => ?_) fun hb => ?_
      · exact Follows.ok (by simp [counted]) (.root hp hz)
      · -- a pointer: the name at its offset, one level further down
        refine Follows.access (fun r hw => hw.pointer_inside hb) fun hp2 => ?_
        refine Follows.ite (fun hfar => Follows.refused (.far hp2 hb hfar)) fun hin => ?_
        have hin : offsetOf (content16 pkt p) < pkt.length := by omega
        refine Follows.bind (hfollow _) ?_ (.pointer hp2 hb hin) fun r hw => hw.target hb hin
        rintro target n rfl hw
        exact Follows.ok (by simp [counted]) (.pointer hp2 hb hin hw)
      · -- a label: the rest of the name behind it
        refine Follows.ite (fun hlong => Follows.refused (.long hp hb hlong)) fun hlen => ?_
        have hlen : content pkt p ≤ pkt.length := by omega
        refine Follows.access (fun r hw => (hw.behind hz hb hlen).1) fun hnext => ?_
        rw [if_neg (by omega)]
        refine (getNameLenLoop_follows hfollow turns _ _ (by omega) (by omega)).mono ?_
          (.label hp hz hb hnext) fun r hw => (hw.behind hz hb hlen).2
        rintro l n rfl hw
        refine ⟨_, ?_, .label hp hz hb hnext hw⟩
        have hend := hw.pEnd n rfl
        simp only [counted, List.length_append, length_labelText hnext]
        congr 1
        · omega
        · omega

/-- **`get_name_len` along a name**: it ends, and reads outside only if the name does. -/
theorem getNameLen_follows (pkt : List UInt8) : ∀ (levels p : Nat),
    Follows (fun l n => l = counted p ⟨0, 0⟩ n) (NameWalk pkt levels p) (getNameLen pkt levels p)
  | 0, p => Follows.refused (.deep p)
  | levels + 1, p =>
      getNameLenLoop_follows (getNameLen_follows pkt levels) _ p ⟨0, 0⟩ (by omega) (by omega)

/-! ## `get_name` -/

theorem byteAt_inside {i : Nat} (h : i < pkt.length) :
    byteAt Stop.overread pkt i = .ok (content pkt i) := if_pos h

theorem append_fits {cap : Nat} {name bytes : List UInt8}
    (h : name.length + bytes.length ≤ cap) : append cap name bytes = .ok (name ++ bytes) := if_pos h

/-- The loop over a label: the label and the dot, if they fit, and then the rest. -/
theorem getNameLoop_label {cap turns : Nat} {follow : Nat → List UInt8 → Except Stop (List UInt8)}
    {name : List UInt8} (hp : p < pkt.length) (hz : content pkt p ≠ 0)
    (hb : ¬ IsPointer (content pkt p)) (hnext : p + (content pkt p + 1) < pkt.length)
    (hcap : name.length + (labelText pkt p (content pkt p)).length ≤ cap) :
    getNameLoop pkt cap follow (turns + 1) p name =
      getNameLoop pkt cap follow turns (p + (content pkt p + 1))
        (name ++ labelText pkt p (content pkt p)) := by
  have hlabel : bytesAt Stop.overread pkt (p + 1) (content pkt p) =
      .ok ((pkt.drop (p + 1)).take (content pkt p)) := if_pos (.inr (by omega))
  have hend : ¬ pkt.length ≤ p + (content pkt p + 1) := by omega
  have hle : name.length + ((pkt.drop (p + 1)).take (content pkt p)).length ≤ cap := by
    simp only [labelText, List.length_append] at hcap
    omega
  rw [getNameLoop, byteAt_inside hp, Outcome.ok_bind, if_neg hz, if_neg hb, if_neg (by omega),
    hlabel, Outcome.ok_bind, append_fits hle, Outcome.ok_bind, byteAt_inside hnext, Outcome.ok_bind]
  unfold labelText at hcap ⊢
  by_cases hdot : content pkt (p + (content pkt p + 1)) ≠ 0
  · rw [if_pos hdot] at hcap ⊢
    rw [if_pos hdot, append_fits (by simpa [Nat.add_assoc] using hcap), Outcome.ok_bind]
    simp only [if_neg hend, List.append_assoc]
  · rw [if_neg hdot, if_neg hdot, Outcome.ok_bind]
    simp only [if_neg hend, List.append_nil]

/-- **`get_name` along a name** that is taken: the text, in a buffer that has room for it. -/
theorem NameWalk.getName {n : Name} {cap : Nat} (h : NameWalk pkt levels p (some n)) :
    ∀ (name : List UInt8), name.length + n.text.length ≤ cap →
      getName pkt cap levels p name = .ok (name ++ n.text) := by
  -- the loop is in the middle of the name, with turns enough for the rest
  have hloop : ∀ {levels p : Nat} {r : Option Name}, NameWalk pkt levels p r → ∀ n, r = some n →
      ∀ k, levels = k + 1 → ∀ (turns : Nat) (name : List UInt8), 0 < turns →
        pkt.length < p + turns → name.length + n.text.length ≤ cap →
        getNameLoop pkt cap (Dns.getName pkt cap k) turns p name = .ok (name ++ n.text) := by
    intro levels p r h
    induction h with
    | deep => nofun
    | @root levels p hp hb =>
        rintro n ⟨⟩ k hk (_ | turns) name hpos - -
        · exact absurd hpos (Nat.lt_irrefl 0)
        · rw [getNameLoop, byteAt_inside hp, Outcome.ok_bind, if_pos hb, List.append_nil]
    | far => nofun
    | @pointer levels p r hp hb hin hr ih =>
        rintro n hn k hk (_ | turns) name hpos - hcap
        · exact absurd hpos (Nat.lt_irrefl 0)
        · obtain rfl : levels = k := by omega
          rcases Option.map_eq_some_iff.mp hn with ⟨m, rfl, rfl⟩
          have hz : content pkt p ≠ 0 := fun hz => absurd (hz ▸ hb) (by decide)
          have hword : be16At Stop.overread pkt p = .ok (content16 pkt p) := if_pos hp
          rw [getNameLoop, byteAt_inside (by omega), Outcome.ok_bind, if_neg hz, if_pos hb, hword,
            Outcome.ok_bind, if_neg (by omega)]
          cases levels with
          | zero => cases hr
          | succ levels => exact ih m rfl levels rfl _ name (by omega) (by omega) hcap
    | long => nofun
    | @label levels p r hp hz hb hnext hr ih =>
        rintro n hn k hk (_ | turns) name hpos hturns hcap
        · exact absurd hpos (Nat.lt_irrefl 0)
        · rcases Option.map_eq_some_iff.mp hn with ⟨m, rfl, rfl⟩
          simp only [List.length_append] at hcap
          rw [getNameLoop_label hp hz hb hnext (by omega),
            ih m rfl k hk turns _ (by omega) (by omega) (by rw [List.length_append]; omega),
            List.append_assoc]
  intro name hcap
  cases levels with
  | zero => cases h
  | succ levels => exact hloop h n rfl levels rfl _ name (by omega) (by omega) hcap

/-- **A name that is parsed** is copied whole, into a buffer in which it fits. -/
theorem parseName_follows (pkt : List UInt8) (spare p : Nat) :
    Follows (fun x n => x = (n.text, n.pEnd - p)) (NameWalk pkt maxLevels p)
      (parseName pkt spare p) := by
  refine Follows.bind (getNameLen_follows pkt maxLevels p) ?_ id fun r hw => ⟨r, hw⟩
  rintro lens n rfl hw
  have hname : getName pkt ((counted p ⟨0, 0⟩ n).name + spare) maxLevels p [] = .ok n.text := by
    simpa using hw.getName [] (by simp [counted])
  rw [hname, Outcome.ok_bind]
  exact Follows.ok (by simp [counted]) hw

end Dns
