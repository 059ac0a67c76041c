import PjProject.Library.Buffer
import PjProject.Library.MachineInt
import PjProject.Library.Outcome
import PjProject.Library.Places
import PjProject.Steg.Suit

set_option autoImplicit false

/-! # Position books

`StegLSB.cpp` and `StegRTP.cpp` of `third_party/pjsua_libsteg`: bits are hidden in a carrier at the
positions of a book. `InitPosBook` of `CStegRTP` makes a book of 96 items and sets 80 of them. An
item that has not been set is `none`, and its use is a fault, as is an access outside an array.

A carrier is a store whose places are its bits (`carrierBits_lawful`), and what the loops of `Embed`
and `Extract` do is to write and to read such places.
-/

namespace Steg

open Buffer MachineInt Places

/-- How an embedding can go wrong. -/
inductive BookFault where
  | outOfBounds
  | uninitialised
  deriving DecidableEq

/-- `PBItem`: the byte, and its bit, where 0 is the lowest. -/
structure PBItem where
  byte : Nat
  bit : Nat
  deriving DecidableEq

/-- `CStegLSB`. -/
structure CStegLSB where
  PB : List (Option PBItem)
  len : Nat
  prepared : Bool
  deriving DecidableEq

/-- The loops of `InitPosBook`: `n` items from `i` on, for the bits from `myint` on. -/
def setPositions : (n i myint : Nat) → List (Option PBItem) → List (Option PBItem)
  | 0, _, _, PB => PB
  | n + 1, i, myint, PB =>
      setPositions n (i + 1) (myint + 1) (PB.set i (some ⟨myint / 8, 7 - myint % 8⟩))

/-- `CStegRTP::InitPosBook`. -/
def initPosBook : CStegLSB :=
  let m_len := 96
  let PB := List.replicate m_len none
  -- the time stamp, the mark, the payload type, the SSRC and the sequence number
  let PB := setPositions 24 0 40 PB
  let PB := PB.set 24 (some ⟨1, 7⟩)
  let PB := setPositions 7 25 9 PB
  let PB := setPositions 32 32 64 PB
  let PB := setPositions 16 64 16 PB
  ⟨PB, m_len, false⟩

/-- `CStegRTP::PreparePosBook`. -/
def CStegLSB.preparePosBook (lsb : CStegLSB) : CStegLSB := { lsb with prepared := true }

/-- `m_PB[Count]`. -/
def CStegLSB.item (lsb : CStegLSB) (count : Nat) : Except BookFault PBItem :=
  match lsb.PB[count]? with
  | some (some p) => .ok p
  | some none => .error .uninitialised
  | none => .error .outOfBounds

/-! ## Bits of a carrier -/

/-- `(Carrier[byte] >> bit) & 1`. -/
def getBit (p : PBItem) (carrier : List UInt8) : Bool := (content carrier p.byte).testBit p.bit

/-- A byte after `|= t`, or `&= 0xFF - t`. -/
def updateByte (c : UInt8) (bit : Nat) (s : Bool) : UInt8 :=
  let t := UInt8.ofNat (1 <<< bit)
  if s then c ||| t else c &&& ((0xFF : UInt8) - t)

/-- `Carrier[byte] |= t`, or `Carrier[byte] &= 0xFF - t`. -/
def setBit (p : PBItem) (s : Bool) (carrier : List UInt8) : List UInt8 :=
  carrier.set p.byte (updateByte (carrier.getD p.byte 0) p.bit s)

/-- The places of a carrier. -/
def carrierBits : Access PBItem Bool (List UInt8) where
  get := getBit
  set := setBit
  inside p carrier := p.byte < carrier.length ∧ p.bit < 8

theorem testBit_updateByte (c : UInt8) (bit b : Fin 8) (s : Bool) :
    (updateByte c bit s).toNat.testBit b = if b = bit then s else c.toNat.testBit b := by
  unfold updateByte
  cases s with
  | true =>
      have hmask : ∀ bit b : Fin 8,
          (UInt8.ofNat (1 <<< bit.val)).toNat.testBit b = decide (b = bit) := by
        decide
      rw [if_pos rfl, UInt8.toNat_or, Nat.testBit_or, hmask]
      by_cases h : b = bit
      · simp [h]
      · simp [h]
  | false =>
      have hmask : ∀ bit b : Fin 8,
          ((0xFF : UInt8) - UInt8.ofNat (1 <<< bit.val)).toNat.testBit b = decide (b ≠ bit) := by
        decide
      rw [if_neg (by simp), UInt8.toNat_and, Nat.testBit_and, hmask]
      by_cases h : b = bit
      · simp [h]
      · simp [h]

/-- The bits of a carrier are places of their own. -/
theorem carrierBits_lawful : carrierBits.Lawful := by
  have hsame (p : PBItem) (s : Bool) (carrier : List UInt8) (b : Fin 8)
      (hp : p.byte < carrier.length ∧ p.bit < 8) :
      (content (setBit p s carrier) p.byte).testBit b =
        if b.val = p.bit then s else (content carrier p.byte).testBit b := by
    have hupdate := testBit_updateByte (carrier.getD p.byte 0) ⟨p.bit, hp.2⟩ b s
    simp only [Fin.ext_iff] at hupdate
    simp only [content, setBit, List.getD_eq_getElem?_getD, List.getElem?_set_self hp.1,
      Option.getD_some] at hupdate ⊢
    exact hupdate
  refine ⟨?_, ?_, ?_⟩
  · intro p s carrier hp
    have hbit := hsame p s carrier ⟨p.bit, hp.2⟩ hp
    rw [if_pos rfl] at hbit
    exact hbit
  · intro p q s carrier hp hq hne
    by_cases hbyte : q.byte = p.byte
    · have hbit : q.bit ≠ p.bit := by
        intro hbit
        apply hne
        cases p
        cases q
        simp_all
      have hbits := hsame p s carrier ⟨q.bit, hq.2⟩ hp
      rw [if_neg hbit] at hbits
      simpa [carrierBits, getBit, hbyte] using hbits
    · simp [carrierBits, getBit, setBit, content, List.getElem?_set_ne (Ne.symm hbyte)]
  · intro p q s carrier
    simp [carrierBits, setBit]

/-! ## `Embed` -/

/-- One bit, at the item `count` of the book. -/
def CStegLSB.embedBit (lsb : CStegLSB) (count : Nat) (s : Bool) (carrier : List UInt8) :
    Except BookFault (List UInt8) := do
  let p ← lsb.item count
  access .outOfBounds (p.byte < carrier.length) (setBit p s carrier)

/-- A loop of `Embed`: bits, from the item `count` on, and the item that it ends at. -/
def CStegLSB.embedBits (lsb : CStegLSB) : List Bool → Nat → List UInt8 →
    Except BookFault (Nat × List UInt8)
  | [], count, carrier => .ok (count, carrier)
  | s :: rest, count, carrier => do
      let carrier ← lsb.embedBit count s carrier
      lsb.embedBits rest (count + 1) carrier

/-- `(Dt[i] >> (7-k)) & 1`, for every `k`. -/
def dataBits (d : UInt8) : List Bool := (List.range 8).map fun k => d.toNat.testBit (7 - k)

/-- The loop of `Embed` over the bytes. -/
def CStegLSB.embedData (lsb : CStegLSB) : List UInt8 → Nat → List UInt8 →
    Except BookFault (Nat × List UInt8)
  | [], count, carrier => .ok (count, carrier)
  | d :: rest, count, carrier => do
      let (count, carrier) ← lsb.embedBits (dataBits d) count carrier
      lsb.embedData rest count carrier

/-- The first `n` elements of an array, for the loops of `Embed`. `none` is the null pointer, for
which there is no loop. -/
def elements {α : Type} (array : Option (List α)) (n : Nat) : Except BookFault (List α) :=
  match array with
  | none => .ok []
  | some array => access .outOfBounds (n ≤ array.length) (array.take n)

/-- What `Embed` and `Extract` start at. -/
def start : Nat := 40

/-- The check at the beginning of `Embed` and `Extract`. -/
def CStegLSB.refuses (lsb : CStegLSB) (Dtlen Snlen : Nat) : Prop :=
  lsb.prepared = false ∨ (Dtlen = 0 ∧ Snlen = 0) ∨ lsb.len < uint32 (Dtlen * 8 + Snlen)

instance (lsb : CStegLSB) (Dtlen Snlen : Nat) : Decidable (lsb.refuses Dtlen Snlen) :=
  inferInstanceAs (Decidable (_ ∨ _ ∨ _))

/-- What `Embed` leaves. -/
structure EmbedResult where
  ret : Bool
  lsb : CStegLSB
  carrier : List UInt8
  deriving DecidableEq

/-- `Embed`. -/
def CStegLSB.embed (lsb : CStegLSB) (Dt : Option (List UInt8)) (Dtlen : Nat)
    (Sn : Option (List Bool)) (Snlen : Nat) (carrier : List UInt8) : Except BookFault EmbedResult :=
  if lsb.refuses Dtlen Snlen then .ok ⟨false, lsb, carrier⟩
  else do
    let flags ← elements Sn Snlen
    let (count, carrier) ← lsb.embedBits flags start carrier
    let bytes ← elements Dt Dtlen
    let (_, carrier) ← lsb.embedData bytes count carrier
    return ⟨true, { lsb with prepared := false }, carrier⟩

/-! ## `Extract` -/

/-- One bit, at the item `count` of the book. -/
def CStegLSB.extractBit (lsb : CStegLSB) (count : Nat) (carrier : List UInt8) :
    Except BookFault Bool := do
  let p ← lsb.item count
  access .outOfBounds (p.byte < carrier.length) (getBit p carrier)

/-- A loop of `Extract`: `n` bits from the item `count` on. -/
def CStegLSB.extractBits (lsb : CStegLSB) (carrier : List UInt8) : (n count : Nat) →
    Except BookFault (List Bool)
  | 0, _ => .ok []
  | n + 1, count => do
      let s ← lsb.extractBit count carrier
      let rest ← lsb.extractBits carrier n (count + 1)
      return s :: rest

/-- `Dt[i] += s*(1<<(7-k))`, for every `k`. -/
def byteOfBits (bits : List Bool) : UInt8 :=
  (bits.zipIdx).foldl (fun d s => d + UInt8.ofNat (s.1.toNat * (1 <<< (7 - s.2)))) 0

/-- The loop of `Extract` over `n` bytes. -/
def CStegLSB.extractData (lsb : CStegLSB) (carrier : List UInt8) : (n count : Nat) →
    Except BookFault (List UInt8)
  | 0, _ => .ok []
  | n + 1, count => do
      let bits ← lsb.extractBits carrier 8 count
      let rest ← lsb.extractData carrier n (count + 8)
      return byteOfBits bits :: rest

/-- Elements are stored at the beginning of an array. -/
def store {α : Type} (array : Option (List α)) (new : List α) :
    Except BookFault (Option (List α)) :=
  match array with
  | none => access .outOfBounds (new = []) none
  | some old => access .outOfBounds (new.length ≤ old.length) (some (new ++ old.drop new.length))

/-- What `Extract` leaves. -/
structure ExtractResult where
  ret : Bool
  lsb : CStegLSB
  Dt : Option (List UInt8)
  Sn : Option (List Bool)
  deriving DecidableEq

/-- `Extract`. `none` is the null pointer. -/
def CStegLSB.extract (lsb : CStegLSB) (Dt : Option (List UInt8)) (Dtlen : Nat)
    (Sn : Option (List Bool)) (Snlen : Nat) (carrier : List UInt8) : Except BookFault ExtractResult :=
  if lsb.refuses Dtlen Snlen then .ok ⟨false, lsb, Dt, Sn⟩
  else do
    let Dt ← store Dt (List.replicate Dtlen 0)
    let flags ← lsb.extractBits carrier Snlen start
    let Sn ← store Sn flags
    let Dt ← match Dt with
      | none => .ok none
      | some Dt => do
          let bytes ← lsb.extractData carrier Dtlen (start + Snlen)
          store (some Dt) bytes
    return ⟨true, { lsb with prepared := false }, Dt, Sn⟩

end Steg

/-! ## Embedding in an RTP header

What `Embed` puts in a carrier, `Extract` takes out of it, if the items of the book that they use
have been set. Both start at the item 40 of a book whose last 16 items have not been set, and compare
what they need with the size of the whole book: `roundTrips_iff` says for which lengths this is
enough.
-/

namespace Steg

open Buffer MachineInt Outcome Places

/-! ## The items of the book -/

/-- The items that `InitPosBook` sets. -/
def items : List PBItem := posBook.map fun p => ⟨p.1.val, p.2⟩

theorem initPosBook_PB : initPosBook.PB = items.map some ++ List.replicate 16 none := by
  decide

theorem items_length : items.length = 80 := by decide

theorem items_nodup : items.Nodup := by decide

theorem items_inside : ∀ p ∈ items, p.byte < 12 ∧ p.bit < 8 := by decide

/-- An item of the book. -/
def bookItem (count : Nat) : PBItem := items.getD count ⟨0, 0⟩

/-- `n` items of the book, from `count` on. -/
def places (count n : Nat) : List PBItem := (List.range' count n).map bookItem

@[simp] theorem places_length (count n : Nat) : (places count n).length = n := by
  simp [places]

theorem places_succ (count n : Nat) : places count (n + 1) = bookItem count :: places (count + 1) n :=
  rfl

theorem places_add (count m n : Nat) : places count (m + n) = places count m ++ places (count + m) n := by
  unfold places
  rw [← List.map_append, List.range'_append_1]

theorem bookItem_mem {count : Nat} (h : count < 80) : bookItem count ∈ items := by
  have hlt : count < items.length := by
    rw [items_length]
    exact h
  simp [bookItem, List.getElem?_eq_getElem hlt]

/-- The items of a run are in the book. -/
theorem mem_items_of_mem_places {count n : Nat} (h : count + n ≤ 80) {p : PBItem}
    (hp : p ∈ places count n) : p ∈ items := by
  rcases List.mem_map.mp hp with ⟨i, hi, rfl⟩
  rw [List.mem_range'_1] at hi
  exact bookItem_mem (by omega)

/-- No item comes twice. -/
theorem places_nodup {count n : Nat} (h : count + n ≤ 80) : (places count n).Nodup := by
  refine List.Nodup.map_on ?_ (List.nodup_range' ..)
  intro i hi j hj heq
  rw [List.mem_range'_1] at hi hj
  have hi : i < items.length := by
    rw [items_length]
    omega
  have hj : j < items.length := by
    rw [items_length]
    omega
  simp only [bookItem, List.getD_eq_getElem?_getD, List.getElem?_eq_getElem hi,
    List.getElem?_eq_getElem hj, Option.getD_some] at heq
  exact (items_nodup.getElem_inj_iff).mp heq

/-- Every item of a run is a place of the carrier. -/
theorem places_inside {count n : Nat} (h : count + n ≤ 80) {carrier : List UInt8}
    (hcarrier : 12 ≤ carrier.length) : ∀ p ∈ places count n, carrierBits.inside p carrier := by
  intro p hp
  have hin : p.byte < 12 ∧ p.bit < 8 := items_inside p (mem_items_of_mem_places h hp)
  exact ⟨by omega, hin.2⟩

section Book

variable {lsb : CStegLSB} {carrier : List UInt8} {count n : Nat} {β : Type} {R : β → Prop}

/-- An item of the book is used if it has been set. -/
theorem yields_item (hPB : lsb.PB = initPosBook.PB) {f : PBItem → Except BookFault β} :
    Yields R (lsb.item count >>= f) ↔ count < 80 ∧ Yields R (f (bookItem count)) := by
  have hget : lsb.PB[count]? = (items.map some ++ List.replicate 16 none)[count]? := by
    rw [hPB, initPosBook_PB]
  have hlength : (items.map some).length = 80 := by
    rw [List.length_map, items_length]
  by_cases h : count < 80
  · have hlt : count < items.length := by
      rw [items_length]
      exact h
    rw [List.getElem?_append_left (by omega), List.getElem?_map, List.getElem?_eq_getElem hlt,
      Option.map_some] at hget
    have hitem : lsb.item count = .ok (bookItem count) := by
      simp [CStegLSB.item, hget, bookItem, List.getElem?_eq_getElem hlt]
    rw [hitem, yields_bind, yields_ok]
    simp [h]
  · rw [List.getElem?_append_right (by omega), List.getElem?_replicate] at hget
    have hfault : ¬ Yields R (lsb.item count >>= f) := by
      unfold CStegLSB.item
      rw [hget]
      by_cases hlast : count - (items.map some).length < 16
      · rw [if_pos hlast]
        exact yields_error
      · rw [if_neg hlast]
        exact yields_error
    constructor
    · intro hitem
      exact absurd hitem hfault
    · rintro ⟨hlt, -⟩
      exact absurd hlt h

/-! ## The loops -/

/-- The bits are written at their places, and all of these have to be in the part that is set. -/
theorem embedBits_iff (hPB : lsb.PB = initPosBook.PB) {Q : Nat × List UInt8 → Prop}
    (bits : List Bool) (hcarrier : 12 ≤ carrier.length) (hcount : count ≤ 80) :
    Yields Q (lsb.embedBits bits count carrier) ↔ count + bits.length ≤ 80 ∧
      Q (count + bits.length, carrierBits.setAll ((places count bits.length).zip bits) carrier) := by
  induction bits generalizing count carrier with
  | nil =>
      unfold CStegLSB.embedBits
      rw [yields_ok]
      exact ⟨fun hQ => ⟨hcount, hQ⟩, And.right⟩
  | cons s rest ih =>
      unfold CStegLSB.embedBits CStegLSB.embedBit
      rw [bind_assoc, yields_item hPB, yields_access]
      by_cases hlt : count < 80
      · have hin : carrierBits.inside (bookItem count) carrier :=
          @places_inside count 1 (by omega) carrier hcarrier _ (List.mem_singleton_self _)
        have hlength : (setBit (bookItem count) s carrier).length = carrier.length := by
          simp [setBit]
        have hnext : count + (s :: rest).length = count + 1 + rest.length := by
          rw [List.length_cons]
          omega
        rw [ih (by omega) (by omega), hnext, List.length_cons, places_succ, List.zip_cons_cons]
        constructor
        · rintro ⟨-, -, hroom, hQ⟩
          exact ⟨hroom, hQ⟩
        · rintro ⟨hroom, hQ⟩
          exact ⟨hlt, hin.1, hroom, hQ⟩
      · constructor
        · rintro ⟨h, -⟩
          exact absurd h hlt
        · rintro ⟨hroom, -⟩
          rw [List.length_cons] at hroom
          omega

theorem embedBits_append (xs ys : List Bool) : lsb.embedBits (xs ++ ys) count carrier =
    lsb.embedBits xs count carrier >>= fun r => lsb.embedBits ys r.1 r.2 := by
  induction xs generalizing count carrier with
  | nil => rfl
  | cons x xs ih =>
      have hstep (rest : List Bool) : lsb.embedBits (x :: rest) count carrier =
          lsb.embedBit count x carrier >>= fun c => lsb.embedBits rest (count + 1) c := rfl
      rw [List.cons_append, hstep, hstep, bind_assoc]
      congr
      funext c
      exact ih

/-- The bytes are embedded as their bits. -/
theorem embedData_eq (bytes : List UInt8) :
    lsb.embedData bytes count carrier = lsb.embedBits (bytes.flatMap dataBits) count carrier := by
  induction bytes generalizing count carrier with
  | nil => rfl
  | cons d rest ih =>
      rw [List.flatMap_cons, embedBits_append]
      unfold CStegLSB.embedData
      congr
      funext r
      exact ih

/-- The bits are read at their places. -/
theorem extractBits_iff (hPB : lsb.PB = initPosBook.PB) {Q : List Bool → Prop}
    (hcarrier : 12 ≤ carrier.length) (hcount : count ≤ 80) :
    Yields Q (lsb.extractBits carrier n count) ↔
      count + n ≤ 80 ∧ Q ((places count n).map fun p => getBit p carrier) := by
  induction n generalizing count Q with
  | zero =>
      unfold CStegLSB.extractBits
      rw [yields_ok]
      exact ⟨fun hQ => ⟨hcount, hQ⟩, And.right⟩
  | succ n ih =>
      unfold CStegLSB.extractBits CStegLSB.extractBit
      rw [bind_assoc, yields_item hPB, yields_access]
      by_cases hlt : count < 80
      · have hin : carrierBits.inside (bookItem count) carrier :=
          @places_inside count 1 (by omega) carrier hcarrier _ (List.mem_singleton_self _)
        have hnext : count + (n + 1) = count + 1 + n := by omega
        rw [yields_bind, ih (by omega), hnext, places_succ, List.map_cons]
        constructor
        · rintro ⟨-, -, hroom, hQ⟩
          exact ⟨hroom, yields_ok.mp hQ⟩
        · rintro ⟨hroom, hQ⟩
          exact ⟨hlt, hin.1, hroom, yields_ok.mpr hQ⟩
      · constructor
        · rintro ⟨h, -⟩
          exact absurd h hlt
        · rintro ⟨hroom, -⟩
          omega

/-- A byte is made of its bits. -/
theorem byteOfBits_dataBits (d : UInt8) : byteOfBits (dataBits d) = d := by
  have hall : ∀ n : Fin 256, byteOfBits (dataBits (UInt8.ofNat n.val)) = UInt8.ofNat n.val := by
    decide +kernel
  have hd := hall ⟨d.toNat, d.toNat_lt⟩
  simpa using hd

@[simp] theorem dataBits_length (d : UInt8) : (dataBits d).length = 8 := by
  simp [dataBits]

theorem length_flatMap_dataBits (bytes : List UInt8) :
    (bytes.flatMap dataBits).length = 8 * bytes.length := by
  induction bytes with
  | nil => rfl
  | cons d rest ih =>
      rw [List.flatMap_cons, List.length_append, dataBits_length, ih, List.length_cons]
      omega

/-- The bytes whose bits are at the places. -/
theorem extractData_eq (hPB : lsb.PB = initPosBook.PB) {bytes : List UInt8}
    (hcarrier : 12 ≤ carrier.length) (hcount : count + 8 * bytes.length ≤ 80)
    (hbits : (places count (8 * bytes.length)).map (fun p => getBit p carrier) =
      bytes.flatMap dataBits) :
    lsb.extractData carrier bytes.length count = .ok bytes := by
  induction bytes generalizing count with
  | nil => rfl
  | cons d rest ih =>
      have hlength : 8 * (d :: rest).length = 8 + 8 * rest.length := by
        rw [List.length_cons]
        omega
      rw [hlength, places_add, List.map_append, List.flatMap_cons] at hbits
      obtain ⟨hhead, htail⟩ := List.append_inj hbits (by simp)
      have hfirst : lsb.extractBits carrier 8 count = .ok (dataBits d) := by
        have hread : Yields (· = dataBits d) (lsb.extractBits carrier 8 count) :=
          (extractBits_iff hPB hcarrier (by omega)).mpr ⟨by omega, hhead⟩
        rcases hread with ⟨bits, hbits, rfl⟩
        exact hbits
      have hrest : lsb.extractData carrier rest.length (count + 8) = .ok rest := by
        refine ih ?_ htail
        rw [List.length_cons] at hcount
        omega
      have hstep : lsb.extractData carrier (d :: rest).length count = (do
          let bits ← lsb.extractBits carrier 8 count
          let rest ← lsb.extractData carrier rest.length (count + 8)
          return byteOfBits bits :: rest) := rfl
      rw [hstep, hfirst, hrest, ok_bind, ok_bind, byteOfBits_dataBits]
      rfl

end Book

/-! ## The round trip -/

/-- The embedding of `Dt` and `Sn` did what it is for: the items it used are in the book and have been
set, no other bit of the carrier is changed, and `Extract` takes `Dt` and `Sn` out again, into arrays
of their lengths. -/
structure RoundTrip (lsb : CStegLSB) (Dt : Option (List UInt8)) (Dtlen : Nat)
    (Sn : Option (List Bool)) (Snlen : Nat) (carrier : List UInt8) (r : EmbedResult) : Prop where
  initialised : ∀ i, start ≤ i → i < start + (Snlen + 8 * Dtlen) →
    i < lsb.len ∧ ∃ p, lsb.PB[i]? = some (some p)
  length : r.carrier.length = carrier.length
  unchanged : ∀ p : PBItem, p.byte < carrier.length → p.bit < 8 →
    some p ∉ (lsb.PB.drop start).take (Snlen + 8 * Dtlen) → getBit p r.carrier = getBit p carrier
  extracted : ∀ (Dt' : Option (List UInt8)) (Sn' : Option (List Bool)),
    (Dt'.getD []).length = Dtlen → (Sn'.getD []).length = Snlen →
      Yields (fun x => x.ret = true ∧ x.Dt.getD [] = Dt.getD [] ∧ x.Sn.getD [] = Sn.getD [])
        (r.lsb.preparePosBook.extract Dt' Dtlen Sn' Snlen r.carrier)

/-- `Embed` does not use what is not there, and if it returns `true` the embedding did what it is
for. -/
def RoundTrips (lsb : CStegLSB) (Dt : Option (List UInt8)) (Dtlen : Nat) (Sn : Option (List Bool))
    (Snlen : Nat) (carrier : List UInt8) : Prop :=
  Yields (fun r => r.ret = true → RoundTrip lsb Dt Dtlen Sn Snlen carrier r)
    (lsb.embed Dt Dtlen Sn Snlen carrier)

section

variable {lsb : CStegLSB} {carrier : List UInt8} {Dt : Option (List UInt8)} {Sn : Option (List Bool)}

/-- All the bits that `Embed` writes, the flags first. -/
def allBits (Dt : Option (List UInt8)) (Sn : Option (List Bool)) : List Bool :=
  Sn.getD [] ++ (Dt.getD []).flatMap dataBits

theorem allBits_length (Dt : Option (List UInt8)) (Sn : Option (List Bool)) :
    (allBits Dt Sn).length = (Sn.getD []).length + 8 * (Dt.getD []).length := by
  rw [allBits, List.length_append, length_flatMap_dataBits]

/-- An array of the length that is asked for. -/
theorem elements_all {α : Type} {array : Option (List α)} {n : Nat}
    (h : (array.getD []).length = n) : elements array n = .ok (array.getD []) := by
  cases array with
  | none => rfl
  | some a =>
      have hn : a.length = n := h
      subst hn
      simp [elements, access]

/-- Writing bits keeps the number of bytes. -/
theorem length_setAll (xs : List (PBItem × Bool)) (carrier : List UInt8) :
    (carrierBits.setAll xs carrier).length = carrier.length := by
  induction xs generalizing carrier with
  | nil => rfl
  | cons x xs ih =>
      exact (ih _).trans (by simp [carrierBits, setBit])

/-- The items that are used. -/
theorem accessed_eq {n : Nat} (h : start + n ≤ 80) :
    (initPosBook.PB.drop start).take n = (places start n).map some := by
  apply List.ext_getElem?
  intro i
  by_cases hi : i < n
  · have hlt : start + i < items.length := by
      rw [items_length]
      omega
    rw [List.getElem?_take_of_lt hi, List.getElem?_drop, initPosBook_PB,
      List.getElem?_append_left (by simpa using hlt), List.getElem?_map, List.getElem?_map, places,
      List.getElem?_map, List.getElem?_range' hi]
    simp [bookItem, List.getElem?_eq_getElem hlt]
  · have hlength : ((initPosBook.PB.drop start).take n).length ≤ i := by
      rw [List.length_take]
      omega
    rw [List.getElem?_eq_none hlength, List.getElem?_eq_none (by simpa using hi)]

/-- **`Embed`** writes its bits at the items from 40 on, if these have been set. -/
theorem embed_iff (hPB : lsb.PB = initPosBook.PB) {Q : EmbedResult → Prop}
    (hcarrier : 12 ≤ carrier.length)
    (hno : ¬ lsb.refuses (Dt.getD []).length (Sn.getD []).length) :
    Yields Q (lsb.embed Dt (Dt.getD []).length Sn (Sn.getD []).length carrier) ↔
      start + (allBits Dt Sn).length ≤ 80 ∧
        Q ⟨true, { lsb with prepared := false },
          carrierBits.setAll ((places start (allBits Dt Sn).length).zip (allBits Dt Sn)) carrier⟩ := by
  unfold CStegLSB.embed
  rw [if_neg hno, elements_all rfl, elements_all rfl, ok_bind]
  simp only [ok_bind, embedData_eq]
  have hboth : (do
      let (count, carrier) ← lsb.embedBits (Sn.getD []) start carrier
      let (_, carrier) ← lsb.embedBits ((Dt.getD []).flatMap dataBits) count carrier
      return (⟨true, { lsb with prepared := false }, carrier⟩ : EmbedResult)) = (do
      let r ← lsb.embedBits (allBits Dt Sn) start carrier
      return ⟨true, { lsb with prepared := false }, r.2⟩) := by
    rw [allBits, embedBits_append, bind_assoc]
  rw [hboth, yields_bind, embedBits_iff hPB _ hcarrier (by decide)]
  exact and_congr_right fun _ => yields_ok

/-- Elements fill an array of their number. -/
theorem store_all {α : Type} {array : Option (List α)} {new : List α}
    (h : (array.getD []).length = new.length) :
    ∃ array' : Option (List α), store array new = .ok array' ∧ array'.getD [] = new ∧
      array'.isSome = array.isSome := by
  cases array with
  | none =>
      have hnew : new = [] := List.length_eq_zero_iff.mp h.symm
      subst hnew
      exact ⟨none, rfl, rfl, rfl⟩
  | some old =>
      have hold : old.length = new.length := h
      refine ⟨some new, ?_, rfl, rfl⟩
      simp [store, access, ← hold]

/-- **`Extract`** takes out the bits that are at the items from 40 on. -/
theorem extract_of_bits (hPB : lsb.PB = initPosBook.PB) (hcarrier : 12 ≤ carrier.length)
    (hno : ¬ lsb.refuses (Dt.getD []).length (Sn.getD []).length)
    (hroom : start + (allBits Dt Sn).length ≤ 80)
    (hbits : (places start (allBits Dt Sn).length).map (fun p => getBit p carrier) = allBits Dt Sn)
    {Dt' : Option (List UInt8)} {Sn' : Option (List Bool)}
    (hDt : (Dt'.getD []).length = (Dt.getD []).length)
    (hSn : (Sn'.getD []).length = (Sn.getD []).length) :
    Yields (fun x => x.ret = true ∧ x.Dt.getD [] = Dt.getD [] ∧ x.Sn.getD [] = Sn.getD [])
      (lsb.extract Dt' (Dt.getD []).length Sn' (Sn.getD []).length carrier) := by
  rw [allBits_length] at hroom hbits
  rw [places_add, List.map_append, allBits] at hbits
  obtain ⟨hflags, hdata⟩ := List.append_inj hbits (by simp)
  have hread : lsb.extractBits carrier (Sn.getD []).length start = .ok (Sn.getD []) := by
    have hread : Yields (· = Sn.getD []) (lsb.extractBits carrier (Sn.getD []).length start) :=
      (extractBits_iff hPB hcarrier (by decide)).mpr ⟨by omega, hflags⟩
    rcases hread with ⟨bits, hbits, rfl⟩
    exact hbits
  have hbytes : lsb.extractData carrier (Dt.getD []).length (start + (Sn.getD []).length) =
      .ok (Dt.getD []) := extractData_eq hPB hcarrier (by omega) hdata
  obtain ⟨zeros, hzeros, hcleared, hsome⟩ :=
    @store_all _ _ (List.replicate (Dt.getD []).length (0 : UInt8)) (by simpa using hDt)
  obtain ⟨flags, hstored, hflags, -⟩ := store_all hSn
  unfold CStegLSB.extract
  rw [if_neg hno, hzeros, ok_bind, hread, ok_bind, hstored, ok_bind]
  cases zeros with
  | none =>
      -- no array, so no byte
      have hempty : (Dt.getD []).length = 0 := by
        simpa using (congrArg List.length hcleared).symm
      refine ⟨_, rfl, rfl, ?_, hflags⟩
      exact (List.length_eq_zero_iff.mp hempty).symm
  | some zeros =>
      have hlength : zeros.length = (Dt.getD []).length := by
        simpa using congrArg List.length hcleared
      obtain ⟨bytes, hstored, hbytes', -⟩ :=
        @store_all _ (some zeros) (Dt.getD []) hlength
      simp only [hbytes, ok_bind, hstored]
      exact ⟨_, rfl, rfl, hbytes', hflags⟩

/-- What the embedding of `Dt` and `Sn` leaves when all of its items have been set. -/
theorem roundTrip_of_room (hPB : lsb.PB = initPosBook.PB) (hlen : lsb.len = initPosBook.len)
    (hcarrier : 12 ≤ carrier.length)
    (hno : ¬ lsb.refuses (Dt.getD []).length (Sn.getD []).length)
    (hroom : start + (allBits Dt Sn).length ≤ 80) :
    RoundTrip lsb Dt (Dt.getD []).length Sn (Sn.getD []).length carrier
      ⟨true, { lsb with prepared := false },
        carrierBits.setAll ((places start (allBits Dt Sn).length).zip (allBits Dt Sn)) carrier⟩ := by
  have hinside := places_inside hroom hcarrier
  have hwritten : ∀ x ∈ (places start (allBits Dt Sn).length).zip (allBits Dt Sn),
      x.1 ∈ places start (allBits Dt Sn).length := fun x hx => (List.of_mem_zip hx).1
  have hlength : (carrierBits.setAll ((places start (allBits Dt Sn).length).zip (allBits Dt Sn))
      carrier).length = carrier.length := length_setAll _ _
  refine ⟨?_, hlength, ?_, ?_⟩
  · intro i hi hend
    rw [allBits_length] at hroom
    have hlt : i < items.length := by
      rw [items_length]
      omega
    refine ⟨?_, bookItem i, ?_⟩
    · rw [hlen]
      exact lt_trans (by rwa [items_length] at hlt) (by decide : 80 < initPosBook.len)
    · rw [hPB, initPosBook_PB, List.getElem?_append_left (by simpa using hlt), List.getElem?_map]
      simp [bookItem, List.getElem?_eq_getElem hlt]
  · intro p hbyte hbit hmem
    refine carrierBits_lawful.get_setAll_of_notMem (fun x hx => hinside _ (hwritten x hx))
      ⟨hbyte, hbit⟩ ?_
    intro x hx heq
    apply hmem
    rw [← allBits_length, hPB, accessed_eq hroom]
    exact List.mem_map_of_mem (heq ▸ hwritten x hx)
  · intro Dt' Sn' hDt hSn
    have hno : ¬ ({ lsb with prepared := false } : CStegLSB).preparePosBook.refuses
        (Dt.getD []).length (Sn.getD []).length := by
      rintro (hprepared | hrest)
      · exact absurd hprepared (by simp [CStegLSB.preparePosBook])
      · exact hno (.inr hrest)
    have hPB : ({ lsb with prepared := false } : CStegLSB).preparePosBook.PB = initPosBook.PB := hPB
    refine extract_of_bits hPB (hcarrier.trans_eq hlength.symm) hno hroom ?_ hDt hSn
    exact carrierBits_lawful.map_get_setAll (places_length _ _) hinside (places_nodup hroom)

end

/-- **An embedding can be taken out again** if and only if it needs 40 bits at most, which is what the
book has from its item 40 on, or `Embed` refuses it since, as it computes this, the lengths need more
bits than the whole book has. -/
theorem roundTrips_iff {Dt : Option (List UInt8)} {Dtlen : Nat} {Sn : Option (List Bool)}
    {Snlen : Nat} {carrier : List UInt8} (hcarrier : 12 ≤ carrier.length)
    (hDt : (Dt.getD []).length = Dtlen) (hSn : (Sn.getD []).length = Snlen) :
    RoundTrips initPosBook.preparePosBook Dt Dtlen Sn Snlen carrier ↔
      Dtlen * 8 + Snlen ≤ 40 ∨ 96 < uint32 (Dtlen * 8 + Snlen) := by
  subst hDt hSn
  by_cases hno : initPosBook.preparePosBook.refuses (Dt.getD []).length (Sn.getD []).length
  · -- the book is prepared, so it is the lengths
    have hrefused : RoundTrips initPosBook.preparePosBook Dt (Dt.getD []).length Sn
        (Sn.getD []).length carrier := by
      unfold RoundTrips CStegLSB.embed
      rw [if_pos hno, yields_ok]
      intro hret
      cases hret
    have hlengths : (Dt.getD []).length * 8 + (Sn.getD []).length ≤ 40 ∨
        96 < uint32 ((Dt.getD []).length * 8 + (Sn.getD []).length) := by
      rcases hno with hprepared | ⟨hDt, hSn⟩ | hlen
      · cases hprepared
      · exact .inl (by omega)
      · exact .inr hlen
    exact ⟨fun _ => hlengths, fun _ => hrefused⟩
  · have hlength := allBits_length Dt Sn
    have hsmall : ¬ 96 < uint32 ((Dt.getD []).length * 8 + (Sn.getD []).length) := by
      intro hlarge
      exact hno (.inr (.inr hlarge))
    have hPB : initPosBook.preparePosBook.PB = initPosBook.PB := rfl
    unfold RoundTrips
    rw [embed_iff hPB hcarrier hno, start]
    constructor
    · rintro ⟨hroom, -⟩
      exact .inl (by omega)
    · rintro (hroom | hlarge)
      · have hroom : start + (allBits Dt Sn).length ≤ 80 := by
          rw [start]
          omega
        exact ⟨hroom, fun _ => roundTrip_of_room hPB rfl hcarrier hno hroom⟩
      · exact absurd hlarge hsmall

/-- The three bytes of a header, which is what the library embeds. -/
theorem roundTrips_header :
    RoundTrips initPosBook.preparePosBook (some [0x40, 0x85, 0x07]) 3 none 0
      (List.replicate 12 0) :=
  (roundTrips_iff (by decide) rfl rfl).mpr (.inl (by decide))

/-- Six bytes go past the items that have been set. -/
theorem not_roundTrips_six_bytes :
    ¬ RoundTrips initPosBook.preparePosBook (some [1, 2, 3, 4, 5, 6]) 6 none 0
      (List.replicate 12 0) := by
  have hfault : initPosBook.preparePosBook.embed (some [1, 2, 3, 4, 5, 6]) 6 none 0
      (List.replicate 12 0) = .error .uninitialised := by
    decide +kernel
  unfold RoundTrips
  rw [hfault]
  exact yields_error

end Steg
