import PjProject.Steg.ReceptionRuns

set_option autoImplicit false

/-! # The framing of a file name

`Receive(dst, -1, 2)` looks for `'<' name '>' NUL` from the end of the receive buffer backwards.
`Scanned` is what the scan knows when it has come down to a position (`nameScan_cases`). It stops at
the last `'<'` with an end behind it, wherever this is, and what it finds missing it throws away:
`receiveName_iff` says when this is the name.
-/

namespace Steg

open Buffer MachineInt Outcome

/-- The end of a name is at the position: a `'>'` with a NUL behind it. -/
def EndsAt (storage : List UInt8) (i : Nat) : Prop :=
  storage.getD i 0 = 62 ∧ storage.getD (i + 1) 0 = 0

instance (storage : List UInt8) (i : Nat) : Decidable (EndsAt storage i) :=
  inferInstanceAs (Decidable (_ ∧ _))

/-- What the scan from `top` knows when it has come down to `n`: `stop` is the first end, or 0, and no
name begins in front of an end. -/
structure Scanned (storage : List UInt8) (top n stop : Nat) : Prop where
  first : (stop = 0 ∧ ∀ i, n ≤ i → i < top → ¬ EndsAt storage i) ∨
    (n ≤ stop ∧ stop < top ∧ EndsAt storage stop ∧ ∀ i, n ≤ i → i < stop → ¬ EndsAt storage i)
  opens : ∀ b i, n ≤ b → b < i → i < top → storage.getD b 0 = 60 → ¬ EndsAt storage i

section

variable {storage : List UInt8} {top n stop : Nat}

theorem scanned_top (storage : List UInt8) (top : Nat) : Scanned storage top top 0 :=
  ⟨.inl ⟨rfl, fun i h1 h2 => by omega⟩, fun b i h1 h2 h3 => by omega⟩

theorem byteAt_ok {i : Nat} (h : i < storage.length) :
    byteAt MemFault.outOfBounds storage i = .ok (storage.getD i 0).toNat :=
  if_pos h

/-- One position further down. -/
theorem Scanned.down (h : Scanned storage top (n + 1) stop) (hend : ¬ EndsAt storage n)
    (hopen : storage.getD n 0 = 60 → stop = 0) : Scanned storage top n stop := by
  refine ⟨?_, fun b i h1 h2 h3 h60 => ?_⟩
  · rcases h.first with ⟨hzero, hnone⟩ | ⟨hle, hlt, hstop, hnone⟩
    · refine .inl ⟨hzero, fun i h1 h2 => ?_⟩
      by_cases hi : i = n
      · rw [hi]
        exact hend
      · exact hnone i (by omega) h2
    · refine .inr ⟨by omega, hlt, hstop, fun i h1 h2 => ?_⟩
      by_cases hi : i = n
      · rw [hi]
        exact hend
      · exact hnone i (by omega) h2
  · by_cases hb : b = n
    · subst hb
      -- no end has been seen
      rcases h.first with ⟨-, hnone⟩ | ⟨hle, -, -, -⟩
      · exact hnone i (by omega) h3
      · have hzero := hopen h60
        omega
    · exact h.opens b i (by omega) h2 h3 h60

theorem Scanned.found (h : Scanned storage top (n + 1) stop) (hn : n < top)
    (hend : EndsAt storage n) : Scanned storage top n n := by
  refine ⟨.inr ⟨Nat.le_refl n, hn, hend, fun i h1 h2 => by omega⟩, fun b i h1 h2 h3 h60 => ?_⟩
  by_cases hb : b = n
  · subst hb
    have h62 := hend.1
    rw [h60] at h62
    exact absurd h62 (by decide)
  · exact h.opens b i (by omega) h2 h3 h60

/-- How the scan ends: outside the storage, with a name, or without one. -/
theorem nameScan_cases (htop : top ≤ storage.length) (n stop : Nat) (hn : n ≤ top)
    (h : Scanned storage top n stop) :
    (nameScan storage n stop = .error .outOfBounds ∧ 0 < top ∧ top = storage.length ∧
        storage.getD (top - 1) 0 = 62) ∨
      (∃ stop' b, nameScan storage n stop = .ok (stop', some b) ∧ 0 < stop' ∧ b < top ∧
        storage.getD b 0 = 60 ∧ Scanned storage top (b + 1) stop') ∨
      (∃ stop', nameScan storage n stop = .ok (stop', none) ∧ Scanned storage top 0 stop') := by
  induction n generalizing stop with
  | zero =>
      right
      right
      exact ⟨stop, rfl, h⟩
  | succ n ih =>
      have hlt : n < storage.length := by omega
      have h62' : (storage.getD n 0).toNat = 62 ↔ storage.getD n 0 = 62 :=
        UInt8.toNat_inj (b := 62)
      have h60' : (storage.getD n 0).toNat = 60 ↔ storage.getD n 0 = 60 :=
        UInt8.toNat_inj (b := 60)
      unfold nameScan
      rw [byteAt_ok hlt, ok_bind]
      by_cases h62 : storage.getD n 0 = 62
      · rw [if_pos (h62'.mpr h62)]
        by_cases hedge : n + 1 < storage.length
        · rw [byteAt_ok hedge, ok_bind]
          by_cases hzero : storage.getD (n + 1) 0 = 0
          · rw [if_pos (by rw [hzero]; rfl)]
            exact ih n (by omega) (h.found (by omega) ⟨h62, hzero⟩)
          · have hzero' : ¬ (storage.getD (n + 1) 0).toNat = 0 :=
              fun h0 => hzero ((UInt8.toNat_inj (b := 0)).mp h0)
            rw [if_neg hzero']
            apply ih stop (by omega)
            refine h.down (fun hend => hzero hend.2) fun h60 => ?_
            rw [h62] at h60
            cases h60
        · left
          have htop' : top = n + 1 := by omega
          refine ⟨?_, by omega, by omega, ?_⟩
          · unfold byteAt access
            rw [if_neg hedge]
            rfl
          · rw [htop']
            exact h62
      · rw [if_neg (fun h' => h62 (h62'.mp h'))]
        by_cases h60 : storage.getD n 0 = 60
        · by_cases hstop : stop > 0
          · right
            left
            exact ⟨stop, n, if_pos ⟨hstop, h60'.mpr h60⟩, hstop, by omega, h60, h⟩
          · rw [if_neg (fun h' => hstop h'.1)]
            apply ih stop (by omega)
            exact h.down (fun hend => h62 hend.1) fun _ => by omega
        · rw [if_neg (fun h' => h60 (h60'.mp h'.2))]
          apply ih stop (by omega)
          exact h.down (fun hend => h62 hend.1) fun h' => absurd h' h60

/-- A full buffer with a `'>'` at its end is read behind its end. -/
theorem nameScan_edge (h0 : 0 < top) (htop : top = storage.length)
    (hlast : storage.getD (top - 1) 0 = 62) : nameScan storage top 0 = .error .outOfBounds := by
  cases top with
  | zero => omega
  | succ n =>
      have hlast : storage.getD n 0 = 62 := hlast
      unfold nameScan
      rw [byteAt_ok (by omega), ok_bind, hlast]
      have hedge : ¬ n + 1 < storage.length := by omega
      unfold byteAt access
      rw [if_neg hedge]
      rfl

end

/-! ## A name at the front of the buffer -/

/-- The bytes that have been received. -/
def SIABuffer.content (buf : SIABuffer) : List UInt8 := buf.storage.take buf.length

/-- `'<' name '>' NUL`, and what is behind it. -/
def frameOf (name rest : List UInt8) : List UInt8 := 60 :: (name ++ 62 :: 0 :: rest)

/-- `Receive(dst, -1, 2)` gives the name and leaves the rest. -/
def YieldsName (codec : Codec) (r : Reception) (name rest : List UInt8) : Prop :=
  ∃ x, r.receive codec.saedu (-1) 2 = .ok x ∧ x.ret = 1 ∧ x.dst = name ∧
    (x.receiver.rc 1).length = rest.length ∧ (x.receiver.rc 1).content = rest

/-- `Receive(dst, -1, 2)` leaves the buffer as it is. -/
def LeavesAlone (codec : Codec) (r : Reception) : Prop :=
  ∃ x, r.receive codec.saedu (-1) 2 = .ok x ∧ x.receiver.rc 1 = r.rc 1

/-- The backward scan finds this name: no byte is read behind the storage, nothing behind the first
byte looks like the beginning of a name with an end, and the name has no end inside. -/
structure NameFound (buf : SIABuffer) (name : List UInt8) : Prop where
  lookAhead : buf.length = buf.storage.length → buf.storage.getD (buf.length - 1) 0 ≠ 62
  noOpening : ∀ b i, 1 ≤ b → b < i → i < buf.length → buf.storage.getD b 0 = 60 →
    ¬ EndsAt buf.storage i
  noEnd : ∀ i, 1 ≤ i → i ≤ name.length → ¬ EndsAt buf.storage i

section

variable {codec : Codec} {r : Reception} {buf : SIABuffer} {size : Nat} {name rest : List UInt8}

theorem receive_name (r : Reception) : r.receive codec.saedu (-1) 2 = r.receiveName codec.saedu := rfl

/-- The bytes of a frame in the storage. -/
theorem content_getD (h : buf.content = name) {i : Nat} (hi : i < name.length) :
    buf.storage.getD i 0 = name.getD i 0 := by
  subst h
  unfold SIABuffer.content at hi ⊢
  rw [List.length_take] at hi
  have hi' : i < buf.length := by omega
  simp [List.getD_eq_getElem?_getD, hi']

theorem content_length (h : buf.Sound size) : buf.content.length = buf.length := by
  have hle := h.length
  have hstorage := h.storage
  rw [SIABuffer.content, List.length_take]
  omega

theorem frameOf_length (name rest : List UInt8) :
    (frameOf name rest).length = name.length + 3 + rest.length := by
  simp [frameOf]
  omega

/-- The bytes that make a frame. -/
theorem frame_bytes (h : buf.content = frameOf name rest) :
    buf.storage.getD 0 0 = 60 ∧ EndsAt buf.storage (name.length + 1) := by
  have hlen := frameOf_length name rest
  refine ⟨?_, ?_, ?_⟩
  · rw [content_getD h (by omega)]
    rfl
  · rw [content_getD h (by omega)]
    simp [frameOf]
  · rw [content_getD h (by omega)]
    simp [frameOf]

/-- The rest of a buffer. -/
theorem dropFront_ok (h : buf.Sound size) (hsize : size < 4294967296) {n : Nat} (hn : n ≤ buf.length) :
    ∃ buf', buf.dropFront n size = .ok buf' ∧ buf'.length = buf.length - n ∧
      buf'.content = buf.content.drop n := by
  have hle := h.length
  have hstorage := h.storage
  have hlength : uint32 ((buf.length : Int) - n) = buf.length - n := by
    have hnat := uint32_natCast (n := buf.length - n) (by omega)
    rw [← hnat]
    congr 1
    omega
  have hswap : ((buf.storage.drop n).take (buf.length - n)).length = buf.length - n := by
    rw [List.length_take, List.length_drop]
    omega
  have hread : n + (buf.length - n) ≤ buf.storage.length := by omega
  have hwrite : 0 + ((buf.storage.drop n).take (buf.length - n)).length ≤ buf.storage.length := by
    rw [hswap]
    omega
  refine ⟨⟨buf.storage.take 0 ++ (buf.storage.drop n).take (buf.length - n) ++
    buf.storage.drop (0 + ((buf.storage.drop n).take (buf.length - n)).length),
    buf.length - n, buf.length - n⟩, ?_, rfl, ?_⟩
  · unfold SIABuffer.dropFront
    dsimp only
    rw [hlength]
    unfold bytesAt writeAt access
    rw [if_pos (.inr hread), ok_bind, if_pos (by omega), ok_bind, if_pos (.inr hwrite), ok_bind]
    rfl
  · simp only [SIABuffer.content, List.take_zero, List.nil_append]
    rw [List.take_left' hswap, List.drop_take]

/-- A length below zero makes the copy leave the storage. -/
theorem dropFront_below (h : buf.Sound size) (hsize : size < 4294967295) {n : Nat}
    (hn : n = buf.length + 1) (room : Nat) : buf.dropFront n room = .error .outOfBounds := by
  have hle := h.length
  have hstorage := h.storage
  have hlength : uint32 ((buf.length : Int) - n) = 4294967295 := by
    rw [hn]
    have hminus : (buf.length : Int) - (buf.length + 1 : Nat) = -1 := by omega
    rw [hminus]
    decide +kernel
  unfold SIABuffer.dropFront
  dsimp only
  rw [hlength]
  unfold bytesAt access
  rw [if_neg (by omega)]
  rfl

/-- What `Receive` makes of a scan that has found a name. -/
theorem receiveName_found (h : (r.rc 1).Sound (siadu codec.saedu)) {stop b : Nat}
    (hscan : nameScan (r.rc 1).storage (r.rc 1).length 0 = .ok (stop, some b)) (hb : b < stop)
    (hstop : stop < (r.rc 1).length) :
    (stop + 1 = (r.rc 1).length ∧ r.receiveName codec.saedu = .error .outOfBounds) ∨
      (stop + 2 ≤ (r.rc 1).length ∧ ∃ x, r.receiveName codec.saedu = .ok x ∧ x.ret = 1 ∧
        x.dst = ((r.rc 1).storage.drop (b + 1)).take (stop - b - 1) ∧
        (x.receiver.rc 1).length = (r.rc 1).length - (stop + 2) ∧
        (x.receiver.rc 1).content = (r.rc 1).content.drop (stop + 2)) := by
  have hsize := siadu_bounds codec
  have hle := h.length
  have hstorage := h.storage
  have hread : b + 1 + (stop - b - 1) ≤ (r.rc 1).storage.length := by omega
  have hcall : r.receiveName codec.saedu = (do
      let buf ← (r.rc 1).dropFront (stop + 2) (siadu codec.saedu)
      return ⟨{ r with rc := Function.update r.rc 1 buf }, 1,
        ((r.rc 1).storage.drop (b + 1)).take (stop - b - 1)⟩) := by
    unfold Reception.receiveName
    dsimp only
    rw [hscan, ok_bind]
    dsimp only
    unfold bytesAt access
    rw [if_pos (.inr hread), ok_bind]
  by_cases hroom : stop + 2 ≤ (r.rc 1).length
  · right
    rcases dropFront_ok h (by omega) hroom with ⟨buf', hdrop, hlength, hcontent⟩
    refine ⟨hroom, ⟨{ r with rc := Function.update r.rc 1 buf' }, 1,
      ((r.rc 1).storage.drop (b + 1)).take (stop - b - 1)⟩, ?_, rfl, rfl, ?_, ?_⟩
    · rw [hcall, hdrop, ok_bind]
      rfl
    · simpa using hlength
    · simpa using hcontent
  · left
    refine ⟨by omega, ?_⟩
    rw [hcall, dropFront_below h (by omega) (by omega)]
    rfl

/-- The scan of a buffer that begins with a frame finds a name, unless it leaves the storage. -/
theorem nameScan_frame (h : (r.rc 1).Sound size) (hcontent : (r.rc 1).content = frameOf name rest) :
    ((r.rc 1).length = (r.rc 1).storage.length ∧
        (r.rc 1).storage.getD ((r.rc 1).length - 1) 0 = 62 ∧
        nameScan (r.rc 1).storage (r.rc 1).length 0 = .error .outOfBounds) ∨
      ∃ stop b, nameScan (r.rc 1).storage (r.rc 1).length 0 = .ok (stop, some b) ∧ b < stop ∧
        stop < (r.rc 1).length ∧ (r.rc 1).storage.getD b 0 = 60 ∧
        EndsAt (r.rc 1).storage stop ∧
        (∀ i, b < i → i < stop → ¬ EndsAt (r.rc 1).storage i) ∧
        ∀ b' i, b < b' → b' < i → i < (r.rc 1).length → (r.rc 1).storage.getD b' 0 = 60 →
          ¬ EndsAt (r.rc 1).storage i := by
  have htop : (r.rc 1).length ≤ (r.rc 1).storage.length := by
    rw [h.storage]
    exact h.length
  have hlength : (r.rc 1).length = name.length + 3 + rest.length := by
    rw [← content_length h, hcontent, frameOf_length]
  rcases frame_bytes hcontent with ⟨hopen, hend⟩
  rcases nameScan_cases htop _ 0 (Nat.le_refl _) (scanned_top _ _) with
    ⟨hscan, -, hfull, hlast⟩ | ⟨stop, b, hscan, hpos, hb, h60, hscanned⟩ | ⟨stop, -, hscanned⟩
  · exact .inl ⟨hfull, hlast, hscan⟩
  · right
    rcases hscanned.first with ⟨hzero, -⟩ | ⟨hle, hlt, hstop, hnone⟩
    · omega
    · exact ⟨stop, b, hscan, hle, hlt, h60, hstop, fun i h1 h2 => hnone i h1 h2,
        fun b' i h1 h2 h3 h4 => hscanned.opens b' i h1 h2 h3 h4⟩
  · exact absurd hend (hscanned.opens 0 _ (Nat.le_refl 0) (by omega) (by omega) hopen)

/-- The parts of a frame in the storage. -/
theorem frame_parts (h : buf.Sound size) (hcontent : buf.content = frameOf name rest) :
    (buf.storage.drop 1).take name.length = name ∧ buf.content.drop (name.length + 3) = rest := by
  have hlength : buf.length = name.length + 3 + rest.length := by
    rw [← content_length h, hcontent, frameOf_length]
  constructor
  · calc (buf.storage.drop 1).take name.length = (buf.content.drop 1).take name.length := by
          rw [SIABuffer.content, List.drop_take, List.take_take, Nat.min_eq_left (by omega)]
      _ = name := by
          rw [hcontent]
          simp [frameOf]
  · rw [hcontent]
    calc (frameOf name rest).drop (name.length + 3)
        = ((60 :: name ++ [62, 0]) ++ rest).drop (name.length + 3) := by simp [frameOf]
      _ = rest := List.drop_left' (by simp)

/-- The name of a frame is found if and only if the scan is not misled. -/
theorem yieldsName_iff (h : (r.rc 1).Sound (siadu codec.saedu))
    (hcontent : (r.rc 1).content = frameOf name rest) :
    YieldsName codec r name rest ↔ NameFound (r.rc 1) name := by
  have hlength : (r.rc 1).length = name.length + 3 + rest.length := by
    rw [← content_length h, hcontent, frameOf_length]
  have hle := h.length
  have hstorage := h.storage
  rcases frame_bytes hcontent with ⟨hopen, hend⟩
  rcases frame_parts h hcontent with ⟨hname, hrest⟩
  constructor
  · rintro ⟨x, hx, -, hdst, hlen, -⟩
    rw [receive_name] at hx
    rcases nameScan_frame h hcontent with ⟨-, -, hscan⟩ |
      ⟨stop, b, hscan, hb, hstop, -, hends, hnone, hopens⟩
    · unfold Reception.receiveName at hx
      dsimp only at hx
      rw [hscan] at hx
      cases hx
    rcases receiveName_found h hscan hb hstop with ⟨-, hfault⟩ |
      ⟨hroom, x', hx', -, hdst', hlen', -⟩
    · rw [hx] at hfault
      cases hfault
    rw [hx] at hx'
    cases hx'
    -- the lengths say which brackets have been found
    have hnames : stop - b - 1 = name.length := by
      rw [← hdst, hdst', List.length_take, List.length_drop]
      omega
    have hb0 : b = 0 := by omega
    subst hb0
    have hstop' : stop = name.length + 1 := by omega
    subst hstop'
    refine ⟨fun hfull hlast => ?_, fun b i h1 h2 h3 h4 => hopens b i h1 h2 h3 h4,
      fun i h1 h2 => hnone i h1 (by omega)⟩
    rw [nameScan_edge (by omega) hfull hlast] at hscan
    cases hscan
  · intro hfound
    rcases nameScan_frame h hcontent with ⟨hfull, hlast, -⟩ |
      ⟨stop, b, hscan, hb, hstop, h60, hends, hnone, hopens⟩
    · exact absurd hlast (hfound.lookAhead hfull)
    have hb0 : b = 0 := by
      by_contra hne
      exact hfound.noOpening b stop (by omega) hb hstop h60 hends
    subst hb0
    have hstop' : stop = name.length + 1 := by
      by_contra hne
      by_cases hlt : stop ≤ name.length
      · exact hfound.noEnd stop (by omega) hlt hends
      · exact hnone (name.length + 1) (by omega) (by omega) hend
    subst hstop'
    rcases receiveName_found h hscan hb hstop with ⟨hedge, -⟩ |
      ⟨hroom, x, hx, hret, hdst, hlen, hleft⟩
    · omega
    refine ⟨x, hx, hret, ?_, ?_, ?_⟩
    · rw [hdst]
      simpa using hname
    · rw [hlen]
      omega
    · rw [hleft]
      exact hrest

/-- A buffer without a name, but with something else, is emptied. -/
theorem receiveName_none {stop : Nat}
    (hscan : nameScan (r.rc 1).storage (r.rc 1).length 0 = .ok (stop, none)) (hstop : stop = 0)
    (hlength : 0 < (r.rc 1).length) :
    ∃ x, r.receiveName codec.saedu = .ok x ∧ (x.receiver.rc 1).length = 0 := by
  refine ⟨⟨{ r with rc := Function.update r.rc 1 (.cleared (siadu codec.saedu)) }, 1234, []⟩, ?_, ?_⟩
  · unfold Reception.receiveName
    dsimp only
    rw [hscan, ok_bind]
    dsimp only
    rw [if_pos ⟨hstop, hlength⟩]
    rfl
  · simp [SIABuffer.cleared]

/-- An empty buffer is left alone. -/
theorem receiveName_empty (hlength : (r.rc 1).length = 0) :
    r.receiveName codec.saedu = .ok ⟨r, 0, []⟩ := by
  have hsize := siadu_bounds codec
  have hminus : uint32 (-1) = 4294967295 := by decide +kernel
  unfold Reception.receiveName
  dsimp only
  rw [hlength]
  simp only [nameScan, ok_bind]
  rw [if_neg (by omega)]
  unfold Reception.receiveData
  dsimp only
  rw [hminus, hlength, if_neg (by omega)]

/-- What is not yet a frame is thrown away. -/
theorem leavesAlone_iff (h : (r.rc 1).Sound (siadu codec.saedu))
    (hbegins : (r.rc 1).content <+: frameOf name []) :
    LeavesAlone codec r ↔ (r.rc 1).content = [] := by
  have hlength := content_length h
  constructor
  · rintro ⟨x, hx, hsame⟩
    rw [receive_name] at hx
    by_contra hne
    have hpos : 0 < (r.rc 1).length := by
      rw [← hlength]
      exact List.length_pos_iff.mpr hne
    -- the first byte is the opening bracket
    have hopen : (r.rc 1).storage.getD 0 0 = 60 := by
      rw [content_getD rfl (by omega)]
      rcases hbegins with ⟨more, hmore⟩
      cases hcontent : (r.rc 1).content with
      | nil => exact absurd hcontent hne
      | cons c l =>
          rw [hcontent] at hmore
          exact (List.cons.inj hmore).1
    have htop : (r.rc 1).length ≤ (r.rc 1).storage.length := by
      rw [h.storage]
      exact h.length
    rcases nameScan_cases htop _ 0 (Nat.le_refl _) (scanned_top _ _) with
      ⟨hscan, -, -, -⟩ | ⟨stop, b, hscan, hstop, -, -, hscanned⟩ | ⟨stop, hscan, hscanned⟩
    · unfold Reception.receiveName at hx
      dsimp only at hx
      rw [hscan] at hx
      cases hx
    · rcases hscanned.first with ⟨hzero, -⟩ | ⟨hle, hlt, -, -⟩
      · omega
      rcases receiveName_found h hscan hle hlt with ⟨-, hfault⟩ | ⟨hroom, x', hx', -, -, hlen, -⟩
      · rw [hx] at hfault
        cases hfault
      · rw [hx] at hx'
        cases hx'
        rw [hsame] at hlen
        omega
    · have hstop : stop = 0 := by
        rcases hscanned.first with ⟨hzero, -⟩ | ⟨-, hlt, hend, -⟩
        · exact hzero
        · by_contra hne'
          exact hscanned.opens 0 stop (Nat.le_refl 0) (by omega) hlt hopen hend
      rcases receiveName_none hscan hstop hpos with ⟨x', hx', hlen⟩
      rw [hx] at hx'
      cases hx'
      rw [hsame] at hlen
      omega
  · intro hempty
    rw [hempty, List.length_nil] at hlength
    exact ⟨_, receiveName_empty hlength.symm, rfl⟩

/-- **The framing of a file name.** The name at the front of the buffer is what `Receive` gives, and
the bytes behind it are what it leaves, if and only if the scan is not misled; of what is not yet a
frame it leaves alone nothing but the empty buffer. -/
theorem receiveName_iff (h : (r.rc 1).Sound (siadu codec.saedu)) :
    (∀ name rest, (r.rc 1).content = frameOf name rest →
      (YieldsName codec r name rest ↔ NameFound (r.rc 1) name)) ∧
    (∀ name, (r.rc 1).content <+: frameOf name [] → (r.rc 1).content ≠ frameOf name [] →
      (LeavesAlone codec r ↔ (r.rc 1).content = [])) :=
  ⟨fun _ _ hcontent => yieldsName_iff h hcontent, fun _ hbegins _ => leavesAlone_iff h hbegins⟩

/-- A receiver with these bytes in its file buffer. -/
def receiverOf (codec : Codec) (bytes : List UInt8) : Reception :=
  { Reception.create codec.saedu with
    rc := fun _ => ⟨bytes ++ List.replicate (siadu codec.saedu - bytes.length) 0, bytes.length,
      bytes.length⟩ }

theorem receiverOf_sound {codec : Codec} {bytes : List UInt8}
    (h : bytes.length ≤ siadu codec.saedu) :
    ((receiverOf codec bytes).rc 1).Sound (siadu codec.saedu) := by
  refine ⟨?_, rfl, h⟩
  simp [receiverOf]
  omega

/-- The name `a`, and a byte behind it. -/
theorem receiveName_letter : YieldsName .ilbc20 (receiverOf .ilbc20 [60, 97, 62, 0, 7]) [97] [7] := by
  have hsound := @receiverOf_sound .ilbc20 [60, 97, 62, 0, 7] (by decide)
  apply ((receiveName_iff hsound).1 [97] [7] (by decide +kernel)).mpr
  refine ⟨?_, ?_, ?_⟩
  · intro hfull
    exact absurd hfull (by decide +kernel)
  · intro b i h1 h2 h3 h60
    have hall : ∀ b < 5, 1 ≤ b →
        ((receiverOf .ilbc20 [60, 97, 62, 0, 7]).rc 1).storage.getD b 0 ≠ 60 := by decide +kernel
    exact absurd h60 (hall b (Nat.lt_trans h2 h3) h1)
  · intro i h1 h2
    have h2 : i ≤ 1 := h2
    have hi : i = 1 := by omega
    rw [hi]
    decide

/-- The file data behind the name `a` has another name in it; of `<a` the rest has not arrived. -/
theorem receiveName_misled :
    ((receiverOf .ilbc20 (frameOf [97] (frameOf [98] []))).rc 1).content =
        frameOf [97] (frameOf [98] []) ∧
      ¬ YieldsName .ilbc20 (receiverOf .ilbc20 (frameOf [97] (frameOf [98] []))) [97]
        (frameOf [98] []) ∧
      ((receiverOf .ilbc20 [60, 97]).rc 1).content = [60, 97] ∧
      ¬ LeavesAlone .ilbc20 (receiverOf .ilbc20 [60, 97]) := by
  have hframe : ((receiverOf .ilbc20 (frameOf [97] (frameOf [98] []))).rc 1).content =
      frameOf [97] (frameOf [98] []) := by decide
  have hstart : ((receiverOf .ilbc20 [60, 97]).rc 1).content = [60, 97] := by decide
  refine ⟨hframe, ?_, hstart, ?_⟩
  · rw [yieldsName_iff (receiverOf_sound (by decide)) hframe]
    intro hfound
    exact hfound.noOpening 4 6 (by decide) (by decide) (by decide) (by decide)
      (by decide)
  · rw [leavesAlone_iff (receiverOf_sound (by decide)) (by rw [hstart]; exact ⟨[62, 0], rfl⟩)]
    rw [hstart]
    decide

end

end Steg
