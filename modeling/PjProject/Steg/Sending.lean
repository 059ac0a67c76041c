import PjProject.Library.Run
import PjProject.Steg.Link

set_option autoImplicit false

/-! # What a side sends

One side alone: `Send` fills the buffers, `Embedding` takes frames from them, and any frame may be
retrieved in between. `Send` starts a buffer anew whether or not it has been emptied, so the bytes
that are left in it are lost; the thread that sends a file waits until its buffer is empty
(`bFileSent`), the callers that send messages do not.

`side_run_no_loss`: as long as `Send` is only called for an empty buffer, what has been taken of a
type is a prefix of what has been accepted for it. `send_twice` is a run in which it is not.
-/

namespace Steg

open Machine

/-- What happens at one side of a call. -/
inductive SideAction where
  | send (src : List UInt8) (type : Nat)
  | embedding
  | retriving (f : Frame)
  deriving DecidableEq

/-- One step of a side. -/
def sideStep (codec : Codec) (s : Suit) : SideAction → Except Empty Suit
  | .send src type => .ok (send codec.saedu s src type)
  | .embedding => .ok (embedding codec.saedu s).1
  | .retriving f => .ok (retriving codec.saedu s f)

/-- `Send` returns 1. -/
def accepts (codec : Codec) (src : List UInt8) (type : Nat) : Bool :=
  src.length ≤ siadu codec.saedu && (type == 1 || type == 2)

/-- The bytes that `Send` accepts for the type `t` in one step. -/
def acceptedBy (codec : Codec) (t : Nat) : SideAction → List UInt8
  | .send src type => if accepts codec src type && type == t then src else []
  | _ => []

/-- The payloads that `Send` accepts for the type `t` in a run, in the order of the calls. -/
def accepted (codec : Codec) (t : Nat) (l : List SideAction) : List UInt8 :=
  l.flatMap (acceptedBy codec t)

/-- The bytes of a frame if it is of the type `t`. -/
def payloadOf (t : Nat) (x : Nat × List UInt8) : List UInt8 := if x.1 = t then x.2 else []

/-- The bytes that have been taken into new frames of the type `t`. -/
def takenBytes (s : Suit) (t : Nat) : List UInt8 := s.taken.flatMap (payloadOf t)

/-- `Send` is only called for a buffer that has been emptied. -/
def sendsWhenEmpty (s : Suit) : SideAction → Bool
  | .send _ type => s.sd (type - 1) == []
  | _ => true

/-! ## What one step leaves of the buffers -/

/-- What is taken of a type together with what is left in its buffer. -/
def total (s : Suit) (t : Nat) : List UInt8 := takenBytes s t ++ s.sd (t - 1)

/-- The buffers and the record of the frames taken are as before. -/
structure SameBuffers (s s' : Suit) : Prop where
  sd : s'.sd = s.sd
  taken : s'.taken = s.taken

theorem SameBuffers.trans {s s' s'' : Suit} (h : SameBuffers s s') (h' : SameBuffers s' s'') :
    SameBuffers s s'' :=
  ⟨h'.sd.trans h.sd, h'.taken.trans h.taken⟩

theorem SameBuffers.total {s s' : Suit} (h : SameBuffers s s') (t : Nat) :
    total s' t = total s t := by
  unfold Steg.total takenBytes
  rw [h.sd, h.taken]

theorem sameBuffers_retransmission (s : Suit) : SameBuffers s (retransmission s) := by
  unfold retransmission requeue
  dsimp only
  split <;> exact ⟨rfl, rfl⟩

/-- `Retriving` concerns the other direction of the call. -/
theorem sameBuffers_retriving (saedu : Nat) (s : Suit) (f : Frame) :
    SameBuffers s (retriving saedu s f) := by
  have hloop : ∀ (fuel : Nat) (s : Suit), SameBuffers s (commitLoop saedu fuel s) := by
    intro fuel
    induction fuel with
    | zero => exact fun s => ⟨rfl, rfl⟩
    | succ fuel ih =>
        intro s
        rw [commitLoop]
        dsimp only
        split
        · refine SameBuffers.trans ?_ (ih _)
          split <;> exact ⟨rfl, rfl⟩
        · exact ⟨rfl, rfl⟩
  have haccept : ∀ s', accept s f = some s' → SameBuffers s s' := by
    intro s' h
    unfold accept at h
    -- Each branch that returns a state changes the cache or the acknowledgement only.
    split at h
    · cases h; exact ⟨rfl, rfl⟩
    · split at h
      · cases h; exact ⟨rfl, rfl⟩
      · split at h
        · cases h
        · split at h
          · cases h; exact ⟨rfl, rfl⟩
          · cases h; exact ⟨rfl, rfl⟩
  unfold retriving stmr
  split
  · exact ⟨rfl, rfl⟩
  · cases h : accept s f with
    | none => exact ⟨rfl, rfl⟩
    | some s' => exact (haccept s' h).trans (hloop 8 s')

/-- Taking data from the front of a buffer moves it to what has been taken. -/
theorem total_takeData (s : Suit) (i n t : Nat) (ht : 1 ≤ t) :
    total (takeData s i ((s.sd i).take n)) t = total s t := by
  unfold total takenBytes takeData
  dsimp only
  rw [List.flatMap_append, List.flatMap_singleton]
  by_cases hi : i + 1 = t
  · have hi' : t - 1 = i := by omega
    rw [hi', Function.update_self]
    simp only [payloadOf, if_pos hi]
    rw [List.append_assoc, List.length_take,
      show (s.sd i).drop (min n (s.sd i).length) = (s.sd i).drop n from ?_, List.take_append_drop]
    by_cases hn : n ≤ (s.sd i).length
    · rw [min_eq_left hn]
    · rw [min_eq_right (by omega), List.drop_length, List.drop_eq_nil_of_le (by omega)]
  · have hi' : t - 1 ≠ i := by omega
    rw [Function.update_of_ne hi']
    simp only [payloadOf, if_neg hi, List.append_nil]

theorem total_embedNew (saedu : Nat) (s : Suit) (t : Nat) (ht : 1 ≤ t) :
    total (embedNew saedu s).1 t = total s t := by
  unfold embedNew
  dsimp only
  split
  · rfl
  · cases source { s with retranstep := 0 } with
    | none => rfl
    | some i => exact total_takeData { s with retranstep := 0 } i saedu t ht

/-- `Embedding` moves bytes from the buffers to the frames. -/
theorem total_embedding (saedu : Nat) (s : Suit) (t : Nat) (ht : 1 ≤ t) :
    total (embedding saedu s).1 t = total s t := by
  rw [← (sameBuffers_retransmission s).total t]
  unfold embedding
  dsimp only
  split
  · exact total_embedNew saedu _ t ht
  · split
    · split <;> rfl
    · exact total_embedNew saedu _ t ht

theorem accepts_iff (codec : Codec) (src : List UInt8) (type : Nat) :
    accepts codec src type = true ↔
      ¬ (src.length > siadu codec.saedu ∨ (type ≠ 1 ∧ type ≠ 2)) := by
  simp only [accepts, Bool.and_eq_true, Bool.or_eq_true, beq_iff_eq, decide_eq_true_eq]
  omega

/-- `Send` for an empty buffer adds what it accepts. -/
theorem total_send (codec : Codec) (s : Suit) (src : List UInt8) (type t : Nat) (ht : 1 ≤ t)
    (hempty : s.sd (type - 1) = []) :
    total (send codec.saedu s src type) t = total s t ++ acceptedBy codec t (.send src type) := by
  unfold send
  rw [acceptedBy]
  cases hacc : accepts codec src type with
  | false =>
      have hno : src.length > siadu codec.saedu ∨ (type ≠ 1 ∧ type ≠ 2) := by
        by_contra hnot
        rw [(accepts_iff codec src type).mpr hnot] at hacc
        cases hacc
      rw [if_pos hno]
      exact (List.append_nil _).symm
  | true =>
      rw [if_neg ((accepts_iff codec src type).mp hacc), Bool.true_and]
      unfold total takenBytes
      dsimp only
      by_cases htype : type = t
      · subst htype
        rw [Function.update_self, hempty, List.append_nil, if_pos (beq_self_eq_true _)]
      · have hrange := (accepts_iff codec src type).mp hacc
        have hne : t - 1 ≠ type - 1 := by omega
        rw [Function.update_of_ne hne, if_neg (by simpa using htype), List.append_nil]

/-! ## Runs -/

/-- The step lemma: what is accepted is all that is added. -/
theorem total_sideStep {codec : Codec} {s s' : Suit} {x : SideAction} (t : Nat) (ht : 1 ≤ t)
    (hx : sendsWhenEmpty s x = true) (h : sideStep codec s x = .ok s') :
    total s' t = total s t ++ acceptedBy codec t x := by
  cases x with
  | send src type =>
      cases h
      exact total_send codec s src type t ht (by simpa [sendsWhenEmpty] using hx)
  | embedding =>
      cases h
      rw [total_embedding codec.saedu s t ht]
      exact (List.append_nil _).symm
  | retriving f =>
      cases h
      rw [(sameBuffers_retriving codec.saedu s f).total t]
      exact (List.append_nil _).symm

/-- The run lemma: what has been taken and what is left are what has been accepted. -/
theorem total_run {codec : Codec} (t : Nat) (ht : 1 ≤ t) :
    ∀ (l : List SideAction) (s : Suit),
      Meets (sideStep codec) (fun s x => sendsWhenEmpty s x = true) s l →
      ∃ s', run (sideStep codec) s l = .ok s' ∧ total s' t = total s t ++ accepted codec t l := by
  intro l
  induction l with
  | nil => exact fun s _ => ⟨s, rfl, (List.append_nil _).symm⟩
  | cons x l ih =>
      intro s hm
      have hstep : ∃ s', sideStep codec s x = .ok s' := by
        cases x <;> exact ⟨_, rfl⟩
      rcases hstep with ⟨s1, hs1⟩
      rcases ih s1 (hm.2 s1 hs1) with ⟨s', hrun, htotal⟩
      refine ⟨s', by rw [run_cons_ok hs1]; exact hrun, ?_⟩
      rw [htotal, total_sideStep t ht hm.1 hs1, List.append_assoc]
      rfl

/-- **Nothing accepted is lost.** In every run of a side in which `Send` is only called for a buffer
that has been emptied, the bytes taken into new frames of either type are a prefix of the payloads
that `Send` has accepted for it. -/
theorem side_run_no_loss (codec : Codec) (l : List SideAction)
    (hl : Meets (sideStep codec) (fun s x => sendsWhenEmpty s x = true) create l) :
    ∃ s, run (sideStep codec) create l = .ok s ∧
      takenBytes s 1 <+: accepted codec 1 l ∧ takenBytes s 2 <+: accepted codec 2 l := by
  rcases total_run 1 le_rfl l create hl with ⟨s, hs, h1⟩
  rcases total_run 2 (by omega) l create hl with ⟨s', hs', h2⟩
  rw [hs] at hs'
  cases hs'
  -- The buffers and the record are empty at first.
  exact ⟨s, hs, ⟨s.sd 0, h1⟩, ⟨s.sd 1, h2⟩⟩

/-- Two messages and a part of a file, each sent when its buffer is empty. -/
def patientRun : List SideAction :=
  [.send [72, 105] 1, .send [1, 2, 3] 2, .embedding, .send [33] 1, .embedding, .embedding]

theorem side_run_no_loss_patient :
    ∃ s, run (sideStep .g711) create patientRun = .ok s ∧ takenBytes s 1 = [72, 105, 33] ∧
      takenBytes s 1 <+: accepted .g711 1 patientRun ∧
      takenBytes s 2 <+: accepted .g711 2 patientRun := by
  have h : checkRun (sideStep .g711) sendsWhenEmpty (fun s => takenBytes s 1 == [72, 105, 33])
      create patientRun = true := by
    decide +kernel
  rcases checkRun_sound _ _ _ _ _ h with ⟨hm, s, hs, hp⟩
  rcases side_run_no_loss .g711 patientRun hm with ⟨s', hs', h1, h2⟩
  rw [hs] at hs'
  cases hs'
  exact ⟨s, hs, by simpa using hp, h1, h2⟩

/-- A second message before the first one has been taken: the first one is lost. -/
theorem send_twice :
    ∃ s, run (sideStep .g711) create [.send [72] 1, .send [105] 1, .embedding] = .ok s ∧
      ¬ takenBytes s 1 <+: accepted .g711 1 [.send [72] 1, .send [105] 1, .embedding] := by
  have h : checkRun (sideStep .g711) (fun _ _ => true) (fun s =>
      !decide (takenBytes s 1 <+: accepted .g711 1 [.send [72] 1, .send [105] 1, .embedding]))
      create [.send [72] 1, .send [105] 1, .embedding] = true := by
    decide
  rcases checkRun_sound _ _ _ _ _ h with ⟨-, s, hs, hp⟩
  exact ⟨s, hs, by simpa using hp⟩

end Steg
