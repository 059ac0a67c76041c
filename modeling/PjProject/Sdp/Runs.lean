import PjProject.Library.Outcome
import PjProject.Library.Run
import PjProject.Sdp.Negotiator

set_option autoImplicit false

/-! # Runs of the negotiator

`Effect` says once what an operation that returns can have done, guards included; the invariants
of this file are read off it.

* `negotiator_run_safe`: in every run that uses `modify_local_offer2` and `send_local_offer` in
  `DONE` only with an active local description, no operation uses an absent description.
* `negotiator_run_fresh`: the versions of the descriptions that a negotiator hands out, in every
  run whose steps meet `versionAhead`.

Neither holds of all runs: `modify_after_cancel` and `modify_after_failure` are runs that break
them.
-/

namespace Sdp

open Machine Outcome

variable {cbs : List FmtMatchCb} {n : Neg} {a : Op} {r : Reply}

/-! ## What an operation can do -/

/-- The operations that `DONE` admits. -/
def AdmittedInDone : Op → Prop
  | .modifyLocalOffer2 _ loc => validate loc = .ok ()
  | .sendLocalOffer => True
  | .setRemoteOffer _ => True
  | _ => False

/-- In `DONE`, a local offer is only made when there is an active local description. -/
def hasActive (n : Neg) : Op → Bool
  | .modifyLocalOffer2 _ _ => n.state != .done || n.activeLocalSdp.isSome
  | .sendLocalOffer => n.state != .done || n.activeLocalSdp.isSome
  | _ => true

/-- What a call of `a` that returns `r` has done. -/
inductive Effect (cbs : List FmtMatchCb) (n : Neg) : Op → Reply → Prop where
  | refused {a : Op} (e : Status)
      (h : n.state = .done → hasActive n a → ¬ AdmittedInDone a) :
      Effect cbs n a (n.refuse e)
  | prefs {a : Op} (p : Prefs) (h : ¬ AdmittedInDone a) :
      Effect cbs n a ⟨none, { n with prefs := p }, none⟩
  | modified {flags : Nat} {loc old offer : Session} (hs : n.state = .done)
      (hold : n.activeLocalSdp = some old) (ho : newOffer flags loc old = .ok offer) :
      Effect cbs n (.modifyLocalOffer2 flags loc)
        ⟨none, { n with state := .localOffer, initialSdp := some offer,
                        negLocalSdp := some offer }, some offer⟩
  | sentActive {s : Session} (hs : n.state = .done) (h : n.activeLocalSdp = some s) :
      Effect cbs n .sendLocalOffer
        ⟨none, { n with state := .localOffer, negLocalSdp := some s, initialSdp := some s }, some s⟩
  | sentLocal {s : Session} (hs : n.state = .localOffer) (h : n.negLocalSdp = some s) :
      Effect cbs n .sendLocalOffer ⟨none, n, some s⟩
  | remoteAnswer {remote : Session} (hs : n.state = .localOffer) :
      Effect cbs n (.setRemoteAnswer remote)
        ⟨none, { n with state := .waitNego, hasRemoteAnswer := true,
                        negRemoteSdp := some remote }, none⟩
  | remoteOffer {remote : Session} (hs : n.state = .done) :
      Effect cbs n (.setRemoteOffer remote)
        ⟨none, { n with state := .remoteOffer, negRemoteSdp := some remote }, none⟩
  | localAnswer {loc : Option Session} (answer initial : Session) (hs : n.state = .remoteOffer)
      (hi : ∀ i, n.initialSdp = some i → initial = i) :
      Effect cbs n (.setLocalAnswer loc)
        ⟨none, { n with state := .waitNego, negLocalSdp := some answer,
                        initialSdp := some initial }, none⟩
  | cancelledLocal (hs : n.state = .localOffer) :
      Effect cbs n .cancelOffer
        ⟨none, { n with activeLocalSdp :=
                   n.activeLocalSdp.map fun (s : Session) =>
                     s.withVersion (nextVersion s) }.finish, none⟩
  | cancelledRemote (hs : n.state = .remoteOffer) :
      Effect cbs n .cancelOffer ⟨none, n.finish, none⟩
  | failed {allowAsym : Bool} (e : Status) (hs : n.state = .waitNego) :
      Effect cbs n (.negotiate allowAsym) ⟨some e, n.negotiated, none⟩
  | accepted {allowAsym : Bool} {loc active remote : Session} (hs : n.state = .waitNego)
      (hr : n.hasRemoteAnswer = true) (hl : n.negLocalSdp = some loc)
      (ho : active.origin = loc.origin) :
      Effect cbs n (.negotiate allowAsym)
        ⟨none, { n with activeLocalSdp := some active,
                        activeRemoteSdp := some remote }.negotiated, none⟩
  | answered {allowAsym : Bool} {answer previous remote : Session} (hs : n.state = .waitNego)
      (hr : n.hasRemoteAnswer = false) (hp : n.activeLocalSdp.or n.initialSdp = some previous) :
      Effect cbs n (.negotiate allowAsym)
        ⟨none, { n with activeLocalSdp := some (answer.withVersion (nextVersion previous)),
                        activeRemoteSdp := some remote }.negotiated,
          some (answer.withVersion (nextVersion previous))⟩

theorem inside_eq_ok {α : Type} {x : Except Fault α} {y : α} (h : inside x = .ok y) :
    x = .ok y := by
  cases x with
  | error e => cases h
  | ok z => cases h; rfl

theorem deref_eq_ok {s : Option Session} {t : Session} (h : deref s = .ok t) : s = some t := by
  cases s with
  | none => cases h
  | some u => cases h; rfl

/-- `process_answer` does not touch the `o=` line of the offer. -/
theorem processAnswer_origin {offer answer active remote : Session} {asym : Bool}
    (h : processAnswer cbs offer answer asym = .ok (.ok (active, remote))) :
    active.origin = offer.origin := by
  rcases Outcome.bind_eq_ok h with ⟨p, -, hp⟩
  cases p with
  | error e => cases hp
  | ok p =>
      by_cases hact : p.hasActive
      · simp only [hact, if_true] at hp
        cases hp
        rfl
      · simp only [hact] at hp
        cases hp

theorem modifyLocalOffer2_effect {flags : Nat} {loc : Session}
    (h : modifyLocalOffer2 n flags loc = .ok r) : Effect cbs n (.modifyLocalOffer2 flags loc) r := by
  unfold modifyLocalOffer2 at h
  by_cases hs : n.state = .done
  · rw [if_neg (not_not.mpr hs)] at h
    cases hv : validate loc with
    | error e =>
        rw [hv] at h
        cases h
        refine .refused e fun _ _ ha => ?_
        have ha : validate loc = .ok () := ha
        rw [hv] at ha
        cases ha
    | ok u =>
        rw [hv] at h
        rcases Outcome.bind_eq_ok h with ⟨old, hold, h⟩
        rcases Outcome.bind_eq_ok h with ⟨offer, hoffer, h⟩
        cases h
        exact .modified hs (deref_eq_ok hold) (inside_eq_ok hoffer)
  · rw [if_pos hs] at h
    cases h
    exact .refused _ fun hd => absurd hd hs

theorem sendLocalOffer_effect (h : sendLocalOffer n = .ok r) : Effect cbs n .sendLocalOffer r := by
  unfold sendLocalOffer at h
  cases hs : n.state with
  | done =>
      rw [hs] at h
      cases ha : n.activeLocalSdp with
      | none =>
          rw [ha] at h
          cases h
          refine .refused _ fun _ hact => ?_
          simp [hasActive, hs, ha] at hact
      | some s =>
          rw [ha] at h
          cases h
          have e : Effect cbs n .sendLocalOffer _ := .sentActive hs ha
          rw [ha] at e
          exact e
  | localOffer =>
      rw [hs] at h
      rcases Outcome.bind_eq_ok h with ⟨s, hl, h⟩
      cases h
      exact .sentLocal hs (deref_eq_ok hl)
  | remoteOffer =>
      rw [hs] at h
      cases h
      exact .refused _ fun hd => by rw [hs] at hd; cases hd
  | waitNego =>
      rw [hs] at h
      cases h
      exact .refused _ fun hd => by rw [hs] at hd; cases hd

theorem setLocalAnswer_effect {loc : Option Session} (h : setLocalAnswer n loc = .ok r) :
    Effect cbs n (.setLocalAnswer loc) r := by
  cases loc with
  | none =>
      cases h
      exact .refused _ fun _ _ ha => ha
  | some loc =>
      unfold setLocalAnswer at h
      by_cases hs : n.state = .remoteOffer
      · simp only [hs, ne_eq, not_true_eq_false, if_false] at h
        cases hi : n.initialSdp with
        | none =>
            simp only [hi] at h
            cases h
            exact .localAnswer loc loc hs fun i hi' => by rw [hi] at hi'; cases hi'
        | some i =>
            simp only [hi] at h
            cases h
            exact .localAnswer _ i hs fun i' hi' => by rw [hi] at hi'; cases hi'; rfl
      · simp only [ne_eq, hs, not_false_eq_true, if_true] at h
        cases h
        exact .refused _ fun _ _ ha => ha

theorem cancelOffer_effect (h : cancelOffer n = .ok r) : Effect cbs n .cancelOffer r := by
  unfold cancelOffer at h
  by_cases hl : n.state = .localOffer
  · simp only [hl, ne_eq, not_true_eq_false, false_and, if_false, if_true] at h
    cases h
    exact .cancelledLocal hl
  · by_cases hr : n.state = .remoteOffer
    · simp only [hr, ne_eq, not_true_eq_false, and_false, if_false, reduceCtorEq] at h
      cases h
      exact .cancelledRemote hr
    · rw [if_pos ⟨hl, hr⟩] at h
      cases h
      exact .refused _ fun _ _ ha => ha

theorem negotiate_effect {asym : Bool} (h : negotiate cbs n asym = .ok r) :
    Effect cbs n (.negotiate asym) r := by
  unfold negotiate at h
  by_cases hs : n.state = .waitNego
  · rw [if_neg (not_not.mpr hs)] at h
    cases hrem : n.negRemoteSdp with
    | none =>
        rw [hrem] at h
        cases h
        exact .refused _ fun _ _ ha => ha
    | some remote =>
        rw [hrem] at h
        cases hr : n.hasRemoteAnswer with
        | true =>
            simp only [hr, if_true] at h
            rcases Outcome.bind_eq_ok h with ⟨loc, hl, h⟩
            rcases Outcome.bind_eq_ok h with ⟨p, hp, h⟩
            cases p with
            | error e => cases h; exact .failed e hs
            | ok p =>
                cases h
                exact .accepted hs hr (deref_eq_ok hl) (processAnswer_origin (inside_eq_ok hp))
        | false =>
            simp only [hr, Bool.false_eq_true, if_false] at h
            rcases Outcome.bind_eq_ok h with ⟨loc, hl, h⟩
            rcases Outcome.bind_eq_ok h with ⟨p, hp, h⟩
            cases p with
            | error e => cases h; exact .failed e hs
            | ok answer =>
                rcases Outcome.bind_eq_ok h with ⟨previous, hprev, h⟩
                cases h
                exact .answered hs hr (deref_eq_ok hprev)
  · rw [if_pos hs] at h
    cases h
    exact .refused _ fun _ _ ha => ha

/-- Every call that returns has one of the effects. -/
theorem call_effect (h : call cbs n a = .ok r) : Effect cbs n a r := by
  cases a with
  | setPreferRemoteCodecOrder b => cases h; exact .prefs _ fun ha => ha
  | setAnswerMultipleCodecs b => cases h; exact .prefs _ fun ha => ha
  | modifyLocalOffer2 flags loc => exact modifyLocalOffer2_effect h
  | sendLocalOffer => exact sendLocalOffer_effect h
  | setRemoteAnswer remote =>
      by_cases hs : n.state = .localOffer
      · simp only [call, setRemoteAnswer, hs, ne_eq, not_true_eq_false, if_false] at h
        cases h
        exact .remoteAnswer hs
      · simp only [call, setRemoteAnswer, ne_eq, hs, not_false_eq_true, if_true] at h
        cases h
        exact .refused _ fun _ _ ha => ha
  | setRemoteOffer remote =>
      by_cases hs : n.state = .done
      · simp only [call, setRemoteOffer, hs, ne_eq, not_true_eq_false, if_false] at h
        cases h
        exact .remoteOffer hs
      · simp only [call, setRemoteOffer, ne_eq, hs, not_false_eq_true, if_true] at h
        cases h
        exact .refused _ fun hd => absurd hd hs
  | setLocalAnswer loc => exact setLocalAnswer_effect h
  | cancelOffer => exact cancelOffer_effect h
  | negotiate asym => exact negotiate_effect h

/-! ## Absent descriptions -/

/-- Which descriptions are there in each state. -/
structure Present (n : Neg) : Prop where
  localOffer : n.state = .localOffer → n.negLocalSdp.isSome ∧ n.initialSdp.isSome
  remoteOffer : n.state = .remoteOffer → n.negRemoteSdp.isSome
  waitNego : n.state = .waitNego →
    n.negLocalSdp.isSome ∧ n.negRemoteSdp.isSome ∧ n.initialSdp.isSome

theorem hasActive_modify {flags : Nat} {loc : Session} (h : hasActive n (.modifyLocalOffer2 flags loc))
    (hs : n.state = .done) : n.activeLocalSdp.isSome := by
  simpa [hasActive, hs] using h

/-- Every effect keeps the descriptions its new state needs. -/
theorem Present.effect (h : Present n) (he : Effect cbs n a r) : Present r.neg := by
  cases he with
  | refused e _ => exact h
  | prefs p _ => exact ⟨h.localOffer, h.remoteOffer, h.waitNego⟩
  | modified hs hold ho => exact ⟨fun _ => ⟨rfl, rfl⟩, nofun, nofun⟩
  | sentActive hs ha => exact ⟨fun _ => ⟨rfl, rfl⟩, nofun, nofun⟩
  | sentLocal hs hl => exact h
  | remoteAnswer hs =>
      exact ⟨nofun, nofun, fun _ => ⟨(h.localOffer hs).1, rfl, (h.localOffer hs).2⟩⟩
  | remoteOffer hs => exact ⟨nofun, fun _ => rfl, nofun⟩
  | localAnswer answer initial hs hi =>
      exact ⟨nofun, nofun, fun _ => ⟨rfl, h.remoteOffer hs, rfl⟩⟩
  | cancelledLocal | cancelledRemote | failed | accepted | answered => exact ⟨nofun, nofun, nofun⟩

/-- A description that is there can be followed. -/
theorem deref_isSome {s : Option Session} (h : s.isSome) : ∃ t, s = some t ∧ deref s = .ok t := by
  cases s with
  | none => cases h
  | some t => exact ⟨t, rfl, rfl⟩

/-- The rule for a call inside an operation: only what follows it can use an absent
description. -/
theorem inside_bind_ne_absent {α β : Type} {x : Except Fault α} {f : α → Except NegFault β}
    (hf : ∀ y, f y ≠ .error .absentSdp) : (inside x >>= f) ≠ .error .absentSdp := by
  cases x with
  | error e => exact fun h => by cases h
  | ok y => exact hf y

theorem negotiate_ne_absent {asym : Bool} (h : Present n) :
    negotiate cbs n asym ≠ .error .absentSdp := by
  unfold negotiate
  by_cases hs : n.state = .waitNego
  · rw [if_neg (not_not.mpr hs)]
    rcases h.waitNego hs with ⟨hl, hrem, hi⟩
    rcases deref_isSome hl with ⟨loc, -, hloc⟩
    cases hr : n.negRemoteSdp with
    | none => exact nofun
    | some remote =>
        dsimp only
        split
        · rw [negotiateOffer, hloc, ok_bind]
          refine inside_bind_ne_absent fun p => ?_
          cases p with
          | error e => exact nofun
          | ok p => exact nofun
        · rw [negotiateAnswer, hloc, ok_bind]
          refine inside_bind_ne_absent fun p => ?_
          cases p with
          | error e => exact nofun
          | ok answer =>
              -- The version comes from the active description or else from the initial one.
              have hprev : (n.activeLocalSdp.or n.initialSdp).isSome := by
                cases n.activeLocalSdp with
                | none => exact hi
                | some s => rfl
              rcases deref_isSome hprev with ⟨previous, -, hp⟩
              dsimp only
              rw [hp, ok_bind]
              exact nofun
  · rw [if_pos hs]
    exact nofun

/-- Where the descriptions of the state are there, and the active one where it is needed, no
operation uses an absent description. -/
theorem call_ne_absent (cbs : List FmtMatchCb) (h : Present n) (ha : hasActive n a) :
    call cbs n a ≠ .error .absentSdp := by
  cases a with
  | setPreferRemoteCodecOrder b => exact nofun
  | setAnswerMultipleCodecs b => exact nofun
  | modifyLocalOffer2 flags loc =>
      rw [call, modifyLocalOffer2]
      by_cases hs : n.state = .done
      · rw [if_neg (not_not.mpr hs)]
        rcases deref_isSome (hasActive_modify ha hs) with ⟨old, -, hold⟩
        cases validate loc with
        | error e => exact nofun
        | ok u =>
            dsimp only
            rw [hold, ok_bind]
            exact inside_bind_ne_absent fun offer => nofun
      · rw [if_pos hs]
        exact nofun
  | sendLocalOffer =>
      rw [call, sendLocalOffer]
      cases hs : n.state with
      | done => cases n.activeLocalSdp <;> exact nofun
      | localOffer =>
          rcases deref_isSome (h.localOffer hs).1 with ⟨s, -, hl⟩
          dsimp only
          rw [hl, ok_bind]
          exact nofun
      | remoteOffer => exact nofun
      | waitNego => exact nofun
  | setRemoteAnswer remote =>
      rw [call, setRemoteAnswer]
      split <;> exact nofun
  | setRemoteOffer remote =>
      rw [call, setRemoteOffer]
      split <;> exact nofun
  | setLocalAnswer loc =>
      cases loc with
      | none => exact nofun
      | some loc =>
          rw [call, setLocalAnswer]
          split
          · exact nofun
          · dsimp only
            cases n.initialSdp <;> exact nofun
  | cancelOffer =>
      rw [call, cancelOffer]
      split <;> exact nofun
  | negotiate asym => exact negotiate_ne_absent h

/-- What is safe about a call that returns. -/
structure SafeCall (n : Neg) (a : Op) (r : Reply) : Prop where
  works : n.state = .done → AdmittedInDone a → r.status = none
  failed : ∀ asym, a = .negotiate asym → r.status ≠ none →
    r.neg.activeLocalSdp = n.activeLocalSdp ∧ r.neg.activeRemoteSdp = n.activeRemoteSdp

/-- What is safe about a state: in `WAIT_NEGO` both descriptions of the negotiation are there, and
every call works on descriptions that are there. -/
structure Safe (cbs : List FmtMatchCb) (n : Neg) : Prop where
  waitNego : n.state = .waitNego → n.negLocalSdp.isSome ∧ n.negRemoteSdp.isSome
  calls : ∀ a, hasActive n a → Holds (SafeCall n a) (fun f => f ≠ .absentSdp) (call cbs n a)

theorem Effect.safeCall (he : Effect cbs n a r) (ha : hasActive n a) : SafeCall n a r := by
  cases he with
  | refused e hadm =>
      exact ⟨fun hs had => absurd had (hadm hs ha), fun _ _ _ => ⟨rfl, rfl⟩⟩
  | failed e hs =>
      refine ⟨fun hd => ?_, fun _ _ _ => ⟨rfl, rfl⟩⟩
      rw [hs] at hd
      cases hd
  | _ => exact ⟨fun _ _ => rfl, fun _ _ h => absurd rfl h⟩

theorem Present.safe (h : Present n) : Safe cbs n where
  waitNego hs := ⟨(h.waitNego hs).1, (h.waitNego hs).2.1⟩
  calls a ha := by
    cases hc : call cbs n a with
    | error f =>
        refine Holds.error fun hf => call_ne_absent cbs h ha ?_
        rw [hc, hf]
    | ok r => exact Holds.ok ((call_effect hc).safeCall ha)

theorem begins_present {d : Dialog} (h : Begins d) : Present d.neg := by
  cases h with
  | localOffer h =>
      rcases Outcome.bind_eq_ok h with ⟨u, -, h⟩
      cases h
      exact ⟨fun _ => ⟨rfl, rfl⟩, nofun, nofun⟩
  | @remoteOffer initial remote neg h =>
      rcases Outcome.bind_eq_ok h with ⟨u, -, h⟩
      cases initial with
      | none =>
          cases h
          exact ⟨nofun, fun _ => rfl, nofun⟩
      | some s =>
          rcases Outcome.bind_eq_ok h with ⟨u, -, h⟩
          cases h
          exact ⟨nofun, nofun, fun _ => ⟨rfl, rfl, rfl⟩⟩

/-- One step of a dialog that returns is a call that returns. -/
theorem step_effect {d d' : Dialog} (h : step cbs d a = .ok d') :
    ∃ r, Effect cbs d.neg a r ∧ d' = ⟨r.neg, r.emitted.toList ++ d.emitted⟩ := by
  rcases Outcome.bind_eq_ok h with ⟨r, hr, h⟩
  cases h
  exact ⟨r, call_effect hr, rfl⟩

/-- A step uses an absent description only if the call does. -/
theorem step_ne_absent (cbs : List FmtMatchCb) {d : Dialog} (h : Present d.neg) (ha : hasActive d.neg a) :
    step cbs d a ≠ .error .absentSdp := by
  have hc := call_ne_absent cbs h ha
  unfold step
  cases hr : call cbs d.neg a with
  | error f =>
      intro hf
      cases hf
      exact hc hr
  | ok r => exact nofun

/-- **The negotiator uses only descriptions that are there.** In every run of operations in which
a local offer is made in `DONE` only when there is an active local description, no operation uses
an absent one; in every state reached, `WAIT_NEGO` has both descriptions of the negotiation, what
`DONE` admits works, and a failed `negotiate` leaves the active descriptions as they were. -/
theorem negotiator_run_safe (cbs : List FmtMatchCb) (d : Dialog) (hd : Begins d) (l : List Op)
    (hl : Meets (step cbs) (fun d a => hasActive d.neg a = true) d l) :
    Holds (fun d => Safe cbs d.neg) (fun f => f ≠ .absentSdp) (run (step cbs) d l) := by
  have hrun : Holds (fun d : Dialog => Present d.neg) (fun f => f ≠ .absentSdp)
      (run (step cbs) d l) := by
    refine run_holds (fun d a hp ha => ?_) l d (begins_present hd) hl
    cases hs : step cbs d a with
    | error f =>
        refine Holds.error fun hf => step_ne_absent cbs hp ha ?_
        rw [hs, hf]
    | ok d' =>
        rcases step_effect hs with ⟨r, he, rfl⟩
        exact Holds.ok (hp.effect he)
  exact hrun.mono fun d hp => hp.safe

/-- An audio description with the given port and formats, to run the negotiator on. -/
def audioSdp (port : Nat) (fmt : List Str) : Session where
  origin := ⟨[45], 7, 1, strIN, strIP4, [49]⟩
  name := [45]
  conn := some ⟨strIN, strIP4, [49]⟩
  bandw := []
  start := 0
  stop := 0
  attr := []
  media := [⟨⟨[97], port, 0, [82], fmt⟩, none, [], []⟩]

/-- The negotiator that starts with the local offer of two formats. -/
def audioNeg : Neg where
  state := .localOffer
  prefs := ⟨true, false⟩
  hasRemoteAnswer := false
  answerWasRemote := false
  initialSdp := some (audioSdp 4000 [[48], [56]])
  activeLocalSdp := none
  activeRemoteSdp := none
  negLocalSdp := some (audioSdp 4000 [[48], [56]])
  negRemoteSdp := none

/-- The offer is sent, answered and negotiated; a second offer is cancelled and a third one
fails. -/
def audioOps : List Op :=
  [.sendLocalOffer, .setRemoteAnswer (audioSdp 5000 [[48], [56]]), .negotiate false,
   .modifyLocalOffer2 0 (audioSdp 4000 [[56]]), .cancelOffer,
   .modifyLocalOffer2 0 (audioSdp 4000 [[48]]), .setRemoteAnswer (audioSdp 0 []), .negotiate false]

/-- What the model computes: how `audioNeg` is created, its run, and the offer behind a cancelled one. -/
theorem audio_computed :
    createWLocalOffer (audioSdp 4000 [[48], [56]]) = .ok audioNeg ∧
      checkRun (step []) (fun d a => hasActive d.neg a) (fun _ => true) ⟨audioNeg, []⟩ audioOps = true ∧
      validate (audioSdp 4000 [[48]]) = .ok () ∧
      run (step []) ⟨audioNeg, []⟩ [.cancelOffer] = .ok ⟨audioNeg.finish, []⟩ ∧
      call [] audioNeg.finish (.modifyLocalOffer2 0 (audioSdp 4000 [[48]])) = .error .absentSdp := by
  decide +kernel

theorem audioNeg_begins : Begins ⟨audioNeg, []⟩ := .localOffer audio_computed.1

theorem negotiator_run_safe_audio :
    ∃ d', run (step []) ⟨audioNeg, []⟩ audioOps = .ok d' ∧ Safe [] d'.neg := by
  rcases checkRun_sound _ _ _ _ _ audio_computed.2.1 with ⟨hm, d', hd', -⟩
  have hsafe := negotiator_run_safe [] ⟨audioNeg, []⟩ audioNeg_begins audioOps hm
  rw [hd'] at hsafe
  exact ⟨d', hd', hsafe⟩

/-- An offer after the first one was cancelled uses the active local description, which is not
there; the offer is valid and `DONE` admits it. -/
theorem modify_after_cancel :
    Begins ⟨audioNeg, []⟩ ∧ validate (audioSdp 4000 [[48]]) = .ok () ∧
    ∃ d, run (step []) ⟨audioNeg, []⟩ [.cancelOffer] = .ok d ∧ d.neg.state = .done ∧
      call [] d.neg (.modifyLocalOffer2 0 (audioSdp 4000 [[48]])) = .error .absentSdp :=
  ⟨audioNeg_begins, audio_computed.2.2.1, ⟨audioNeg.finish, []⟩, audio_computed.2.2.2.1, rfl,
    audio_computed.2.2.2.2⟩

/-! ## Versions -/

/-- Two descriptions that differ at most in their version. -/
def sameButVersion (s t : Session) : Bool := s.withVersion 0 = t.withVersion 0

/-- Of two descriptions handed out one after the other, the later one has the larger version or
differs at most in the version. The list starts with the last one. -/
def Fresh : List Session → Prop
  | e' :: e :: l =>
      (sameButVersion e e' = false → e.origin.version < e'.origin.version) ∧ Fresh (e :: l)
  | _ => True

instance decidableFresh : (l : List Session) → Decidable (Fresh l)
  | [] => isTrue trivial
  | [_] => isTrue trivial
  | e' :: e :: l =>
      have := decidableFresh (e :: l)
      inferInstanceAs (Decidable
        ((sameButVersion e e' = false → e.origin.version < e'.origin.version) ∧ Fresh (e :: l)))

/-- The next version does not wrap around. -/
def noWrap (s : Session) : Bool := s.origin.version + 1 < 4294967296

/-- The description that the next version is computed from has not fallen behind the initial
one. -/
def notBehind (n : Neg) : Bool :=
  (n.activeLocalSdp.or n.initialSdp).all noWrap &&
    n.activeLocalSdp.all fun s => n.initialSdp.all fun i => i.origin.version ≤ s.origin.version

/-- What a step needs for its version to be ahead: a new offer or answer must not be computed from
a description that has fallen behind the initial one, and the active description may be offered
again only if its version is larger than that of the initial one or it is the same. -/
def versionAhead (n : Neg) : Op → Bool
  | .modifyLocalOffer2 _ _ => n.state != .done || notBehind n
  | .negotiate _ => n.state != .waitNego || n.hasRemoteAnswer || notBehind n
  | .sendLocalOffer => n.state != .done ||
      n.activeLocalSdp.all fun s => n.initialSdp.all fun i =>
        i.origin.version < s.origin.version || sameButVersion i s
  | .cancelOffer => n.state != .localOffer || n.activeLocalSdp.all noWrap
  | _ => true

/-- What a negotiator knows about the description it handed out last: while an offer is out it is
the offer, and otherwise it is the initial description or, up to the version, the active one. -/
structure Ledger (n : Neg) (last : Option Session) : Prop where
  flag : n.hasRemoteAnswer = true → n.state = .waitNego
  offered : n.state = .localOffer ∨ n.hasRemoteAnswer = true →
    n.initialSdp = n.negLocalSdp ∧ ∀ e, last = some e → n.negLocalSdp = some e
  known : ∀ e, last = some e → n.initialSdp = some e ∨
    ∃ s, n.activeLocalSdp = some s ∧ sameButVersion e s = true ∧ e.origin.version ≤ s.origin.version

theorem sameButVersion_refl (s : Session) : sameButVersion s s = true := by
  simp [sameButVersion]

theorem nextVersion_eq {s : Session} (h : noWrap s = true) :
    nextVersion s = s.origin.version + 1 := by
  have h : s.origin.version + 1 < 4294967296 := by simpa [noWrap] using h
  have hv := MachineInt.uint32_natCast h
  rw [nextVersion]
  exact_mod_cast hv

theorem Ledger.no_remote_answer {last : Option Session} (h : Ledger n last)
    (hs : n.state ≠ .waitNego) : n.hasRemoteAnswer ≠ true :=
  fun hr => hs (h.flag hr)

/-- A description whose version is ahead of the last one may be handed out. -/
theorem Fresh.cons {e : Session} {l : List Session} (h : Fresh l)
    (hv : ∀ e', l.head? = some e' → sameButVersion e' e = false →
      e'.origin.version < e.origin.version) : Fresh (e :: l) := by
  cases l with
  | nil => trivial
  | cons e' l => exact ⟨hv e' rfl, h⟩

/-- The last description is not newer than the one that the next version is computed from. -/
theorem Ledger.le_previous {last : Option Session} (h : Ledger n last) (hb : notBehind n = true)
    {e previous : Session} (he : last = some e)
    (hp : n.activeLocalSdp.or n.initialSdp = some previous) :
    e.origin.version < nextVersion previous := by
  rw [notBehind, Bool.and_eq_true] at hb
  have hw : noWrap previous = true := by simpa [hp] using hb.1
  rw [nextVersion_eq hw]
  cases ha : n.activeLocalSdp with
  | none =>
      -- Without an active description the last one is the initial one.
      rcases h.known e he with hi | ⟨s, hs, -⟩
      · rw [ha, hi] at hp
        cases hp
        omega
      · rw [ha] at hs
        cases hs
  | some s =>
      rw [ha] at hp
      cases hp
      rcases h.known e he with hi | ⟨s', hs, -, hle⟩
      · have hb2 := hb.2
        simp only [ha, hi, Option.all_some, decide_eq_true_eq] at hb2
        omega
      · rw [ha] at hs
        cases hs
        omega

/-- An effect without a new description keeps the log. -/
theorem ledger_quiet {last : Option Session} {n' : Neg} (h : Ledger n last)
    (hflag : n'.hasRemoteAnswer = true → n'.state = .waitNego)
    (hoff : n'.state = .localOffer ∨ n'.hasRemoteAnswer = true →
      n'.initialSdp = n'.negLocalSdp ∧ ∀ e, last = some e → n'.negLocalSdp = some e)
    (hi : ∀ e, n.initialSdp = some e → n'.initialSdp = some e)
    (ha : n'.activeLocalSdp = n.activeLocalSdp) : Ledger n' last := by
  refine ⟨hflag, hoff, fun e he => ?_⟩
  rcases h.known e he with hini | ⟨s, hs, hsame, hle⟩
  · exact Or.inl (hi e hini)
  · exact Or.inr ⟨s, by rw [ha]; exact hs, hsame, hle⟩

/-- What an effect hands out is fresh, and the ledger follows. -/
theorem Ledger.effect {l : List Session} (h : Ledger n l.head?) (hf : Fresh l)
    (he : Effect cbs n a r) (hv : versionAhead n a = true) :
    Ledger r.neg (r.emitted.toList ++ l).head? ∧ Fresh (r.emitted.toList ++ l) := by
  cases he with
  | refused e _ => exact ⟨h, hf⟩
  | prefs p _ => exact ⟨ledger_quiet h h.flag h.offered (fun _ hi => hi) rfl, hf⟩
  | @modified flags loc old offer hs hold ho =>
      simp only [versionAhead, hs, bne_self_eq_false, Bool.false_or] at hv
      have hver : offer.origin.version = nextVersion old := by
        rcases Outcome.bind_eq_ok ho with ⟨media, -, ho⟩
        cases ho
        rfl
      have hno : n.hasRemoteAnswer ≠ true := h.no_remote_answer (by rw [hs]; exact nofun)
      refine ⟨⟨fun hr => absurd hr hno, fun _ => ⟨rfl, fun e he => he⟩,
        fun e he => Or.inl he⟩, hf.cons fun e he _ => ?_⟩
      rw [hver]
      exact h.le_previous hv he (by rw [hold]; rfl)
  | @sentActive s hs ha =>
      simp only [versionAhead, hs, bne_self_eq_false, Bool.false_or, ha, Option.all_some] at hv
      have hno : n.hasRemoteAnswer ≠ true := h.no_remote_answer (by rw [hs]; exact nofun)
      refine ⟨⟨fun hr => absurd hr hno, fun _ => ⟨rfl, fun e he => he⟩,
        fun e he => Or.inl he⟩, hf.cons fun e he hne => ?_⟩
      rcases h.known e he with hi | ⟨s', hs', hsame, -⟩
      · simpa [hi, hne] using hv
      · rw [ha] at hs'
        cases hs'
        rw [hne] at hsame
        cases hsame
  | @sentLocal s hs hl =>
      rcases h.offered (Or.inl hs) with ⟨hini, hlast⟩
      refine ⟨⟨h.flag, fun _ => ⟨hini, fun e he => ?_⟩, fun e he => Or.inl ?_⟩,
        hf.cons fun e he hne => ?_⟩
      · cases he
        exact hl
      · cases he
        rw [hini]
        exact hl
      · have hsame := hlast e he
        rw [hl] at hsame
        cases hsame
        rw [sameButVersion_refl] at hne
        cases hne
  | remoteAnswer hs =>
      exact ⟨ledger_quiet h (fun _ => rfl) (fun _ => h.offered (Or.inl hs)) (fun _ hi => hi) rfl, hf⟩
  | remoteOffer hs =>
      have hno : n.hasRemoteAnswer ≠ true := h.no_remote_answer (by rw [hs]; exact nofun)
      refine ⟨ledger_quiet h (fun hr => absurd hr hno) (fun hr => ?_) (fun _ hi => hi) rfl, hf⟩
      rcases hr with hr | hr
      · cases hr
      · exact absurd hr hno
  | localAnswer answer initial hs hi =>
      have hno : n.hasRemoteAnswer ≠ true := h.no_remote_answer (by rw [hs]; exact nofun)
      refine ⟨ledger_quiet h (fun _ => rfl) (fun hr => ?_) (fun e he => ?_) rfl, hf⟩
      · rcases hr with hr | hr
        · cases hr
        · exact absurd hr hno
      · rw [← hi e he]
  | cancelledLocal hs =>
      rcases h.offered (Or.inl hs) with ⟨hini, hlast⟩
      refine ⟨⟨nofun, fun hr => ?_, fun e he => Or.inl ?_⟩, hf⟩
      · rcases hr with hr | hr <;> cases hr
      · show n.initialSdp = some e
        rw [hini]
        exact hlast e he
  | cancelledRemote | failed =>
      exact ⟨ledger_quiet h nofun (fun hr => by rcases hr with hr | hr <;> cases hr)
        (fun _ hi => hi) rfl, hf⟩
  | accepted hs hr hl ho =>
      rcases h.offered (Or.inr hr) with ⟨hini, hlast⟩
      refine ⟨⟨nofun, fun hr => ?_, fun e he => Or.inl ?_⟩, hf⟩
      · rcases hr with hr | hr <;> cases hr
      · show n.initialSdp = some e
        rw [hini]
        exact hlast e he
  | @answered asym answer previous remote hs hr hp =>
      simp only [versionAhead, hs, hr, bne_self_eq_false, Bool.false_or] at hv
      refine ⟨⟨nofun, fun hr => ?_, fun e he => Or.inr ?_⟩,
        hf.cons fun e he _ => h.le_previous hv he hp⟩
      · rcases hr with hr | hr <;> cases hr
      · cases he
        exact ⟨_, rfl, sameButVersion_refl _, le_rfl⟩

theorem begins_ledger {d : Dialog} (h : Begins d) : Ledger d.neg d.emitted.head? := by
  cases h with
  | localOffer h =>
      rcases Outcome.bind_eq_ok h with ⟨u, -, h⟩
      cases h
      exact ⟨nofun, fun _ => ⟨rfl, nofun⟩, nofun⟩
  | @remoteOffer initial remote neg h =>
      rcases Outcome.bind_eq_ok h with ⟨u, -, h⟩
      cases initial with
      | none =>
          cases h
          exact ⟨nofun, fun _ => ⟨rfl, nofun⟩, nofun⟩
      | some s =>
          rcases Outcome.bind_eq_ok h with ⟨u, -, h⟩
          cases h
          exact ⟨nofun, fun _ => ⟨rfl, nofun⟩, nofun⟩

/-- **Versions are fresh.** In every run whose steps meet `versionAhead`, of any two local
descriptions that the negotiator hands out one after the other, the later one has the larger
version unless they differ at most in the version. -/
theorem negotiator_run_fresh (cbs : List FmtMatchCb) (d : Dialog) (hd : Begins d) (l : List Op)
    (hl : Meets (step cbs) (fun d a => versionAhead d.neg a = true) d l) :
    ∀ d', run (step cbs) d l = .ok d' → Fresh d'.emitted := by
  have hbegin : Fresh d.emitted := by
    cases hd <;> trivial
  have hrun : Holds (fun d : Dialog => Ledger d.neg d.emitted.head? ∧ Fresh d.emitted)
      (fun _ => True) (run (step cbs) d l) := by
    refine run_holds (fun d a hinv hv => ?_) l d ⟨begins_ledger hd, hbegin⟩ hl
    cases hs : step cbs d a with
    | error f => exact Holds.error trivial
    | ok d' =>
        rcases step_effect hs with ⟨r, he, rfl⟩
        exact Holds.ok (hinv.1.effect hinv.2 he hv)
  intro d' hd'
  rw [hd'] at hrun
  exact hrun.2

theorem negotiator_run_fresh_audio :
    ∃ d', run (step []) ⟨audioNeg, []⟩ audioOps = .ok d' ∧ d'.emitted.length = 3 ∧
      Fresh d'.emitted := by
  have h : checkRun (step []) (fun d a => versionAhead d.neg a)
      (fun d => d.emitted.length == 3) ⟨audioNeg, []⟩ audioOps = true := by decide +kernel
  rcases checkRun_sound _ _ _ _ _ h with ⟨hm, d', hd', hlen⟩
  exact ⟨d', hd', by simpa using hlen,
    negotiator_run_fresh [] ⟨audioNeg, []⟩ audioNeg_begins audioOps hm d' hd'⟩

/-- After an offer whose negotiation failed, the next offer has its version and other formats. -/
theorem modify_after_failure :
    Begins ⟨audioNeg, []⟩ ∧
    ∃ d, run (step []) ⟨audioNeg, []⟩
        (audioOps ++ [.modifyLocalOffer2 0 (audioSdp 4000 [[56]])]) = .ok d ∧
      ¬ Fresh d.emitted := by
  have h : checkRun (step []) (fun _ _ => true) (fun d => !decide (Fresh d.emitted))
      ⟨audioNeg, []⟩ (audioOps ++ [.modifyLocalOffer2 0 (audioSdp 4000 [[56]])]) = true := by
    decide +kernel
  rcases checkRun_sound _ _ _ _ _ h with ⟨-, d, hd, hnot⟩
  exact ⟨audioNeg_begins, d, hd, by simpa using hnot⟩

end Sdp
