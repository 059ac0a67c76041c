import PjProject.Sdp.Session

set_option autoImplicit false

/-! # The offerer's side of the negotiation

`process_answer` of `pjmedia/src/pjmedia/sdp_neg.c` and what it calls: the local description that
was offered is cut down to what the remote answer accepts, and the answer to what was offered.
Both descriptions are changed in place, so both are results here.

A format may have a callback that compares the `fmtp` parameters of the two sides
(`pjmedia_sdp_neg_register_fmt_match_cb`). The callbacks belong to the codecs; what the negotiator
relies on is that they leave all of a media line but its `fmtp` attributes as it is, and this is
part of the type `FmtMatchCb`.
-/

namespace Sdp

/-! ## Callbacks of the formats -/

/-- A registered callback: it says whether the two formats match, and what the answer is then. -/
structure FmtMatchCb where
  fmtName : Str
  cb : Media → Nat → Media → Nat → Nat → Bool × Media
  desc_eq : ∀ offer i answer j option, (cb offer i answer j option).2.desc = answer.desc
  attr_eq : ∀ offer i answer j option,
    (cb offer i answer j option).2.attr.filter (fun a => a.name != strFmtp) =
      answer.attr.filter fun a => a.name != strFmtp

/-- `custom_fmt_match`. -/
def customFmtMatch (cbs : List FmtMatchCb) (fmtName : Str) (offer : Media) (oFmtIdx : Nat)
    (answer : Media) (aFmtIdx option : Nat) : Bool × Media :=
  match cbs.find? fun c => stricmpEq fmtName c.fmtName with
  | some c => c.cb offer oFmtIdx answer aFmtIdx option
  | none => (true, answer)

/-! ## Media direction -/

/-- `pjmedia_dir`. -/
inductive Dir where
  | none
  | encoding
  | decoding
  | encodingDecoding
  deriving DecidableEq

/-- `remove_all_media_directions`. -/
def removeAllMediaDirections (m : Media) : Media :=
  (((m.removeAllAttr strInactive).removeAllAttr strSendrecv).removeAllAttr strSendonly).removeAllAttr
    strRecvonly

/-- The direction a local media line has. -/
def localDir (m : Media) : Dir :=
  if (m.findAttr strSendonly .none).isSome then .encoding
  else if (m.findAttr strRecvonly .none).isSome then .decoding
  else if (m.findAttr strInactive .none).isSome then .none
  else .encodingDecoding

/-- The direction that suits a remote line, starting from `old`. -/
def adjustDir (remote : Media) (old : Dir) : Dir :=
  if (remote.findAttr strInactive .none).isSome then .none
  else if (remote.findAttr strSendonly .none).isSome then
    match old with
    | .encodingDecoding => .decoding
    | .decoding => .decoding
    | _ => .none
  else if (remote.findAttr strRecvonly .none).isSome then
    match old with
    | .encodingDecoding => .encoding
    | .encoding => .encoding
    | _ => .none
  else old

/-- The attribute of a direction; `sendrecv` has none. -/
def dirAttr : Dir → Option Attr
  | .none => some ⟨strInactive, []⟩
  | .encoding => some ⟨strSendonly, []⟩
  | .decoding => some ⟨strRecvonly, []⟩
  | .encodingDecoding => Option.none

/-- `update_media_direction`. -/
def updateMediaDirection (remote loc : Media) : Media :=
  let oldDir := localDir loc
  let newDir := adjustDir remote oldDir
  if newDir ≠ oldDir then
    match dirAttr newDir with
    | some a => (removeAllMediaDirections loc).addAttr a
    | Option.none => removeAllMediaDirections loc
  else loc

/-! ## Rejected lines -/

/-- The connection line `sdp_media_clone_deactivate` makes up. -/
def loopbackConn : Conn :=
  ⟨strIN, strIP4, str ['1', '2', '7', '.', '0', '.', '0', '.', '1']⟩

/-- `sdp_media_clone_deactivate`. -/
def sdpMediaCloneDeactivate (remMed localMed : Media) (localSess : Session) : Media :=
  let res := remMed.cloneDeactivate
  if res.conn.isNone && localSess.conn.isNone then
    { res with conn := some (localMed.conn.getD loopbackConn) }
  else res

/-! ## One media line -/

/-- What `process_m_answer` returns and leaves of the two lines. -/
structure MAnswer where
  status : Option Status
  offer : Media
  answer : Media
  deriving DecidableEq

/-- The `rtpmap` comparison of `process_m_answer`. -/
def answerRtpmapEq (offered answered : Rtpmap) : Bool :=
  stricmpEq offered.encName answered.encName && offered.clockRate == answered.clockRate &&
    (stricmpEq offered.param answered.param || answered.param == [49])

/-- The search of `process_m_answer` for the answer to a dynamic payload type: the index of the
first format of the list that matches. -/
def findAnswerFmt (cbs : List FmtMatchCb) (offer : Media) (i : Nat) (offered : Rtpmap) :
    List Str → Nat → Media → Except Fault (Option Nat × Media)
  | [], _, answer => .ok (none, answer)
  | f :: l, j, answer =>
      match answer.findAttr strRtpmap (some f) with
      | none => findAnswerFmt cbs offer i offered l (j + 1) answer
      | some a => do
          let ar ← attrGetRtpmap a
          if answerRtpmapEq offered ar then
            let (ok, answer) := customFmtMatch cbs offered.encName offer i answer j 0
            if ok then return (some j, answer)
            else findAnswerFmt cbs offer i offered l (j + 1) answer
          else findAnswerFmt cbs offer i offered l (j + 1) answer

/-- The answer's format for the format `f` at `i` of the offer. -/
def answerFmtOf (cbs : List FmtMatchCb) (offer : Media) (i : Nat) (f : Str) (answer : Media) :
    Except Fault (Option Nat × Media) :=
  if ptOf f < 96 then
    .ok (answer.desc.fmt.findIdx? (· == f), answer)
  else
    match offer.findAttr strRtpmap (some f) with
    | none => .error .assertion
    | some a => do
        let offered ← attrGetRtpmap a
        findAnswerFmt cbs offer i offered answer.desc.fmt 0 answer

/-- The `rtpmap` and `fmtp` attributes of a format are removed. -/
def removeFmtAttrs (m : Media) (f : Str) : Media :=
  (m.removeAttr strRtpmap (some f)).removeAttr strFmtp (some f)

/-- The formats of a line are replaced. -/
def Media.withFmt (m : Media) (fmt : List Str) : Media := { m with desc := { m.desc with fmt := fmt } }

/-- The loop of `process_m_answer` that removes the formats without an answer. `kept` are the
formats before the current one and `prior` their indices in the answer. -/
def pruneOffer (cbs : List FmtMatchCb) :
    List Str → List Str → List Nat → Media → Media → Except Fault (List Nat × Media × Media)
  | [], _, prior, offer, answer => .ok (prior, offer, answer)
  | f :: l, kept, prior, offer, answer => do
      let (j, answer) ← answerFmtOf cbs offer kept.length f answer
      match j with
      | none => pruneOffer cbs l kept prior ((removeFmtAttrs offer f).withFmt (kept ++ l)) answer
      | some j => pruneOffer cbs l (kept ++ [f]) (prior ++ [j]) offer answer

/-- The inner loop of the resort: `x` is compared with the elements behind it, and swapped. -/
def resortInner (x : Nat × Str) : List (Nat × Str) → (Nat × Str) × List (Nat × Str)
  | [] => (x, [])
  | y :: l =>
      if x.1 > y.1 then
        let r := resortInner y l
        (r.1, x :: r.2)
      else
        let r := resortInner x l
        (r.1, y :: r.2)

/-- The resort of the offer's formats by the order of the answer; `fuel` is their number. -/
def resort : Nat → List (Nat × Str) → List (Nat × Str)
  | fuel + 1, x :: l =>
      let r := resortInner x l
      r.1 :: resort fuel r.2
  | _, l => l

/-- The loop that removes the answer's formats without a counterpart: `kept` are the formats
before the current one, `delCnt` the number of those already removed. -/
def pruneAnswer (prior : List Nat) : List Str → List Str → Nat → Media → Media
  | [], _, _, answer => answer
  | f :: l, kept, delCnt, answer =>
      -- The subtraction wraps around in the source, which never makes the two sides equal.
      if (prior[kept.length]?.map fun p => (p : Int) - delCnt) = some (kept.length : Int) then
        pruneAnswer prior l (kept ++ [f]) delCnt answer
      else pruneAnswer prior l kept (delCnt + 1) ((removeFmtAttrs answer f).withFmt (kept ++ l))

/-- The part of `process_m_answer` for symmetric media. -/
def chooseSymmetric (cbs : List FmtMatchCb) (offer answer : Media) : Except Fault MAnswer := do
  let (prior, offer, answer) ← pruneOffer cbs offer.desc.fmt [] [] offer answer
  if offer.desc.fmt.length = 0 then return ⟨some .eansnomedia, offer, answer⟩
  else
    let sorted := resort offer.desc.fmt.length (prior.zip offer.desc.fmt)
    let offer := offer.withFmt (sorted.map (·.2))
    return ⟨none, offer, pruneAnswer (sorted.map (·.1)) answer.desc.fmt [] 0 answer⟩

/-- The part of `process_m_answer` for asymmetric media. The search for a format of the answer is
made in the answer itself, over as many formats as the offer has. -/
def checkAsymmetric (offer answer : Media) : MAnswer :=
  let common := answer.desc.fmt.any fun f =>
    (List.range offer.desc.fmt.length).any fun j => answer.desc.fmt[j]? == some f
  ⟨if common then none else some .eansnomedia, offer, answer⟩

/-- `process_m_answer`. -/
def processMAnswer (cbs : List FmtMatchCb) (allowAsym : Bool) (offer answer : Media) :
    Except Fault MAnswer :=
  if answer.desc.media ≠ offer.desc.media then .ok ⟨some .einvansmedia, offer, answer⟩
  else if transportCmp answer.desc.transport offer.desc.transport = false then
    .ok ⟨some .einvanstp, offer, answer⟩
  else if answer.desc.port = 0 then .ok ⟨none, offer.deactivate, answer⟩
  else if offer.desc.port = 0 then .ok ⟨none, offer, answer⟩
  else
    let offer := updateMediaDirection answer offer
    if allowAsym then .ok (checkAsymmetric offer answer) else chooseSymmetric cbs offer answer

/-! ## The whole answer -/

/-- What `process_answer` has made of the lines of the two descriptions, and whether one of the
offer's is active. -/
structure Processed where
  offer : List Media
  answer : List Media
  hasActive : Bool
  deriving DecidableEq

/-- A line of the offer and a line of the answer are done. -/
def Processed.cons (o a : Media) (p : Processed) : Processed :=
  ⟨o :: p.offer, a :: p.answer, o.desc.port != 0 || p.hasActive⟩

/-- The loop of `process_answer` over the lines of the offer and those of the answer that are
left. -/
def processLines (cbs : List FmtMatchCb) (allowAsym : Bool) (offerSess : Session) :
    List Media → List Media → Except Fault (Except Status Processed)
  | [], answers => .ok (.ok ⟨[], answers, false⟩)
  | o :: os, [] => do
      -- The answer has fewer lines: a disabled one is added to it.
      let r ← processLines cbs allowAsym offerSess os []
      return r.map (Processed.cons o.deactivate (sdpMediaCloneDeactivate o o offerSess))
  | o :: os, a :: as => do
      let m ← processMAnswer cbs allowAsym o a
      match m.status with
      | none =>
          let r ← processLines cbs allowAsym offerSess os as
          return r.map (Processed.cons m.offer m.answer)
      | some .einvansmedia =>
          -- The line is disabled, and the answer's line is tried with the next one.
          let r ← processLines cbs allowAsym offerSess os (m.answer :: as)
          return r.map fun p => { p with offer := m.offer.deactivate :: p.offer }
      | some .eansnomedia =>
          let r ← processLines cbs allowAsym offerSess os as
          return r.map (Processed.cons m.offer.deactivate m.answer.deactivate)
      | some e => return .error e

/-- `process_answer`: the new active local description and the answer as it is left. -/
def processAnswer (cbs : List FmtMatchCb) (offer answer : Session) (allowAsym : Bool) :
    Except Fault (Except Status (Session × Session)) := do
  let r ← processLines cbs allowAsym offer offer.media answer.media
  match r with
  | .error e => return .error e
  | .ok p =>
      if p.hasActive then
        return .ok ({ offer with media := p.offer }, { answer with media := p.answer })
      else return .error .enomedia

end Sdp

/-! ## Answers to asymmetric media

With asymmetric media, `process_m_answer` only has to see to it that the answer has a format of the
offer. Its inner loop looks for the format in the answer itself, where the first one is always found:
an answer is refused only if one of the two lines has no format at all
(`checkAsymmetric_status`).
-/

namespace Sdp

variable {offer answer : Media} {f : Str}

/-- A format of the answer that was offered. -/
def CommonFmt (offer answer : Media) : Prop := ∃ f ∈ answer.desc.fmt, f ∈ offer.desc.fmt

/-- The answer is accepted only with a format of the offer, and refused without one. -/
def JudgesAnswer (cbs : List FmtMatchCb) (offer answer : Media) : Prop :=
  ∃ r, processMAnswer cbs true offer answer = .ok r ∧ (r.status = none → CommonFmt offer answer) ∧
    (¬ CommonFmt offer answer → r.status = some .eansnomedia)

theorem addAttr_desc (m : Media) (a : Attr) : (m.addAttr a).desc = m.desc := rfl

theorem removeAllMediaDirections_desc (m : Media) : (removeAllMediaDirections m).desc = m.desc := rfl

theorem updateMediaDirection_desc (remote loc : Media) :
    (updateMediaDirection remote loc).desc = loc.desc := by
  simp only [updateMediaDirection]
  split
  · split
    · rw [addAttr_desc, removeAllMediaDirections_desc]
    · rw [removeAllMediaDirections_desc]
  · rfl

/-- The loops find the first format of the answer at its own index. -/
theorem checkAsymmetric_status (offer answer : Media) :
    (checkAsymmetric offer answer).status =
      if answer.desc.fmt = [] ∨ offer.desc.fmt = [] then some .eansnomedia else none := by
  simp only [checkAsymmetric]
  cases ha : answer.desc.fmt with
  | nil => simp
  | cons f l =>
      cases ho : offer.desc.fmt with
      | nil => simp
      | cons g m =>
          have hfound : (List.range (m.length + 1)).any fun j => (f :: l)[j]? == some f := by
            rw [List.any_eq_true]
            exact ⟨0, by simp, by simp⟩
          simp [hfound]

variable {cbs : List FmtMatchCb}

/-- What `process_m_answer` comes to for two active lines that suit each other. -/
theorem processMAnswer_asymmetric (hmedia : answer.desc.media = offer.desc.media)
    (htp : transportCmp answer.desc.transport offer.desc.transport = true)
    (ha : answer.desc.port ≠ 0) (ho : offer.desc.port ≠ 0) :
    processMAnswer cbs true offer answer =
      .ok (checkAsymmetric (updateMediaDirection answer offer) answer) := by
  simp [processMAnswer, hmedia, htp, ha, ho]

/-- **When asymmetric answers are judged rightly.** -/
theorem judgesAnswer_iff (cbs : List FmtMatchCb) (offer answer : Media)
    (hmedia : answer.desc.media = offer.desc.media)
    (htp : transportCmp answer.desc.transport offer.desc.transport = true)
    (ha : answer.desc.port ≠ 0) (ho : offer.desc.port ≠ 0) :
    JudgesAnswer cbs offer answer ↔
      CommonFmt offer answer ∨ answer.desc.fmt = [] ∨ offer.desc.fmt = [] := by
  have hstatus := checkAsymmetric_status (updateMediaDirection answer offer) answer
  rw [updateMediaDirection_desc] at hstatus
  constructor
  · rintro ⟨r, hr, haccept, -⟩
    rw [processMAnswer_asymmetric hmedia htp ha ho] at hr
    cases hr
    by_cases hempty : answer.desc.fmt = [] ∨ offer.desc.fmt = []
    · exact .inr hempty
    · rw [if_neg hempty] at hstatus
      exact .inl (haccept hstatus)
  · intro h
    refine ⟨_, processMAnswer_asymmetric hmedia htp ha ho, ?_, ?_⟩
    · intro haccept
      rcases h with h | h
      · exact h
      · simp [hstatus, h] at haccept
    · intro hno
      rw [hstatus, if_pos (h.resolve_left hno)]

/-- An audio line. -/
def audioLine (fmt : List Str) : Media :=
  ⟨⟨str ['a', 'u', 'd', 'i', 'o'], 4000, 0, str ['R', 'T', 'P', '/', 'A', 'V', 'P'], fmt⟩, none, [],
    []⟩

/-- Two of the offered formats 0, 8 and 101 are in the answer, behind one that was not offered. -/
theorem judgesAnswer_common :
    JudgesAnswer [] (audioLine [[48], [56], [49, 48, 49]])
      (audioLine [[49, 56], [56], [49, 48, 49]]) := by
  have h := judgesAnswer_iff [] (audioLine [[48], [56], [49, 48, 49]])
    (audioLine [[49, 56], [56], [49, 48, 49]]) rfl (by decide) (by decide) (by decide)
  exact h.mpr (.inl ⟨[56], by decide, by decide⟩)

/-- PCMU was offered and PCMA is accepted as its answer. -/
theorem judgesAnswer_other : ¬ JudgesAnswer [] (audioLine [[48]]) (audioLine [[56]]) := by
  rintro ⟨r, hr, haccept, -⟩
  have hnone : (processMAnswer [] true (audioLine [[48]]) (audioLine [[56]])).map (·.status) =
      .ok none := by
    decide
  rw [hr] at hnone
  rcases haccept (by simpa [Except.map] using hnone) with ⟨f, hf, hf'⟩
  simp [audioLine] at hf hf'
  simp [hf] at hf'

end Sdp
