import PjProject.Sdp.Offer

set_option autoImplicit false

/-! # The answerer's side of the negotiation

`match_offer`, `apply_answer_symmetric_pt` and `create_answer` of
`pjmedia/src/pjmedia/sdp_neg.c`: for every line of a remote offer, a line of the local
description is chosen and its formats are reduced and reordered to those of the offer.

`matchOffer` also returns the local line, since a format callback may change its `fmtp`
attributes, and `answerLines` also returns which local line answers each offered line.
-/

namespace Sdp

/-! ## Matching the formats of two lines -/

def strTelephoneEvent : Str :=
  str ['t', 'e', 'l', 'e', 'p', 'h', 'o', 'n', 'e', '-', 'e', 'v', 'e', 'n', 't']

/-- The local variables of `match_offer`: the flags, and `pt_offer` and `pt_answer` as a list of
pairs. -/
structure MatchState where
  preanswer : Media
  masterHasCodec : Bool
  masterHasOther : Bool
  foundMatchingCodec : Bool
  foundMatchingTelephoneEvent : Bool
  foundMatchingOther : Bool
  pt : List (Str × Str)
  deriving DecidableEq

/-- The settings of a negotiation. -/
structure Prefs where
  preferRemoteCodecOrder : Bool
  answerWithMultipleCodecs : Bool
  deriving DecidableEq

/-- The line whose order of formats counts. -/
def master (p : Prefs) (offer preanswer : Media) : Media :=
  if p.preferRemoteCodecOrder then offer else preanswer

/-- The other line. -/
def slave (p : Prefs) (offer preanswer : Media) : Media :=
  if p.preferRemoteCodecOrder then preanswer else offer

/-- A master format and a slave format as the formats of the offer and of the answer. -/
def ptPair (p : Prefs) (m s : Str) : Str × Str :=
  if p.preferRemoteCodecOrder then (m, s) else (s, m)

/-- `pt_offer[pt_answer_count] = o; pt_answer[pt_answer_count++] = a`. -/
def MatchState.push (st : MatchState) (pair : Str × Str) : MatchState :=
  { st with pt := st.pt ++ [pair] }

/-- A static payload type. The slave's format stands for both. -/
def matchStatic (p : Prefs) (offer : Media) (st : MatchState) (f : Str) : MatchState :=
  let st := { st with masterHasCodec := true }
  if !p.answerWithMultipleCodecs && st.foundMatchingCodec then st
  else
    match (slave p offer st.preanswer).desc.fmt.find? fun g =>
        ptOf g == ptOf f && isDigit (firstChar g) with
    | none => st
    | some g => { st with foundMatchingCodec := true }.push (g, g)

/-- The `rtpmap` comparison of `match_offer`. -/
def offerRtpmapEq (m l : Rtpmap) : Bool :=
  stricmpEq m.encName l.encName && m.clockRate == l.clockRate &&
    (stricmpEq m.param l.param || (l.param == [] && m.param == [49]) ||
      (m.param == [] && l.param == [49]))

/-- The callback for the format at `i` of the master and at `j` of the slave. -/
def offerFmtMatch (cbs : List FmtMatchCb) (p : Prefs) (encName : Str) (offer preanswer : Media)
    (i j : Nat) : Bool × Media :=
  if p.preferRemoteCodecOrder then customFmtMatch cbs encName offer i preanswer j 1
  else customFmtMatch cbs encName offer j preanswer i 1

/-- The loop over the slave's formats for a dynamic payload type `f`, which is the master's format
at `i` and has the encoding `m`. -/
def matchDynamicLoop (cbs : List FmtMatchCb) (p : Prefs) (offer : Media) (i : Nat) (f : Str)
    (m : Rtpmap) (isCodec : Bool) : List Str → Nat → MatchState → Except Fault MatchState
  | [], _, st => .ok st
  | g :: gs, j, st =>
      match (slave p offer st.preanswer).findAttr strRtpmap (some g) with
      | none => matchDynamicLoop cbs p offer i f m isCodec gs (j + 1) st
      | some a => do
          let l ← attrGetRtpmap a
          if offerRtpmapEq m l then
            if isCodec then
              let r := offerFmtMatch cbs p m.encName offer st.preanswer i j
              let st := { st with preanswer := r.2 }
              if r.1 then
                return { st with foundMatchingCodec := true }.push (ptPair p f g)
              else matchDynamicLoop cbs p offer i f m isCodec gs (j + 1) st
            else
              return { st with foundMatchingTelephoneEvent := true }.push (ptPair p f g)
          else matchDynamicLoop cbs p offer i f m isCodec gs (j + 1) st

/-- A dynamic payload type. -/
def matchDynamic (cbs : List FmtMatchCb) (p : Prefs) (offer : Media) (st : MatchState) (i : Nat)
    (f : Str) : Except Fault MatchState :=
  match (master p offer st.preanswer).findAttr strRtpmap (some f) with
  | none => .error .assertion
  | some a => do
      let m ← attrGetRtpmap a
      if stricmpEq m.encName strTelephoneEvent then
        if st.foundMatchingTelephoneEvent then return st
        else
          matchDynamicLoop cbs p offer i f m false (slave p offer st.preanswer).desc.fmt 0 st
      else
        let st := { st with masterHasCodec := true }
        if !p.answerWithMultipleCodecs && st.foundMatchingCodec then return st
        else
          matchDynamicLoop cbs p offer i f m true (slave p offer st.preanswer).desc.fmt 0 st

/-- A format that is not a number. -/
def matchOther (p : Prefs) (offer : Media) (st : MatchState) (f : Str) : MatchState :=
  let st := { st with masterHasOther := true }
  if st.foundMatchingOther then st
  else
    match (slave p offer st.preanswer).desc.fmt.find? fun g => f == g with
    | none => st
    | some g => { st with foundMatchingOther := true }.push (ptPair p f g)

/-- The body of the loop of `match_offer` for the master's format `f` at `i`. -/
def matchFmt (cbs : List FmtMatchCb) (p : Prefs) (offer : Media) (st : MatchState) (i : Nat)
    (f : Str) : Except Fault MatchState :=
  if isDigit (firstChar f) then
    if ptOf f < 96 then .ok (matchStatic p offer st f) else matchDynamic cbs p offer st i f
  else .ok (matchOther p offer st f)

/-- The loop of `match_offer` over the master's formats. -/
def matchFmts (cbs : List FmtMatchCb) (p : Prefs) (offer : Media) :
    List Str → Nat → MatchState → Except Fault MatchState
  | [], _, st => .ok st
  | f :: l, i, st => do
      let st ← matchFmt cbs p offer st i f
      matchFmts cbs p offer l (i + 1) st

/-! ## Building the answer line -/

/-- Replaces the first `w` of the list by `x`. -/
def swapIn (x w : Str) : List Str → Option (List Str)
  | [] => none
  | y :: l => if y = w then some (x :: l) else (swapIn x w l).map (y :: ·)

/-- One step of the rearrangement: `w` is searched from the front and swapped with the format
there. What is left behind the front is returned. -/
def pull (w : Str) : List Str → Option (List Str)
  | [] => none
  | x :: l => if x = w then some l else swapIn x w l

/-- The rearrangement of the answer's formats to the chosen ones. A chosen format that is not
found behind those already in place fails the assertion. -/
def arrange : List Str → List Str → Except Fault (List Str × List Str)
  | [], fmts => .ok ([], fmts)
  | w :: ws, fmts =>
      match pull w fmts with
      | none => .error .assertion
      | some l => do
          let r ← arrange ws l
          return (w :: r.1, r.2)

/-- `rewrite_pt`: the payload type at the start of an attribute's value is replaced. A value that
is shorter than the payload type it starts with would be overrun. -/
def rewritePt (a : Attr) (oldPt newPt : Str) : Except Fault Attr :=
  if oldPt.length ≤ a.value.length then
    .ok { a with value := newPt ++ a.value.drop oldPt.length }
  else .error .outOfBounds

/-- The attribute `name` of the payload type `o` is rewritten and set aside. -/
def setAside (name : Str) (pair : Str × Str) (answer : Media) (tmp : List Attr) :
    Except Fault (Media × List Attr) :=
  match answer.findAttr name (some pair.2) with
  | none => .ok (answer, tmp)
  | some a => do
      let a ← rewritePt a pair.2 pair.1
      return (answer.removeAttr name (some pair.2), tmp ++ [a])

/-- The first loop of `apply_answer_symmetric_pt`, over the pairs of payload types at `i`, ... -/
def symmetricLoop : List (Str × Str) → Nat → Media → List Attr → Except Fault (Media × List Attr)
  | [], _, answer, tmp => .ok (answer, tmp)
  | pair :: l, i, answer, tmp =>
      if pair.2 = pair.1 then symmetricLoop l (i + 1) answer tmp
      else do
        let answer := answer.withFmt (answer.desc.fmt.set i pair.1)
        let r ← setAside strRtpmap pair answer tmp
        let r ← setAside strFmtp pair r.1 r.2
        symmetricLoop l (i + 1) r.1 r.2

/-- `apply_answer_symmetric_pt`. -/
def applyAnswerSymmetricPt (answer : Media) (pt : List (Str × Str)) : Except Fault Media := do
  let r ← symmetricLoop pt 0 answer []
  return r.2.foldl Media.addAttr r.1

/-- The answer line that `match_offer` builds from the chosen pairs of formats. -/
def buildAnswer (offer preanswer : Media) (pt : List (Str × Str)) : Except Fault Media := do
  let r ← arrange (pt.map (·.2)) preanswer.desc.fmt
  -- Unwanted formats lose their attributes.
  let answer := r.2.foldl removeFmtAttrs preanswer
  let answer ← applyAnswerSymmetricPt (answer.withFmt r.1) pt
  return updateMediaDirection offer answer

/-- What `match_offer` starts from. -/
def MatchState.init (preanswer : Media) : MatchState :=
  ⟨preanswer, false, false, false, false, false, []⟩

/-- `match_offer`: the local line as a callback may have left it, and the answer or a status. -/
def matchOffer (cbs : List FmtMatchCb) (p : Prefs) (offer preanswer : Media)
    (preanswerSdp : Session) : Except Fault (Media × Except Status Media) :=
  if offer.desc.port = 0 then
    .ok (preanswer, .ok (sdpMediaCloneDeactivate offer preanswer preanswerSdp))
  else if preanswer.desc.port = 0 then .ok (preanswer, .ok preanswer)
  else do
    let st ← matchFmts cbs p offer (master p offer preanswer).desc.fmt 0 (.init preanswer)
    if st.masterHasCodec && !st.foundMatchingCodec then
      return (st.preanswer, .error .noanscodec)
    else if st.masterHasOther && !st.foundMatchingOther then
      return (st.preanswer, .error .noansunknown)
    else
      let answer ← buildAnswer offer st.preanswer st.pt
      return (st.preanswer, .ok answer)

/-! ## The whole answer -/

/-- A line of the local description and whether it has been used (`media_used`). -/
abbrev Line := Media × Bool

/-- What the search for a local line leaves: the local lines, the last failure and, if one was
found, its index and the answer. -/
structure Found where
  lines : List Line
  status : Option Status
  answer : Option (Nat × Media)

/-- The line before the others stays as it is. -/
def Found.behind (r : Found) (line : Line) : Found :=
  ⟨line :: r.lines, r.status, r.answer.map fun a => (a.1 + 1, a.2)⟩

/-- The inner loop of `create_answer`: the first unused local line that matches the offered one. -/
def findLine (cbs : List FmtMatchCb) (p : Prefs) (initial : Session) (om : Media) :
    List Line → Option Status → Except Fault Found
  | [], status => .ok ⟨[], status, none⟩
  | (im, used) :: l, status =>
      if om.desc.media = im.desc.media ∧ om.desc.transport = im.desc.transport ∧ used = false then do
        let r ← matchOffer cbs p om im initial
        match r.2 with
        | .ok am => return ⟨(r.1, true) :: l, status, some (0, am)⟩
        | .error e =>
            let f ← findLine cbs p initial om l (some e)
            return f.behind (r.1, false)
      else do
        let f ← findLine cbs p initial om l status
        return f.behind (im, used)

/-- The loop of `create_answer` over the offered lines: every answer with the local line it comes
from, and the last failure. -/
def answerLines (cbs : List FmtMatchCb) (p : Prefs) (initial : Session) :
    List Media → List Line → Option Status → Except Fault (List (Option Nat × Media) × Option Status)
  | [], _, status => .ok ([], status)
  | om :: l, lines, status => do
      let f ← findLine cbs p initial om lines status
      let r ← answerLines cbs p initial l f.lines f.status
      match f.answer with
      | some (j, am) => return ((some j, am) :: r.1, r.2)
      -- No matching media: the offered line is rejected.
      | none => return ((none, sdpMediaCloneDeactivate om om initial) :: r.1, r.2)

/-- The lines of the answer. -/
def answerMedia (cbs : List FmtMatchCb) (p : Prefs) (initial offer : Session) :
    Except Fault (List (Option Nat × Media) × Option Status) :=
  answerLines cbs p initial offer.media (initial.media.map fun m => (m, false)) none

/-- The end of `create_answer`. Without an active line it returns the status of the last failed
match, which is success if there was none. -/
def answerStatus (initial : Session) (r : List (Option Nat × Media) × Option Status) :
    Except Status Session :=
  let answer := { initial with media := r.1.map (·.2) }
  if answer.media.any fun m => m.desc.port != 0 then .ok answer
  else
    match r.2 with
    | none => .ok answer
    | some e => .error e

/-- `create_answer`. -/
def createAnswer (cbs : List FmtMatchCb) (p : Prefs) (initial offer : Session) :
    Except Fault (Except Status Session) :=
  match validate offer with
  | .error e => .ok (.error e)
  | .ok () => do
      let r ← answerMedia cbs p initial offer
      return answerStatus initial r

end Sdp

/-! ## The offer/answer negotiator

`pjmedia_sdp_neg` of `pjmedia/src/pjmedia/sdp_neg.c`: the state machine of RFC 3264 around
`process_answer` and `create_answer`.

The five descriptions of a negotiator are separate objects: whatever is stored is a clone, or the
only remaining reference to what was stored before. Each of them may be absent, and using an
absent one is the fault `absentSdp`. An operation whose arguments or state are refused returns a
status and changes nothing (`PJ_ASSERT_RETURN`).
-/

namespace Sdp

open MachineInt

/-- `pjmedia_sdp_neg_state`, without `STATE_NULL`, which no negotiator is ever in. -/
inductive NegState where
  | localOffer
  | remoteOffer
  | waitNego
  | done
  deriving DecidableEq

/-- `struct pjmedia_sdp_neg`. -/
structure Neg where
  state : NegState
  prefs : Prefs
  hasRemoteAnswer : Bool
  answerWasRemote : Bool
  initialSdp : Option Session
  activeLocalSdp : Option Session
  activeRemoteSdp : Option Session
  negLocalSdp : Option Session
  negRemoteSdp : Option Session
  deriving DecidableEq

/-- How an operation on a negotiator can go wrong: it uses a description that is not there, or a
function on the descriptions that are there goes wrong. -/
inductive NegFault where
  | absentSdp
  | inside (f : Fault)
  deriving DecidableEq

/-- A pointer that is followed. -/
def deref (s : Option Session) : Except NegFault Session :=
  match s with
  | some s => .ok s
  | none => .error .absentSdp

/-- A function on descriptions is called. -/
def inside {α : Type} (x : Except Fault α) : Except NegFault α := x.mapError .inside

/-- The version of a description is replaced. -/
def Session.withVersion (s : Session) (v : Nat) : Session :=
  { s with origin := { s.origin with version := v } }

/-- The next version, in a `pj_uint32_t`. -/
def nextVersion (s : Session) : Nat := uint32 (s.origin.version + 1)

/-! ## Creation -/

/-- `pjmedia_sdp_neg_create_w_local_offer`. -/
def createWLocalOffer (loc : Session) : Except Status Neg := do
  validate loc
  return { state := .localOffer, prefs := ⟨true, false⟩, hasRemoteAnswer := false,
           answerWasRemote := false, initialSdp := some loc, activeLocalSdp := none,
           activeRemoteSdp := none, negLocalSdp := some loc, negRemoteSdp := none }

/-- `pjmedia_sdp_neg_create_w_remote_offer`. -/
def createWRemoteOffer (initial : Option Session) (remote : Session) : Except Status Neg := do
  validate2 remote false
  let neg : Neg :=
    { state := .remoteOffer, prefs := ⟨true, false⟩, hasRemoteAnswer := false,
      answerWasRemote := false, initialSdp := none, activeLocalSdp := none,
      activeRemoteSdp := none, negLocalSdp := none, negRemoteSdp := some remote }
  match initial with
  | some s =>
      validate s
      return { neg with initialSdp := some s, negLocalSdp := some s, state := .waitNego }
  | none => return neg

/-! ## Operations -/

/-- What an operation returns: the status (`none` is `PJ_SUCCESS`), the negotiator afterwards, and
the local description that it hands out as an offer or an answer. -/
structure Reply where
  status : Option Status
  neg : Neg
  emitted : Option Session
  deriving DecidableEq

/-- The operation is refused. -/
def Neg.refuse (neg : Neg) (e : Status) : Reply := ⟨some e, neg, none⟩

/-- The loop of `modify_local_offer2` that puts the lines of the new offer in the order of the old
one and adds the missing ones. `count` is the number of lines of the new offer, and the list
holds those that are not in their place yet. -/
def reorderMedia (loc : Session) : List Media → Nat → List Media → Except Fault (List Media)
  | [], _, news => .ok news
  | om :: os, count, news =>
      match news.findIdx? fun nm => nm.desc.media == om.desc.media with
      | some k => do
          let r ← reorderMedia loc os count (news.eraseIdx k)
          return news.getD k om :: r
      | none =>
          if count < maxMedia then do
            let r ← reorderMedia loc os (count + 1) news
            return sdpMediaCloneDeactivate om om loc :: r
          else .error .outOfBounds

/-- The lines of the new offer. -/
def newOfferMedia (flags : Nat) (loc oldOffer : Session) : Except Fault (List Media) :=
  -- PJMEDIA_SDP_NEG_ALLOW_MEDIA_CHANGE
  if flags &&& 1 = 0 then reorderMedia loc oldOffer.media loc.media.length loc.media
  else
    .ok (loc.media ++
      (oldOffer.media.drop loc.media.length).map fun m => sdpMediaCloneDeactivate m m loc)

/-- The new offer: its `o=` line is that of the old offer, with the next version. -/
def newOffer (flags : Nat) (loc oldOffer : Session) : Except Fault Session := do
  let media ← newOfferMedia flags loc oldOffer
  return { loc with origin := { oldOffer.origin with version := nextVersion oldOffer },
                    media := media }

/-- `pjmedia_sdp_neg_modify_local_offer2`. -/
def modifyLocalOffer2 (neg : Neg) (flags : Nat) (loc : Session) : Except NegFault Reply :=
  if neg.state ≠ .done then .ok (neg.refuse .einstate)
  else
    match validate loc with
    | .error e => .ok (neg.refuse e)
    | .ok () => do
        let oldOffer ← deref neg.activeLocalSdp
        let offer ← inside (newOffer flags loc oldOffer)
        return ⟨none, { neg with state := .localOffer, initialSdp := some offer,
                                 negLocalSdp := some offer }, some offer⟩

/-- `pjmedia_sdp_neg_send_local_offer`. -/
def sendLocalOffer (neg : Neg) : Except NegFault Reply :=
  match neg.state with
  | .done =>
      match neg.activeLocalSdp with
      | none => .ok (neg.refuse .enoactive)
      | some s =>
          .ok ⟨none, { neg with state := .localOffer, negLocalSdp := some s,
                                initialSdp := some s }, some s⟩
  | .localOffer => do
      let s ← deref neg.negLocalSdp
      return ⟨none, neg, some s⟩
  | _ => .ok (neg.refuse .einstate)

/-- `pjmedia_sdp_neg_set_remote_answer`. -/
def setRemoteAnswer (neg : Neg) (remote : Session) : Except NegFault Reply :=
  if neg.state ≠ .localOffer then .ok (neg.refuse .einstate)
  else
    .ok ⟨none, { neg with state := .waitNego, hasRemoteAnswer := true,
                          negRemoteSdp := some remote }, none⟩

/-- `pjmedia_sdp_neg_set_remote_offer`. -/
def setRemoteOffer (neg : Neg) (remote : Session) : Except NegFault Reply :=
  if neg.state ≠ .done then .ok (neg.refuse .einstate)
  else .ok ⟨none, { neg with state := .remoteOffer, negRemoteSdp := some remote }, none⟩

/-- `pjmedia_sdp_neg_set_local_answer`. The call without a description is refused before the
branch that would use the initial one. -/
def setLocalAnswer (neg : Neg) (loc : Option Session) : Except NegFault Reply :=
  match loc with
  | none => .ok (neg.refuse .einval)
  | some loc =>
      if neg.state ≠ .remoteOffer then .ok (neg.refuse .einstate)
      else
        let neg := { neg with state := .waitNego, negLocalSdp := some loc }
        match neg.initialSdp with
        | some i =>
            let answer := { loc with origin := { loc.origin with id := i.origin.id } }
            .ok ⟨none, { neg with negLocalSdp := some answer }, none⟩
        | none => .ok ⟨none, { neg with initialSdp := some loc }, none⟩

/-- The temporary descriptions are cleared and the state is `DONE`. -/
def Neg.finish (neg : Neg) : Neg :=
  { neg with state := .done, negLocalSdp := none, negRemoteSdp := none, hasRemoteAnswer := false }

/-- `pjmedia_sdp_neg_cancel_offer`. -/
def cancelOffer (neg : Neg) : Except NegFault Reply :=
  if neg.state ≠ .localOffer ∧ neg.state ≠ .remoteOffer then .ok (neg.refuse .einstate)
  else
    let active :=
      if neg.state = .localOffer then
        neg.activeLocalSdp.map fun s => s.withVersion (nextVersion s)
      else neg.activeLocalSdp
    .ok ⟨none, { neg with activeLocalSdp := active }.finish, none⟩

/-- The end of `pjmedia_sdp_neg_negotiate`. -/
def Neg.negotiated (neg : Neg) : Neg :=
  { neg.finish with answerWasRemote := neg.hasRemoteAnswer }

/-- The part of `negotiate` for an answer of the remote. -/
def negotiateOffer (cbs : List FmtMatchCb) (neg : Neg) (allowAsym : Bool) (remote : Session) :
    Except NegFault Reply := do
  let loc ← deref neg.negLocalSdp
  let r ← inside (processAnswer cbs loc remote allowAsym)
  match r with
  | .error e => return ⟨some e, neg.negotiated, none⟩
  | .ok (active, remote) =>
      return ⟨none, { neg with activeLocalSdp := some active,
                               activeRemoteSdp := some remote }.negotiated, none⟩

/-- The part of `negotiate` for an offer of the remote. -/
def negotiateAnswer (cbs : List FmtMatchCb) (neg : Neg) (remote : Session) :
    Except NegFault Reply := do
  let loc ← deref neg.negLocalSdp
  let r ← inside (createAnswer cbs neg.prefs loc remote)
  match r with
  | .error e => return ⟨some e, neg.negotiated, none⟩
  | .ok answer =>
      let previous ← deref (neg.activeLocalSdp.or neg.initialSdp)
      let answer := answer.withVersion (nextVersion previous)
      return ⟨none, { neg with activeLocalSdp := some answer,
                               activeRemoteSdp := some remote }.negotiated, some answer⟩

/-- `pjmedia_sdp_neg_negotiate`. -/
def negotiate (cbs : List FmtMatchCb) (neg : Neg) (allowAsym : Bool) : Except NegFault Reply :=
  if neg.state ≠ .waitNego then .ok (neg.refuse .einstate)
  else
    match neg.negRemoteSdp with
    | none => .ok (neg.refuse .ebug)
    | some remote =>
        if neg.hasRemoteAnswer then negotiateOffer cbs neg allowAsym remote
        else negotiateAnswer cbs neg remote

/-! ## Runs -/

/-- The operations on a negotiator. -/
inductive Op where
  | setPreferRemoteCodecOrder (b : Bool)
  | setAnswerMultipleCodecs (b : Bool)
  | modifyLocalOffer2 (flags : Nat) (loc : Session)
  | sendLocalOffer
  | setRemoteAnswer (remote : Session)
  | setRemoteOffer (remote : Session)
  | setLocalAnswer (loc : Option Session)
  | cancelOffer
  | negotiate (allowAsym : Bool)
  deriving DecidableEq

/-- An operation is called. -/
def call (cbs : List FmtMatchCb) (neg : Neg) : Op → Except NegFault Reply
  | .setPreferRemoteCodecOrder b =>
      .ok ⟨none, { neg with prefs := { neg.prefs with preferRemoteCodecOrder := b } }, none⟩
  | .setAnswerMultipleCodecs b =>
      .ok ⟨none, { neg with prefs := { neg.prefs with answerWithMultipleCodecs := b } }, none⟩
  | .modifyLocalOffer2 flags loc => modifyLocalOffer2 neg flags loc
  | .sendLocalOffer => sendLocalOffer neg
  | .setRemoteAnswer remote => setRemoteAnswer neg remote
  | .setRemoteOffer remote => setRemoteOffer neg remote
  | .setLocalAnswer loc => setLocalAnswer neg loc
  | .cancelOffer => cancelOffer neg
  | .negotiate allowAsym => negotiate cbs neg allowAsym

/-- A negotiator with the local descriptions it has handed out, the last one first. -/
structure Dialog where
  neg : Neg
  emitted : List Session
  deriving DecidableEq

/-- One operation on a dialog. -/
def step (cbs : List FmtMatchCb) (d : Dialog) (a : Op) : Except NegFault Dialog := do
  let r ← call cbs d.neg a
  return ⟨r.neg, r.emitted.toList ++ d.emitted⟩

/-- A dialog begins with one of the two `create` functions. -/
inductive Begins : Dialog → Prop where
  | localOffer {loc : Session} {neg : Neg} (h : createWLocalOffer loc = .ok neg) : Begins ⟨neg, []⟩
  | remoteOffer {initial : Option Session} {remote : Session} {neg : Neg}
      (h : createWRemoteOffer initial remote = .ok neg) : Begins ⟨neg, []⟩

end Sdp
