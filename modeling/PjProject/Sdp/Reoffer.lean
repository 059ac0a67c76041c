import Mathlib.Data.List.Perm.Basic
import Mathlib.Data.List.Perm.Lattice
import PjProject.Sdp.Negotiator

set_option autoImplicit false

/-! # The lines of a new offer

`pjmedia_sdp_neg_modify_local_offer2` brings the media lines of the new local description into the
order of the active one and adds disabled copies for those that are missing, in place, with
`pj_array_insert`. `reorderLoop` is this loop on the array; `reorderLoop_eq` says that it computes
`reorderMedia`, in which the lines that are in their places are already out of the list.

For every media type the lines of the result are those of the new description followed by copies of
the active ones that these do not cover (`reorderMedia_typed`). What the loop does not look at is the
end of the array.
-/

namespace Sdp

/-! ## The loop on the array -/

/-- `pj_array_insert`: the elements from `pos` to before `count` move up by one, and what was at
`count` is overwritten. -/
def pjArrayInsert {α : Type} (array : List α) (count pos : Nat) (value : α) : List α :=
  array.take pos ++ value :: ((array.drop pos).take (count - pos) ++ array.drop (count + 1))

/-- The search of the loop for a line of the type of `om`, from `oi` on. -/
def findMedia (om : Media) (oi : Nat) (media : List Media) : Option Nat :=
  ((media.drop oi).findIdx? fun nm => nm.desc.media == om.desc.media).map (oi + ·)

/-- The loop of `modify_local_offer2` without `PJMEDIA_SDP_NEG_ALLOW_MEDIA_CHANGE`. -/
def reorderLoop (loc : Session) : List Media → (oi : Nat) → List Media → Except Fault (List Media)
  | [], _, media => .ok media
  | om :: os, oi, media =>
      match findMedia om oi media with
      | some ni =>
          let nm := media.getD ni om
          reorderLoop loc os (oi + 1) (if ni ≠ oi then pjArrayInsert media ni oi nm else media)
      | none =>
          if media.length < maxMedia then
            reorderLoop loc os (oi + 1)
              (pjArrayInsert media media.length oi (sdpMediaCloneDeactivate om om loc))
          else .error .outOfBounds

variable {loc : Session} {om nm : Media} {os done news pre post : List Media}

/-- A line of the type of `om` is the first one, or there is none. -/
theorem findIdx_typed (om : Media) (news : List Media) :
    (∃ pre nm post, news = pre ++ nm :: post ∧ nm.desc.media = om.desc.media ∧
        (∀ m ∈ pre, m.desc.media ≠ om.desc.media) ∧
        (news.findIdx? fun nm => nm.desc.media == om.desc.media) = some pre.length) ∨
      ((∀ m ∈ news, m.desc.media ≠ om.desc.media) ∧
        (news.findIdx? fun nm => nm.desc.media == om.desc.media) = none) := by
  induction news with
  | nil => simp
  | cons m news ih =>
      by_cases hm : m.desc.media = om.desc.media
      · left
        exact ⟨[], m, news, rfl, hm, by simp, by simp [List.findIdx?_cons, hm]⟩
      · rcases ih with ⟨pre, nm, post, rfl, hnm, hpre, hfind⟩ | ⟨hnone, hfind⟩
        · left
          refine ⟨m :: pre, nm, post, rfl, hnm, ?_, ?_⟩
          · intro m' hm'
            rcases List.mem_cons.mp hm' with rfl | hm'
            · exact hm
            · exact hpre m' hm'
          · simp [List.findIdx?_cons, hm, hfind]
        · right
          refine ⟨?_, by simp [List.findIdx?_cons, hm, hfind]⟩
          intro m' hm'
          rcases List.mem_cons.mp hm' with rfl | hm'
          · exact hm
          · exact hnone m' hm'

/-- The line that is moved to its place. -/
theorem pjArrayInsert_move (done pre post : List Media) (nm : Media) :
    pjArrayInsert (done ++ (pre ++ nm :: post)) (done.length + pre.length) done.length nm =
      done ++ nm :: (pre ++ post) := by
  have hdrop : (done ++ (pre ++ nm :: post)).drop (done.length + pre.length + 1) = post := by
    rw [show done ++ (pre ++ nm :: post) = (done ++ pre ++ [nm]) ++ post by simp,
      List.drop_left' (by simp; omega)]
  unfold pjArrayInsert
  rw [hdrop, List.take_left, List.drop_left, Nat.add_sub_cancel_left, List.take_left]

/-- The line that is added. -/
theorem pjArrayInsert_grow (done news : List Media) (m : Media) :
    pjArrayInsert (done ++ news) (done ++ news).length done.length m = done ++ m :: news := by
  unfold pjArrayInsert
  rw [List.take_left, List.drop_left, List.drop_eq_nil_of_le (by omega), List.append_nil,
    List.length_append, Nat.add_sub_cancel_left, List.take_length]

/-- **The loop on the array computes `reorderMedia`.** -/
theorem reorderLoop_eq (os done news : List Media) :
    reorderLoop loc os done.length (done ++ news) =
      (reorderMedia loc os (done ++ news).length news).map (done ++ ·) := by
  induction os generalizing done news with
  | nil => simp [reorderLoop, reorderMedia, Except.map]
  | cons om os ih =>
      unfold reorderLoop reorderMedia findMedia
      rw [List.drop_left]
      rcases findIdx_typed om news with ⟨pre, nm, post, rfl, -, -, hfind⟩ | ⟨-, hfind⟩
      · have hget : (done ++ (pre ++ nm :: post)).getD (done.length + pre.length) om = nm := by
          simp
        have hget' : (pre ++ nm :: post).getD pre.length om = nm := by
          simp
        have herase : (pre ++ nm :: post).eraseIdx pre.length = pre ++ post := by
          simp [List.eraseIdx_append_of_length_le]
        have hplaced : (if done.length + pre.length ≠ done.length then
            pjArrayInsert (done ++ (pre ++ nm :: post)) (done.length + pre.length) done.length nm
            else done ++ (pre ++ nm :: post)) = (done ++ [nm]) ++ (pre ++ post) := by
          split
          · rw [pjArrayInsert_move]
            simp
          · have hpre : pre = [] := List.length_eq_zero_iff.mp (by omega)
            simp [hpre]
        have hnext := ih (done ++ [nm]) (pre ++ post)
        simp only [hfind, Option.map_some, hget, hget', herase, hplaced]
        rw [show done.length + 1 = (done ++ [nm]).length by simp, hnext]
        rw [show ((done ++ [nm]) ++ (pre ++ post)).length = (done ++ (pre ++ nm :: post)).length by
          simp; omega]
        cases reorderMedia loc os (done ++ (pre ++ nm :: post)).length (pre ++ post) with
        | error e => rfl
        | ok r => simp [Except.map, Bind.bind, Except.bind, Pure.pure, Except.pure]
      · simp only [hfind, Option.map_none, pjArrayInsert_grow]
        have hnext := ih (done ++ [sdpMediaCloneDeactivate om om loc]) news
        split
        · rw [show done.length + 1 = (done ++ [sdpMediaCloneDeactivate om om loc]).length by simp,
            show done ++ sdpMediaCloneDeactivate om om loc :: news =
              (done ++ [sdpMediaCloneDeactivate om om loc]) ++ news by simp, hnext]
          rw [show ((done ++ [sdpMediaCloneDeactivate om om loc]) ++ news).length =
            (done ++ news).length + 1 by simp; omega]
          cases reorderMedia loc os ((done ++ news).length + 1) news with
          | error e => rfl
          | ok r => simp [Except.map, Bind.bind, Except.bind, Pure.pure, Except.pure]
        · rfl

/-- The new lines of an offer are made by the loop on the array. -/
theorem newOfferMedia_eq {flags : Nat} (hflags : flags &&& 1 = 0) (loc old : Session) :
    newOfferMedia flags loc old = reorderLoop loc old.media 0 loc.media := by
  have h := @reorderLoop_eq loc old.media [] loc.media
  simp only [List.length_nil, List.nil_append] at h
  rw [h, newOfferMedia, if_pos hflags]
  cases reorderMedia loc old.media loc.media.length loc.media with
  | error e => rfl
  | ok r => rfl

/-! ## The lines of the result -/

/-- The media types of the lines. -/
def kinds (l : List Media) : List Str := l.map fun m => m.desc.media

/-- The line is of the media type. -/
def ofKind (kind : Str) (m : Media) : Bool := m.desc.media == kind

/-- The disabled copy of an active line. -/
def disabled (loc : Session) (om : Media) : Media := sdpMediaCloneDeactivate om om loc

theorem disabled_desc (loc : Session) (om : Media) :
    (disabled loc om).desc = { om.desc with port := 0 } := by
  simp only [disabled, sdpMediaCloneDeactivate, Media.cloneDeactivate, Media.deactivate]
  by_cases hconn : (om.conn.isNone && loc.conn.isNone) = true
  · simp [hconn]
  · simp [hconn]

theorem disabled_kind (loc : Session) (om : Media) :
    (disabled loc om).desc.media = om.desc.media := by
  rw [disabled_desc]

/-- The two ways on which a line of the active description is dealt with. -/
theorem reorderMedia_cons (loc : Session) (om : Media) (os news : List Media) (count : Nat) :
    (∃ pre nm post, news = pre ++ nm :: post ∧ nm.desc.media = om.desc.media ∧
        (∀ m ∈ pre, m.desc.media ≠ om.desc.media) ∧ reorderMedia loc (om :: os) count news =
          (reorderMedia loc os count (pre ++ post)).map (nm :: ·)) ∨
      ((∀ m ∈ news, m.desc.media ≠ om.desc.media) ∧ reorderMedia loc (om :: os) count news =
        if count < maxMedia then (reorderMedia loc os (count + 1) news).map (disabled loc om :: ·)
        else .error .outOfBounds) := by
  rcases findIdx_typed om news with ⟨pre, nm, post, rfl, hnm, hpre, hfind⟩ | ⟨hnone, hfind⟩
  · left
    refine ⟨pre, nm, post, rfl, hnm, hpre, ?_⟩
    have hget : (pre ++ nm :: post).getD pre.length om = nm := by simp
    have herase : (pre ++ nm :: post).eraseIdx pre.length = pre ++ post := by
      simp [List.eraseIdx_append_of_length_le]
    rw [reorderMedia]
    simp only [hfind, hget, herase]
    cases reorderMedia loc os count (pre ++ post) with
    | error e => rfl
    | ok r => rfl
  · right
    refine ⟨hnone, ?_⟩
    rw [reorderMedia]
    simp only [hfind]
    split
    · cases reorderMedia loc os (count + 1) news with
      | error e => rfl
      | ok r => rfl
    · rfl

theorem map_eq_ok {α β : Type} {ε : Type} {f : α → β} {x : Except ε α} {b : β}
    (h : x.map f = .ok b) : ∃ a, x = .ok a ∧ b = f a := by
  cases x with
  | error e => cases h
  | ok a =>
      cases h
      exact ⟨a, rfl, rfl⟩

/-- What the loop gives, by cases of its first line. -/
theorem reorderMedia_cons_ok {count : Nat} {r : List Media}
    (h : reorderMedia loc (om :: os) count news = .ok r) :
    (∃ pre nm post r', news = pre ++ nm :: post ∧ nm.desc.media = om.desc.media ∧
        (∀ m ∈ pre, m.desc.media ≠ om.desc.media) ∧
        reorderMedia loc os count (pre ++ post) = .ok r' ∧ r = nm :: r') ∨
      ((∀ m ∈ news, m.desc.media ≠ om.desc.media) ∧
        ∃ r', reorderMedia loc os (count + 1) news = .ok r' ∧ r = disabled loc om :: r') := by
  rcases reorderMedia_cons loc om os news count with ⟨pre, nm, post, hnews, hnm, hpre, heq⟩ | ⟨hnone, heq⟩
  · left
    rw [heq] at h
    rcases map_eq_ok h with ⟨r', hr', rfl⟩
    exact ⟨pre, nm, post, r', hnews, hnm, hpre, hr', rfl⟩
  · right
    rw [heq] at h
    split at h
    · rcases map_eq_ok h with ⟨r', hr', rfl⟩
      exact ⟨hnone, r', hr', rfl⟩
    · cases h

variable {count : Nat} {r : List Media}

/-- The types of the active lines come first. -/
theorem reorderMedia_kinds (h : reorderMedia loc os count news = .ok r) : kinds os <+: kinds r := by
  induction os generalizing count news r with
  | nil => exact List.nil_prefix
  | cons om os ih =>
      rcases reorderMedia_cons_ok h with ⟨pre, nm, post, r', -, hnm, -, hr', rfl⟩ | ⟨-, r', hr', rfl⟩
      · simpa [kinds, hnm] using ih hr'
      · simpa [kinds, disabled_kind] using ih hr'

/-- The lines of one type: those of the new description, and copies of the active ones that these do
not cover. -/
theorem reorderMedia_typed (h : reorderMedia loc os count news = .ok r) (kind : Str) :
    r.filter (ofKind kind) = news.filter (ofKind kind) ++
      ((os.filter (ofKind kind)).drop (news.filter (ofKind kind)).length).map (disabled loc) := by
  induction os generalizing count news r with
  | nil =>
      cases h
      simp
  | cons om os ih =>
      rcases reorderMedia_cons_ok h with ⟨pre, nm, post, r', rfl, hnm, hpre, hr', rfl⟩ | ⟨hnone, r', hr', rfl⟩
      · have hrest := ih hr'
        by_cases hkind : om.desc.media = kind
        · have hpre' : pre.filter (ofKind kind) = [] := by
            rw [List.filter_eq_nil_iff]
            intro m hm
            simpa [ofKind, ← hkind] using hpre m hm
          have hnm' : ofKind kind nm = true := by simp [ofKind, hnm, hkind]
          have hom : ofKind kind om = true := by simp [ofKind, hkind]
          simp only [List.filter_append, hpre', List.nil_append] at hrest
          simp [List.filter_append, hpre', hnm', hom, hrest]
        · have hnm' : ofKind kind nm = false := by simp [ofKind, hnm, hkind]
          have hom : ofKind kind om = false := by simp [ofKind, hkind]
          rw [List.filter_append] at hrest
          simp [List.filter_append, hnm', hom, hrest]
      · have hrest := ih hr'
        by_cases hkind : om.desc.media = kind
        · have hnews : news.filter (ofKind kind) = [] := by
            rw [List.filter_eq_nil_iff]
            intro m hm
            simpa [ofKind, ← hkind] using hnone m hm
          have hom : ofKind kind om = true := by simp [ofKind, hkind]
          have hdis : ofKind kind (disabled loc om) = true := by simp [ofKind, disabled_kind, hkind]
          rw [hnews] at hrest
          simp [hnews, hom, hdis, hrest]
        · have hom : ofKind kind om = false := by simp [ofKind, hkind]
          have hdis : ofKind kind (disabled loc om) = false := by simp [ofKind, disabled_kind, hkind]
          simp [hom, hdis, hrest]

/-- Every line of the new description is in the result once, and the others are copies. -/
theorem reorderMedia_perm (h : reorderMedia loc os count news = .ok r) :
    ∃ copies : List Media, copies.Sublist os ∧ r.Perm (news ++ copies.map (disabled loc)) := by
  induction os generalizing count news r with
  | nil =>
      cases h
      exact ⟨[], List.Sublist.refl _, by simp⟩
  | cons om os ih =>
      rcases reorderMedia_cons_ok h with ⟨pre, nm, post, r', rfl, -, -, hr', rfl⟩ | ⟨-, r', hr', rfl⟩
      · rcases ih hr' with ⟨copies, hsub, hperm⟩
        refine ⟨copies, hsub.cons _, ?_⟩
        calc (nm :: r').Perm (nm :: (pre ++ post ++ copies.map (disabled loc))) := hperm.cons nm
          _ = nm :: (pre ++ (post ++ copies.map (disabled loc))) := by rw [List.append_assoc]
          _ |>.Perm (pre ++ nm :: (post ++ copies.map (disabled loc))) := List.perm_middle.symm
          _ = pre ++ nm :: post ++ copies.map (disabled loc) := by simp
      · rcases ih hr' with ⟨copies, hsub, hperm⟩
        refine ⟨om :: copies, hsub.cons_cons _, ?_⟩
        exact (hperm.cons _).trans List.perm_middle.symm

/-- The media types of the active lines that have no counterpart among the new ones. -/
def uncovered (os news : List Media) : List Str := (kinds os).diff (kinds news)

theorem uncovered_covered (hnm : nm.desc.media = om.desc.media) :
    uncovered (om :: os) (pre ++ nm :: post) = uncovered os (pre ++ post) := by
  have hmem : om.desc.media ∈ kinds (pre ++ nm :: post) := by simp [kinds, ← hnm]
  have hperm : ((kinds (pre ++ nm :: post)).erase om.desc.media).Perm (kinds (pre ++ post)) := by
    have hmid : (kinds (pre ++ nm :: post)).Perm (om.desc.media :: kinds (pre ++ post)) := by
      simp [kinds, ← hnm]
    simpa using hmid.erase om.desc.media
  unfold uncovered
  rw [show kinds (om :: os) = om.desc.media :: kinds os from rfl, List.cons_diff_of_mem hmem]
  exact List.Perm.diff_left _ hperm |>.symm ▸ rfl

theorem uncovered_missing (hnone : ∀ m ∈ news, m.desc.media ≠ om.desc.media) :
    uncovered (om :: os) news = om.desc.media :: uncovered os news := by
  have hmem : om.desc.media ∉ kinds news := by
    intro hin
    rcases List.mem_map.mp hin with ⟨m, hm, heq⟩
    exact hnone m hm heq
  exact List.cons_diff_of_not_mem hmem (kinds os)

/-- The number of lines of the result: an active line without a counterpart adds one. -/
theorem reorderMedia_length (h : reorderMedia loc os count news = .ok r) :
    r.length = news.length + (uncovered os news).length := by
  induction os generalizing count news r with
  | nil =>
      cases h
      simp [uncovered, kinds]
  | cons om os ih =>
      rcases reorderMedia_cons_ok h with ⟨pre, nm, post, r', rfl, hnm, hpre, hr', rfl⟩ |
        ⟨hnone, r', hr', rfl⟩
      · rw [uncovered_covered hnm]
        simp [ih hr']
        omega
      · rw [uncovered_missing hnone]
        simp [ih hr']
        omega

/-- The loop stays in the array if and only if the lines fit it. -/
theorem reorderMedia_fits (hcount : count ≤ maxMedia) :
    (∃ r, reorderMedia loc os count news = .ok r) ↔
      count + (uncovered os news).length ≤ maxMedia := by
  induction os generalizing count news with
  | nil => simpa [reorderMedia, uncovered, kinds] using hcount
  | cons om os ih =>
      rcases reorderMedia_cons loc om os news count with ⟨pre, nm, post, rfl, hnm, -, heq⟩ |
        ⟨hnone, heq⟩
      · rw [heq, uncovered_covered hnm, ← ih hcount]
        constructor
        · rintro ⟨r, hr⟩
          rcases map_eq_ok hr with ⟨r', hr', -⟩
          exact ⟨r', hr'⟩
        · rintro ⟨r', hr'⟩
          exact ⟨nm :: r', by simp [hr', Except.map]⟩
      · rw [heq, uncovered_missing hnone, List.length_cons]
        split
        · rename_i hroom
          rw [← Nat.add_assoc, Nat.add_right_comm, ← ih hroom]
          constructor
          · rintro ⟨r, hr⟩
            rcases map_eq_ok hr with ⟨r', hr', -⟩
            exact ⟨r', hr'⟩
          · rintro ⟨r', hr'⟩
            exact ⟨disabled loc om :: r', by simp [hr', Except.map]⟩
        · constructor
          · rintro ⟨r, hr⟩
            cases hr
          · intro hfit
            omega

/-! ## The offer -/

/-- The lines `offer` of a new offer that is made of `loc` when `old` is active. -/
structure Aligned (loc old : Session) (offer : List Media) : Prop where
  covers : old.media.length ≤ offer.length
  sameType : ∀ i, i < old.media.length → (kinds offer)[i]? = (kinds old.media)[i]?
  -- each new line once, and what is left are copies of active lines with port zero
  once : ∃ copies : List Media, copies.Sublist old.media ∧
    offer.Perm (loc.media ++ copies.map (disabled loc)) ∧
      ∀ om ∈ copies, (disabled loc om).desc = { om.desc with port := 0 }
  ordered : ∀ kind, offer.filter (ofKind kind) = loc.media.filter (ofKind kind) ++
    ((old.media.filter (ofKind kind)).drop (loc.media.filter (ofKind kind)).length).map
      (disabled loc)
  bounded : offer.length ≤ maxMedia

/-- The loop aligns the lines when these fit the array. -/
theorem reorderMedia_aligned {old : Session} {r : List Media}
    (h : reorderMedia loc old.media loc.media.length loc.media = .ok r)
    (hfit : r.length ≤ maxMedia) : Aligned loc old r where
  covers := by simpa [kinds] using (reorderMedia_kinds h).length_le
  sameType := by
    rcases reorderMedia_kinds h with ⟨more, hmore⟩
    intro i hi
    rw [← hmore, List.getElem?_append_left (by simpa [kinds] using hi)]
  once := by
    rcases reorderMedia_perm h with ⟨copies, hsub, hperm⟩
    exact ⟨copies, hsub, hperm, fun om _ => disabled_desc loc om⟩
  ordered := reorderMedia_typed h
  bounded := hfit

/-- What `modify_local_offer2` does with a valid description in `DONE`. -/
theorem modifyLocalOffer2_media {neg : Neg} {flags : Nat} {loc old : Session}
    (hstate : neg.state = .done) (hvalid : validate loc = .ok ())
    (hactive : neg.activeLocalSdp = some old) (hflags : flags &&& 1 = 0) {P : List Media → Prop} :
    (∃ r offer, modifyLocalOffer2 neg flags loc = .ok r ∧ r.status = none ∧
        r.neg.negLocalSdp = some offer ∧ P offer.media) ↔
      ∃ media, reorderMedia loc old.media loc.media.length loc.media = .ok media ∧ P media := by
  have hcall : modifyLocalOffer2 neg flags loc =
      (inside (newOffer flags loc old)).map fun offer =>
        ⟨none, { neg with state := .localOffer, initialSdp := some offer,
                          negLocalSdp := some offer }, some offer⟩ := by
    rw [modifyLocalOffer2, if_neg (not_not.mpr hstate), hvalid, hactive]
    rfl
  rw [hcall, newOffer, newOfferMedia, if_pos hflags]
  cases reorderMedia loc old.media loc.media.length loc.media with
  | error e =>
      constructor
      · rintro ⟨r, offer, hr, -⟩
        cases hr
      · rintro ⟨media, hmedia, -⟩
        cases hmedia
  | ok media =>
      constructor
      · rintro ⟨r, offer, hr, -, hoffer, hp⟩
        cases hr
        cases hoffer
        exact ⟨media, rfl, hp⟩
      · rintro ⟨media', hmedia, hp⟩
        cases hmedia
        exact ⟨_, _, rfl, rfl, rfl, hp⟩

/-- **Alignment of a re-offer.** The new offer is aligned with the active description if and only if
the new lines, together with one line for each active line that they do not cover, fit the array. -/
theorem modifyLocalOffer2_aligned_iff {neg : Neg} {flags : Nat} {loc old : Session}
    (hstate : neg.state = .done) (hvalid : validate loc = .ok ())
    (hactive : neg.activeLocalSdp = some old) (hflags : flags &&& 1 = 0) :
    (∃ r offer, modifyLocalOffer2 neg flags loc = .ok r ∧ r.status = none ∧
        r.neg.negLocalSdp = some offer ∧ Aligned loc old offer.media) ↔
      loc.media.length + (uncovered old.media loc.media).length ≤ maxMedia := by
  rw [modifyLocalOffer2_media hstate hvalid hactive hflags]
  constructor
  · rintro ⟨media, hmedia, haligned⟩
    rw [← reorderMedia_length hmedia]
    exact haligned.bounded
  · intro hfit
    rcases (reorderMedia_fits (by omega)).mpr hfit with ⟨media, hmedia⟩
    have hlength : media.length ≤ maxMedia := by
      rw [reorderMedia_length hmedia]
      exact hfit
    exact ⟨media, hmedia, reorderMedia_aligned hmedia hlength⟩

/-- A description with `n` lines of the media type. -/
def linesSdp (kind : Str) (n : Nat) : Session where
  origin := ⟨[45], 7, 1, strIN, strIP4, [49]⟩
  name := [45]
  conn := some ⟨strIN, strIP4, [49]⟩
  bandw := []
  start := 0
  stop := 0
  attr := []
  media := List.replicate n ⟨⟨kind, 4000, 0, [82], [[48]]⟩, none, [], []⟩

/-- The negotiator whose active local description is `active`. -/
def doneNeg (active : Session) : Neg where
  state := .done
  hasRemoteAnswer := false
  answerWasRemote := false
  prefs := ⟨false, false⟩
  initialSdp := some active
  activeLocalSdp := some active
  activeRemoteSdp := some active
  negLocalSdp := none
  negRemoteSdp := none

/-- One line of audio is active, and the new description has one line of video. -/
theorem modifyLocalOffer2_aligned_added :
    ∃ r offer, modifyLocalOffer2 (doneNeg (linesSdp [97] 1)) 0 (linesSdp [118] 1) = .ok r ∧
      r.status = none ∧ r.neg.negLocalSdp = some offer ∧
        Aligned (linesSdp [118] 1) (linesSdp [97] 1) offer.media :=
  (modifyLocalOffer2_aligned_iff rfl (by decide +kernel) rfl rfl).mpr (by decide +kernel)

/-- Sixteen lines of video leave no room for the disabled line of audio, which is stored behind the
array. -/
theorem modifyLocalOffer2_outOfBounds :
    validate (linesSdp [118] 16) = .ok () ∧
      modifyLocalOffer2 (doneNeg (linesSdp [97] 1)) 0 (linesSdp [118] 16) =
        .error (.inside .outOfBounds) ∧
      ¬ ∃ r offer, modifyLocalOffer2 (doneNeg (linesSdp [97] 1)) 0 (linesSdp [118] 16) = .ok r ∧
        r.status = none ∧ r.neg.negLocalSdp = some offer ∧
          Aligned (linesSdp [118] 16) (linesSdp [97] 1) offer.media := by
  have hcall : modifyLocalOffer2 (doneNeg (linesSdp [97] 1)) 0 (linesSdp [118] 16) =
      .error (.inside .outOfBounds) := by decide +kernel
  refine ⟨by decide +kernel, hcall, ?_⟩
  rintro ⟨r, offer, hr, -⟩
  rw [hcall] at hr
  cases hr

end Sdp
