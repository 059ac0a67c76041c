import PjProject.Dialog.Dialog

set_option autoImplicit false

/-! # Sequence numbers of a dialog

`cseq_ordered`: in a run in which no ACK and no CANCEL has a CSeq below the last one that was received,
the requests that are sent and those that are given to the usages have increasing CSeq numbers, and
`remote.cseq` does not decrease. The condition is needed: every request sets `remote.cseq`, and ACK and
CANCEL do so without the check before it (`cseq_unordered`).
-/

namespace Dlg

open MachineInt Machine Outcome

variable {Uri Route : Type} {ops : UriOps Uri} {dlg dlg' : Dialog Uri Route}

/-! ## The numbers in order -/

/-- The CSeq numbers of the requests that are neither ACK nor CANCEL. -/
def numbers (l : List (Method × Int)) : List Int :=
  (l.filter fun r => r.1.counts).map Prod.snd

/-- The sequence numbers are in order. -/
structure InOrder (dlg : Dialog Uri Route) : Prop where
  sent : (numbers dlg.sent).Pairwise (· < ·)
  remote : dlg.remoteCseqs.Pairwise (· ≤ ·)
  delivered : (numbers dlg.delivered).Pairwise (· < ·)

/-- The sequence numbers are in order, and the next ones are above them. The local number is negative
once it has overflowed. -/
structure SeqInv (dlg : Dialog Uri Route) : Prop extends InOrder dlg where
  below : dlg.localCseq < 0 ∨ ∀ n ∈ numbers dlg.sent, n < dlg.localCseq
  local_le : dlg.localCseq ≤ 2147483647
  seen : ∀ n ∈ dlg.remoteCseqs, n ≤ dlg.remoteCseq
  taken : ∀ n ∈ numbers dlg.delivered, n ≤ dlg.remoteCseq

theorem counts_iff (m : Method) : m.counts = true ↔ m ≠ .cancel ∧ m ≠ .ack := by
  unfold Method.counts
  rw [Bool.and_eq_true, bne_iff_ne, bne_iff_ne, and_comm]

theorem numbers_append (l : List (Method × Int)) (m : Method) (n : Int) :
    numbers (l ++ [(m, n)]) = if m.counts then numbers l ++ [n] else numbers l := by
  unfold numbers
  rw [List.filter_append, List.map_append]
  by_cases h : m.counts = true
  · have hkeep : [(m, n)].filter (fun r => r.1.counts) = [(m, n)] :=
      List.filter_cons_of_pos h
    rw [if_pos h, hkeep]
    rfl
  · have hdrop : [(m, n)].filter (fun r => r.1.counts) = [] := List.filter_cons_of_neg h
    rw [if_neg h, hdrop]
    exact List.append_nil _

/-- A number above all others can be appended. -/
theorem pairwise_snoc {r : Int → Int → Prop} {l : List Int} {n : Int} (h : l.Pairwise r)
    (hn : ∀ x ∈ l, r x n) : (l ++ [n]).Pairwise r := by
  rw [List.pairwise_append]
  refine ⟨h, List.pairwise_singleton r n, fun x hx y hy => ?_⟩
  rw [List.mem_singleton.mp hy]
  exact hn x hx

/-! ## Steps -/

/-- A request that is sent: its number is not one that has overflowed. -/
def NumberOk (dlg : Dialog Uri Route) : Event Uri Route → Prop
  | .sendRequest method _ _ => method.counts = true → 0 ≤ dlg.localCseq
  | .rxRequest _ _ _ | .rxResponse _ => True

/-- An ACK or a CANCEL that is received does not have a number below the last one. -/
def AckOk (dlg : Dialog Uri Route) : Event Uri Route → Prop
  | .rxRequest req _ _ => req.method.counts = false → dlg.remoteCseq ≤ req.cseq
  | .sendRequest _ _ _ | .rxResponse _ => True

theorem int32_succ {n : Int} (h0 : 0 ≤ n) (h1 : n ≤ 2147483647) :
    int32 (n + 1) = n + 1 ∨ int32 (n + 1) < 0 := by
  unfold int32
  omega

theorem int32_le (n : Int) : int32 n ≤ 2147483647 := by
  unfold int32
  omega

theorem SeqInv.sendRequest (h : SeqInv dlg) {method : Method} (cseq : Int) (tsxCreated : Bool)
    (hok : method.counts = true → 0 ≤ dlg.localCseq) :
    SeqInv (pjsipDlgSendRequest dlg method cseq tsxCreated) := by
  unfold pjsipDlgSendRequest
  by_cases hm : method.counts = true
  · have hcounts := (counts_iff method).mp hm
    have hlocal := hok hm
    have hbelow : ∀ n ∈ numbers dlg.sent, n < dlg.localCseq := by
      rcases h.below with hneg | hall
      · omega
      · exact hall
    have hnext := int32_succ hlocal h.local_le
    rw [if_pos hcounts, if_pos hcounts]
    dsimp only
    by_cases hnot : method ≠ .ack ∧ tsxCreated = false
    · rw [if_pos hnot]
      refine ⟨⟨h.sent, h.remote, h.delivered⟩, ?_, int32_le _, h.seen, h.taken⟩
      rcases hnext with heq | hneg
      · refine Or.inr fun n hn => ?_
        have := hbelow n hn
        dsimp only
        omega
      · exact Or.inl hneg
    · rw [if_neg hnot]
      refine ⟨⟨?_, h.remote, h.delivered⟩, ?_, int32_le _, h.seen, h.taken⟩
      · dsimp only
        rw [numbers_append, if_pos hm]
        exact pairwise_snoc h.sent hbelow
      · rcases hnext with heq | hneg
        · refine Or.inr fun n hn => ?_
          dsimp only at hn ⊢
          rw [numbers_append, if_pos hm] at hn
          rcases List.mem_append.mp hn with hn | hn
          · have := hbelow n hn
            omega
          · rw [List.mem_singleton.mp hn]
            omega
        · exact Or.inl hneg
  · have hcounts : ¬ (method ≠ .cancel ∧ method ≠ .ack) := fun hc => hm ((counts_iff method).mpr hc)
    rw [if_neg hcounts, if_neg hcounts]
    dsimp only
    by_cases hnot : method ≠ .ack ∧ tsxCreated = false
    · rw [if_pos hnot]
      exact h
    · rw [if_neg hnot]
      -- An ACK or a CANCEL does not count.
      have hsame : numbers (dlg.sent ++ [(method, cseq)]) = numbers dlg.sent := by
        rw [numbers_append, if_neg hm]
      refine ⟨⟨?_, h.remote, h.delivered⟩, ?_, h.local_le, h.seen, h.taken⟩
      · dsimp only
        rw [hsame]
        exact h.sent
      · dsimp only
        rw [hsame]
        exact h.below

/-- What a step leaves as it is. -/
structure SameNumbers (dlg dlg' : Dialog Uri Route) : Prop where
  localCseq : dlg'.localCseq = dlg.localCseq
  remoteCseq : dlg'.remoteCseq = dlg.remoteCseq
  sent : dlg'.sent = dlg.sent
  delivered : dlg'.delivered = dlg.delivered
  remoteCseqs : dlg'.remoteCseqs = dlg.remoteCseqs

theorem SameNumbers.refl (dlg : Dialog Uri Route) : SameNumbers dlg dlg := ⟨rfl, rfl, rfl, rfl, rfl⟩

theorem SameNumbers.trans {dlg'' : Dialog Uri Route} (h : SameNumbers dlg dlg')
    (h' : SameNumbers dlg' dlg'') : SameNumbers dlg dlg'' :=
  ⟨h'.localCseq.trans h.localCseq, h'.remoteCseq.trans h.remoteCseq, h'.sent.trans h.sent,
    h'.delivered.trans h.delivered, h'.remoteCseqs.trans h.remoteCseqs⟩

theorem SeqInv.same (h : SeqInv dlg) (hs : SameNumbers dlg dlg') : SeqInv dlg' := by
  refine ⟨⟨?_, ?_, ?_⟩, ?_, ?_, ?_, ?_⟩
  · rw [hs.sent]
    exact h.sent
  · rw [hs.remoteCseqs]
    exact h.remote
  · rw [hs.delivered]
    exact h.delivered
  · rw [hs.localCseq, hs.sent]
    exact h.below
  · rw [hs.localCseq]
    exact h.local_le
  · rw [hs.remoteCseqs, hs.remoteCseq]
    exact h.seen
  · rw [hs.delivered, hs.remoteCseq]
    exact h.taken

theorem refreshTarget_same (ops : UriOps Uri) (dlg : Dialog Uri Route) (hdrs : List (Hdr Uri Route)) :
    SameNumbers dlg (dlg.refreshTarget ops hdrs) := by
  unfold Dialog.refreshTarget
  split
  · split
    · exact SameNumbers.refl dlg
    · exact ⟨rfl, rfl, rfl, rfl, rfl⟩
  · exact SameNumbers.refl dlg

/-- A number that is not below the last one is received. -/
theorem SeqInv.receive (h : SeqInv dlg) {cseq : Int} (hle : dlg.remoteCseq ≤ cseq)
    (tag : List UInt8) :
    SeqInv { dlg with
      remoteCseq := cseq
      remoteCseqs := dlg.remoteCseqs ++ [cseq]
      remoteTag := tag } := by
  refine ⟨⟨h.sent, ?_, h.delivered⟩, h.below, h.local_le, fun n hn => ?_, fun n hn => ?_⟩
  · exact pairwise_snoc h.remote fun n hn => (h.seen n hn).trans hle
  · rcases List.mem_append.mp hn with hn | hn
    · exact (h.seen n hn).trans hle
    · exact (List.mem_singleton.mp hn).le
  · exact (h.taken n hn).trans hle

/-- A request is given to the usages when its number has been set. -/
theorem SeqInv.deliver (h : SeqInv dlg) {method : Method} {cseq : Int}
    (heq : dlg.remoteCseq = cseq)
    (hnew : method.counts = true → ∀ n ∈ numbers dlg.delivered, n < cseq) :
    SeqInv { dlg with delivered := dlg.delivered ++ [(method, cseq)] } := by
  refine ⟨⟨h.sent, h.remote, ?_⟩, h.below, h.local_le, h.seen, fun n hn => ?_⟩
  · dsimp only
    rw [numbers_append]
    split
    · rename_i hm
      exact pairwise_snoc h.delivered (hnew hm)
    · exact h.delivered
  · dsimp only at hn ⊢
    rw [numbers_append] at hn
    split at hn
    · rcases List.mem_append.mp hn with hn | hn
      · exact h.taken n hn
      · rw [List.mem_singleton.mp hn, heq]
    · exact h.taken n hn

theorem SeqInv.rxRequest (h : SeqInv dlg) {req : Request Uri Route} {hasTsx tsxCreated : Bool}
    (hok : req.method.counts = false → dlg.remoteCseq ≤ req.cseq)
    (hstep : pjsipDlgOnRxRequest ops dlg req hasTsx tsxCreated = .ok dlg') : SeqInv dlg' := by
  unfold pjsipDlgOnRxRequest at hstep
  by_cases hlow : req.cseq ≤ dlg.remoteCseq ∧ req.method ≠ .ack ∧ req.method ≠ .cancel
  · rw [if_pos hlow] at hstep
    cases hasTsx with
    | true => cases hstep
    | false =>
        cases hstep
        exact h
  · rw [if_neg hlow] at hstep
    -- A request that counts has a larger number.
    have hlarger : req.method.counts = true → dlg.remoteCseq < req.cseq := by
      intro hm
      by_contra hcon
      have hcounts := (counts_iff req.method).mp hm
      exact hlow ⟨Int.not_lt.mp hcon, hcounts.2, hcounts.1⟩
    have hle : dlg.remoteCseq ≤ req.cseq := by
      by_cases hm : req.method.counts = true
      · exact (hlarger hm).le
      · exact hok (Bool.eq_false_iff.mpr hm)
    have hreceived := h.receive hle (if dlg.remoteTag = [] then req.fromTag else dlg.remoteTag)
    dsimp only at hstep
    split at hstep
    · cases hstep
      exact hreceived
    · cases hstep
      have hnew : req.method.counts = true → ∀ n ∈ numbers dlg.delivered, n < req.cseq :=
        fun hm n hn => lt_of_le_of_lt (h.taken n hn) (hlarger hm)
      split
      · have hsame := refreshTarget_same ops { dlg with
          remoteCseq := req.cseq
          remoteCseqs := dlg.remoteCseqs ++ [req.cseq]
          remoteTag := if dlg.remoteTag = [] then req.fromTag else dlg.remoteTag } req.hdrs
        refine (hreceived.same hsame).deliver hsame.remoteCseq fun hm n hn => hnew hm n ?_
        rw [hsame.delivered] at hn
        exact hn
      · exact hreceived.deliver rfl hnew

theorem updateRouteset_same {res : Response Uri Route} (h : dlgUpdateRouteset dlg res = .ok dlg') :
    SameNumbers dlg dlg' := by
  unfold dlgUpdateRouteset at h
  split at h
  · cases h
    exact SameNumbers.refl dlg
  · split at h
    · cases h
      exact SameNumbers.refl dlg
    · split at h
      · cases h
      · split at h
        · cases h
          exact SameNumbers.refl dlg
        · cases h
          exact ⟨rfl, rfl, rfl, rfl, rfl⟩

theorem establish_same {res : Response Uri Route} (h : establish ops dlg res = .ok dlg') :
    SameNumbers dlg dlg' := by
  unfold establish at h
  split at h
  · cases hroute : dlgUpdateRouteset { dlg with remoteTag := res.toTag } res with
    | error f =>
        rw [hroute] at h
        cases h
    | ok d =>
        rw [hroute] at h
        cases h
        have htag : SameNumbers dlg { dlg with remoteTag := res.toTag } := ⟨rfl, rfl, rfl, rfl, rfl⟩
        have hsame := (htag.trans (updateRouteset_same hroute)).trans
          (refreshTarget_same ops d res.hdrs)
        exact ⟨hsame.localCseq, hsame.remoteCseq, hsame.sent, hsame.delivered, hsame.remoteCseqs⟩
  · cases h
    exact SameNumbers.refl dlg

/-- A response changes no number. -/
theorem rxResponse_same {res : Response Uri Route}
    (h : pjsipDlgOnRxResponse ops dlg res = .ok dlg') : SameNumbers dlg dlg' := by
  unfold pjsipDlgOnRxResponse at h
  cases hest : establish ops dlg res with
  | error f =>
      rw [hest] at h
      cases h
  | ok d =>
      have hfirst := establish_same hest
      rw [hest, ok_bind] at h
      split at h
      · cases hroute : dlgUpdateRouteset (d.refreshTarget ops res.hdrs) res with
        | error f =>
            rw [hroute] at h
            cases h
        | ok d' =>
            rw [hroute] at h
            cases h
            have hsame := (hfirst.trans (refreshTarget_same ops d res.hdrs)).trans
              (updateRouteset_same hroute)
            exact ⟨hsame.localCseq, hsame.remoteCseq, hsame.sent, hsame.delivered,
              hsame.remoteCseqs⟩
      · cases h
        exact hfirst

/-! ## Runs -/

/-- **One step** keeps the sequence numbers in order. -/
theorem SeqInv.step (h : SeqInv dlg) {e : Event Uri Route} (hnum : NumberOk dlg e)
    (hack : AckOk dlg e) : Holds SeqInv (fun _ => True) (Dlg.step ops dlg e) := by
  cases e with
  | sendRequest method cseq tsxCreated => exact h.sendRequest cseq tsxCreated hnum
  | rxRequest req hasTsx tsxCreated =>
      cases hstep : pjsipDlgOnRxRequest ops dlg req hasTsx tsxCreated with
      | error f =>
          show Holds SeqInv (fun _ => True) (pjsipDlgOnRxRequest ops dlg req hasTsx tsxCreated)
          rw [hstep]
          trivial
      | ok dlg' =>
          show Holds SeqInv (fun _ => True) (pjsipDlgOnRxRequest ops dlg req hasTsx tsxCreated)
          rw [hstep]
          exact h.rxRequest hack hstep
  | rxResponse res =>
      cases hstep : pjsipDlgOnRxResponse ops dlg res with
      | error f =>
          show Holds SeqInv (fun _ => True) (pjsipDlgOnRxResponse ops dlg res)
          rw [hstep]
          trivial
      | ok dlg' =>
          show Holds SeqInv (fun _ => True) (pjsipDlgOnRxResponse ops dlg res)
          rw [hstep]
          exact h.same (rxResponse_same hstep)

theorem firstCseq_range (rand : Nat) : 0 ≤ firstCseq rand ∧ firstCseq rand ≤ 2147483647 := by
  unfold firstCseq
  omega

/-- The first numbers. -/
theorem seqInv_start {role : Role} {state : State} {tag : List UInt8} {contact : Option Uri}
    {target : Uri} {routes : List Route} {frozen : Bool} {localCseq remoteCseq : Int}
    (hle : localCseq ≤ 2147483647) :
    SeqInv ⟨role, state, false, tag, contact, target, routes, frozen, localCseq, remoteCseq, [], [],
      [remoteCseq]⟩ := by
  refine ⟨⟨List.Pairwise.nil, List.pairwise_singleton _ _, List.Pairwise.nil⟩, Or.inr nofun, hle,
    fun n hn => ?_, nofun⟩
  exact (List.mem_singleton.mp hn).le

theorem Created.seqInv (h : Created ops dlg) : SeqInv dlg := by
  cases h with
  | uac target rand => exact seqInv_start (firstCseq_range rand).2
  | @uas req rand _ hcreate =>
      rcases Option.map_eq_some_iff.mp hcreate with ⟨contact, _, rfl⟩
      exact seqInv_start (firstCseq_range rand).2
  | @fork firstDlg res _ hle hfork =>
      unfold pjsipDlgFork at hfork
      split at hfork
      · cases hfork
      · split at hfork
        · cases hfork
        · cases hfork
        · cases hfork
          exact seqInv_start hle

/-- **Sequence numbers are in order** in every state of a run that keeps its numbers below `2^31`, as
long as no ACK and no CANCEL has a number below the last one. -/
theorem cseq_ordered (created : Created ops dlg) (l : List (Event Uri Route))
    (hm : Meets (Dlg.step ops) (fun d e => NumberOk d e ∧ AckOk d e) dlg l)
    (hrun : run (Dlg.step ops) dlg l = .ok dlg') : InOrder dlg' := by
  have h := run_holds (E := fun _ => True) (fun _ _ hi hok => SeqInv.step hi hok.1 hok.2) l dlg
    created.seqInv hm
  rw [hrun] at h
  exact SeqInv.toInOrder h

/-! ## Concrete runs -/

/-- URIs that are numbers. -/
def plainOps : UriOps Nat := ⟨fun _ => true, fun a b => a == b⟩

/-- A request of the other side. -/
def plainRequest (method : Method) (cseq : Int) : Request Nat Nat :=
  ⟨method, cseq, method, [97], [.contact (some 1)]⟩

/-- A dialog that is created by an INVITE with the number 10. -/
def plainUas : Dialog Nat Nat :=
  ⟨.uas, .null, false, [97], some 1, 1, [], true, 0, 10, [], [], [10]⟩

theorem plainUas_created : Created plainOps plainUas :=
  Created.uas (show pjsipDlgCreateUas plainOps (plainRequest .invite 10) 0 = some plainUas from rfl)

instance (d : Dialog Nat Nat) (e : Event Nat Nat) : Decidable (NumberOk d e ∧ AckOk d e) := by
  cases e <;> unfold NumberOk AckOk <;> infer_instance

/-- The INVITE is acknowledged before it is followed by an UPDATE. -/
def orderedRun : List (Event Nat Nat) :=
  [.rxRequest (plainRequest .ack 10) false true, .rxRequest (plainRequest .update 11) false true,
    .sendRequest .bye 0 true]

theorem orderedRun_inOrder :
    ∃ d, run (Dlg.step plainOps) plainUas orderedRun = .ok d ∧ d.delivered.length = 2 ∧
      InOrder d := by
  have hc : checkRun (Dlg.step plainOps) (fun d e => decide (NumberOk d e ∧ AckOk d e))
      (fun d => d.delivered.length == 2) plainUas orderedRun = true := by
    decide
  rcases checkRun_sound _ _ _ _ _ hc with ⟨hm, d, hrun, hd⟩
  refine ⟨d, hrun, beq_iff_eq.mp hd, ?_⟩
  exact cseq_ordered plainUas_created orderedRun
    (Meets.mono (fun _ _ h => of_decide_eq_true h) _ _ hm) hrun

/-- An UPDATE arrives before the ACK of the INVITE, and one that was sent earlier after it. -/
def lateAckRun : List (Event Nat Nat) :=
  [.rxRequest (plainRequest .update 12) false true, .rxRequest (plainRequest .ack 10) false true,
    .rxRequest (plainRequest .update 11) false true]

/-- The sequence numbers are not in order in every run. -/
theorem cseq_unordered : Created plainOps plainUas ∧
    ∃ d, run (Dlg.step plainOps) plainUas lateAckRun = .ok d ∧
      d.remoteCseqs = [10, 12, 10, 11] ∧ numbers d.delivered = [12, 11] ∧ ¬ InOrder d := by
  refine ⟨plainUas_created, ?_⟩
  have hc : checkRun (Dlg.step plainOps) (fun _ _ => true)
      (fun d => d.remoteCseqs == [10, 12, 10, 11] && numbers d.delivered == [12, 11]) plainUas
      lateAckRun = true := by
    decide
  rcases checkRun_sound _ _ _ _ _ hc with ⟨_, d, hrun, hd⟩
  rcases Bool.and_eq_true_iff.mp hd with ⟨hremote, hdelivered⟩
  refine ⟨d, hrun, beq_iff_eq.mp hremote, beq_iff_eq.mp hdelivered, ?_⟩
  intro h
  have hsorted := h.delivered
  rw [beq_iff_eq.mp hdelivered] at hsorted
  exact absurd hsorted (by decide)

end Dlg
