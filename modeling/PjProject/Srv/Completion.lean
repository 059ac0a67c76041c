import PjProject.Library.Countdown
import PjProject.Srv.Entries
import PjProject.Srv.Resolution

set_option autoImplicit false

/-! # When a resolution reports

A resolution is done when its A queries have all been started, or have failed to, and none is
outstanding. `dns_callback` detects this by the counter `host_resolved`, which is what
`Library/Countdown.lean` is about: a query that cannot be started is counted without a look at the
counter, an unparsable answer reports without being counted, and the targets whose addresses came with
the SRV answer are counted before their queries are started as well.

`reports_once_iff` says exactly for which answers a resolution reports once and only when it is done.
-/

namespace Srv

open Sdp (Str)
open Countdown Machine

/-! ## Answers -/

/-- How the target of an A answer settles. -/
def Response.mark : Response → Mark
  | .failed _ => .counted
  | .answer pkt =>
      if pkt.ans.length = 0 then .counted
      else
        match parseAResponse pkt with
        | .error _ => .forced
        | .ok _ => .counted

/-- How the event settles a target. -/
def Event.mark : Event → Option Mark
  | .srvAnswer _ => none
  | .start (.failed _) => some .silent
  | .start (.cached response) => some response.mark
  | .start .sent => none
  | .answer _ response => some response.mark

/-- The marks of the events, in their order. -/
def marks (evs : List Event) : List Mark := evs.filterMap Event.mark

/-- A record that was parsed has addresses, and its alias fits the buffer. -/
theorem parseAResponse_ok {pkt : ParsedPacket} {found : ARecord} (h : parseAResponse pkt = .ok found) :
    found.addr.length ≠ 0 ∧ found.aliasName.length ≤ maxHostname := by
  unfold parseAResponse at h
  split at h
  · cases h
  split at h
  · cases h
  split at h
  · cases h
  split at h
  · cases h
  split at h
  · cases h
  split at h
  · cases h
  split at h
  · split at h
    · cases h
    next hlen =>
      dsimp only at h
      split at h
      · cases h
      next haddr =>
        simp only [Except.ok.injEq] at h
        rw [← h]
        exact ⟨haddr, by dsimp only; omega⟩
  · cases h

/-- No target has more addresses than it has room for. -/
def Capped (srv : List SrvTarget) : Prop := ∀ s ∈ srv, s.addr.length ≤ maxIpInARec

theorem reportIfResolved_spec {job : SrvAsyncQuery} (hcap : Capped job.srv) :
    ∃ report, reportIfResolved job = .ok report ∧
      report.isSome = decide (job.hostResolved = job.srv.length) := by
  unfold reportIfResolved
  by_cases hall : job.hostResolved = job.srv.length
  · rw [if_pos hall]
    have hany : (job.srv.any fun s => decide (maxIpInARec < s.addr.length)) = false := by
      rw [List.any_eq_false]
      intro s hs
      simpa using hcap s hs
    rw [if_neg (by simp [hany])]
    exact ⟨_, rfl, by simp [hall]⟩
  · rw [if_neg hall]
    exact ⟨none, rfl, by simp [hall]⟩

theorem capped_modify {srv : List SrvTarget} (hcap : Capped srv) (i : Nat) (cname : Str)
    (addrs : List InAddr) :
    Capped (srv.modify i fun s =>
      { s with cname := cname, addr := s.addr ++ addrs.take (maxIpInARec - s.addr.length) }) := by
  intro t ht
  rcases List.mem_iff_getElem?.mp ht with ⟨j, hj⟩
  rw [List.getElem?_modify] at hj
  rcases Option.map_eq_some_iff.mp hj with ⟨s, hs, hst⟩
  have hs' := hcap s (List.mem_of_getElem? hs)
  split at hst
  · rw [← hst]
    simp
    omega
  · rw [← hst]
    exact hs'

/-- **An A answer**: the counter grows unless the mark is forced, and the mark says whether there is a
report. -/
theorem dnsCallbackA_spec {job : SrvAsyncQuery} (hcap : Capped job.srv) (i : Nat)
    (response : Response) :
    ∃ job' report, dnsCallbackA job i response = .ok (job', report) ∧
      job'.srv.length = job.srv.length ∧ Capped job'.srv ∧
      job'.hostResolved = response.mark.bump job.hostResolved ∧
      report.isSome = fires job.srv.length job.hostResolved response.mark := by
  have hcount : ∀ job₁ : SrvAsyncQuery, Capped job₁.srv → job₁.srv.length = job.srv.length →
      job₁.hostResolved = job.hostResolved →
      ∃ report, reportIfResolved { job₁ with hostResolved := job₁.hostResolved + 1 } = .ok report ∧
        job₁.hostResolved + 1 = Mark.counted.bump job.hostResolved ∧
        report.isSome = fires job.srv.length job.hostResolved .counted := by
    intro job₁ hcap₁ hlen₁ hres₁
    rcases @reportIfResolved_spec { job₁ with hostResolved := job₁.hostResolved + 1 } hcap₁ with
      ⟨report, hrep, hsome⟩
    refine ⟨report, hrep, ?_, ?_⟩
    · simp [hres₁]
    · rw [hsome, fires_counted]
      dsimp only
      rw [hlen₁, hres₁]
  cases response with
  | failed status =>
      rcases hcount { job with lastError := status } hcap rfl rfl with ⟨report, hrep, hres, hsome⟩
      unfold dnsCallbackA
      dsimp only at hrep ⊢
      rw [hrep]
      exact ⟨_, report, rfl, rfl, hcap, hres, hsome⟩
  | answer pkt =>
      unfold dnsCallbackA Response.mark
      dsimp only
      by_cases h0 : pkt.ans.length = 0
      · rw [if_pos h0, if_pos h0]
        rcases hcount job hcap rfl rfl with ⟨report, hrep, hres, hsome⟩
        rw [hrep]
        exact ⟨_, report, rfl, rfl, hcap, hres, hsome⟩
      rw [if_neg h0, if_neg h0]
      cases hparse : parseAResponse pkt with
      | error status =>
          dsimp only
          exact ⟨job, _, rfl, rfl, hcap, rfl, rfl⟩
      | ok found =>
          rcases parseAResponse_ok hparse with ⟨haddr, halias⟩
          dsimp only
          rw [if_neg haddr, if_neg (by omega)]
          have hmod := capped_modify hcap i found.aliasName found.addr
          generalize hsrv : job.srv.modify i _ = srv at hmod ⊢
          have hlen : srv.length = job.srv.length := by
            rw [← hsrv, List.length_modify]
          rcases hcount { job with srv := srv } hmod hlen rfl with ⟨report, hrep, hres, hsome⟩
          dsimp only at hrep
          rw [hrep]
          exact ⟨_, report, rfl, hlen, hmod, hres, hsome⟩

/-! ## A step -/

/-- The queries that are still to be started. -/
def Resolution.toStart (s : Resolution) : Nat :=
  match s.phase with
  | .starting i _ _ => s.job.srv.length - i
  | _ => 0

/-- The targets that have not settled. -/
def Resolution.open (s : Resolution) : Nat := s.pending.length + s.toStart

/-- None of the queries so far could be started. -/
def Resolution.allFailed (s : Resolution) : Prop := ∃ i err, s.phase = .starting i i err

/-- The queries of `n` targets are being started or have been. -/
structure Going (n : Nat) (s : Resolution) : Prop where
  targets : s.job.srv.length = n
  capped : Capped s.job.srv
  phase : s.phase = .returned ∨ ∃ i errCnt err, s.phase = .starting i errCnt err ∧ i < n ∧
    errCnt + s.pending.length ≤ i

variable {n : Nat} {s s' : Resolution}

theorem Going.idle_iff (h : Going n s) : s.idle ↔ s.open = 0 := by
  unfold Resolution.idle Resolution.open Resolution.toStart
  rcases h.phase with hret | ⟨i, errCnt, err, hstart, hi, -⟩
  · simp [hret]
  · have hn := h.targets
    simp only [hstart, reduceCtorEq, false_and, false_iff]
    omega

/-- What settling a target does: the counter and the reports follow the mark; behind a last query that
could not be started, when no other could, there is a report. -/
structure Settles (n : Nat) (s s' : Resolution) (m : Mark) : Prop where
  going : Going n s'
  counter : s'.job.hostResolved = m.bump s.job.hostResolved
  open_eq : s'.open + 1 = s.open
  toStart : s'.toStart ≤ s.toStart ∧ (m = .silent → s'.toStart < s.toStart)
  allFailed : s'.open ≠ 0 → (s'.allFailed ↔ s.allFailed ∧ m = .silent)
  reports : s'.reports = [] ↔ s.reports = [] ∧ fires n s.job.hostResolved m = false ∧
    ¬ (s'.open = 0 ∧ s.allFailed ∧ m = .silent)
  one : s.reports = [] → s'.reports.length ≤ 1

/-- A query has been started. -/
structure Starts (n : Nat) (s s' : Resolution) : Prop where
  going : Going n s'
  counter : s'.job.hostResolved = s.job.hostResolved
  open_eq : s'.open = s.open
  toStart : s'.toStart < s.toStart
  notFailed : ¬ s'.allFailed
  reports : s'.reports = s.reports

theorem enabled_start {outcome : Start} (h : enabled s (.start outcome)) :
    ∃ i errCnt err, s.phase = .starting i errCnt err := by
  cases outcome with
  | failed status => exact h.1
  | cached response => exact h.1
  | sent => exact h

/-- The end of a pass, for a loop that is at the target `i`. -/
theorem nextTarget_spec {i errCnt err : Nat} (hn : s.job.srv.length = n) (hcap : Capped s.job.srv)
    (hi : i < n) (hcnt : errCnt + s.pending.length ≤ i + 1) :
    Going n (nextTarget s i errCnt err) ∧
      (nextTarget s i errCnt err).job = s.job ∧ (nextTarget s i errCnt err).toStart = n - (i + 1) ∧
      (nextTarget s i errCnt err).open = s.pending.length + (n - (i + 1)) ∧
      ((nextTarget s i errCnt err).allFailed ↔ i + 1 < n ∧ errCnt = i + 1) ∧
      (nextTarget s i errCnt err).reports = s.reports ++
        (if i + 1 = n ∧ errCnt = n then [⟨err, none⟩] else []) := by
  unfold nextTarget Resolution.open Resolution.toStart Resolution.allFailed
  rw [hn]
  by_cases hnext : i + 1 < n
  · rw [if_pos hnext]
    refine ⟨⟨hn, hcap, .inr ⟨i + 1, errCnt, err, rfl, hnext, hcnt⟩⟩, rfl, by simp [hn],
      by simp [hn], ?_, ?_⟩
    · simp only [Phase.starting.injEq, hnext, true_and]
      constructor
      · rintro ⟨j, err', rfl, h, -⟩
        exact h
      · rintro rfl
        exact ⟨_, err, rfl, rfl, rfl⟩
    · rw [if_neg (by omega), List.append_nil]
  · rw [if_neg hnext]
    have hin : i + 1 = n := by omega
    by_cases hfail : errCnt = n
    · rw [if_pos hfail, if_pos ⟨hin, hfail⟩]
      refine ⟨⟨hn, hcap, .inl rfl⟩, rfl, ?_, ?_, ?_, rfl⟩
      · simp
        omega
      · simp
        omega
      · simp [hnext]
    · rw [if_neg hfail, if_neg (fun h => hfail h.2)]
      refine ⟨⟨hn, hcap, .inl rfl⟩, rfl, ?_, ?_, ?_, by simp⟩
      · simp
        omega
      · simp
        omega
      · simp [hnext]

theorem mark_ne_silent (response : Response) : response.mark ≠ .silent := by
  cases response with
  | failed status => simp [Response.mark]
  | answer pkt =>
      unfold Response.mark
      dsimp only
      split
      · simp
      · split
        · simp
        · simp

/-- What an A answer does to a resolution. -/
theorem answerA_spec (hcap : Capped s.job.srv) (i : Nat) (response : Response) :
    ∃ s', answerA s i response = .ok s' ∧ s'.phase = s.phase ∧ s'.pending = s.pending ∧
      s'.job.srv.length = s.job.srv.length ∧ Capped s'.job.srv ∧
      s'.job.hostResolved = response.mark.bump s.job.hostResolved ∧
      (s'.reports = [] ↔ s.reports = [] ∧
        fires s.job.srv.length s.job.hostResolved response.mark = false) ∧
      (s.reports = [] → s'.reports.length ≤ 1) := by
  rcases dnsCallbackA_spec hcap i response with ⟨job, report, heq, hlen, hcap', hcnt, hrep⟩
  unfold answerA
  rw [heq]
  refine ⟨_, rfl, rfl, rfl, hlen, hcap', hcnt, ?_, ?_⟩
  · rw [← hrep]
    cases report with
    | none => simp
    | some r => simp
  · intro h0
    rw [h0]
    cases report with
    | none => simp
    | some r => simp

/-- **One step** settles a target or starts a query. -/
theorem step_spec (env : Env) (h : Going n s) {e : Event} (hen : enabled s e) :
    ∃ s', step env s e = .ok s' ∧
      match e.mark with
      | none => Starts n s s'
      | some m => Settles n s s' m := by
  have hn := h.targets
  cases e with
  | srvAnswer response =>
      rcases h.phase with hret | ⟨i, errCnt, err, hstart, -⟩
      · simp [enabled, hret] at hen
      · simp [enabled, hstart] at hen
  | start outcome =>
      rcases h.phase with hret | ⟨i, errCnt, err, hstart, hi, hcnt⟩
      · rcases enabled_start hen with ⟨i, errCnt, err, hstart⟩
        rw [hret] at hstart
        cases hstart
      have hstep : ∀ outcome, step env s (.start outcome) = startTarget s i errCnt err outcome := by
        intro outcome
        simp only [step, hstart]
      have hopen : s.open = s.pending.length + (n - i) := by
        simp [Resolution.open, Resolution.toStart, hstart, hn]
      have hstart_eq : s.toStart = n - i := by
        simp [Resolution.toStart, hstart, hn]
      have hall : s.allFailed ↔ errCnt = i := by
        simp only [Resolution.allFailed, hstart, Phase.starting.injEq]
        constructor
        · rintro ⟨j, err', rfl, rfl, -⟩
          rfl
        · rintro rfl
          exact ⟨_, err, rfl, rfl, rfl⟩
      cases outcome with
      | failed status =>
          rcases @nextTarget_spec n { s with job := { s.job with
            hostResolved := s.job.hostResolved + 1 } } i (errCnt + 1) status hn h.capped hi
            (by dsimp only; omega) with ⟨hgoing, hjob, hstart', hopen', hall', hrep⟩
          dsimp only at hopen' hrep
          refine ⟨_, (hstep _).trans rfl, ?_⟩
          refine ⟨hgoing, ?_, ?_, ?_, ?_, ?_, ?_⟩
          · rw [hjob]
            rfl
          · rw [hopen', hopen]
            omega
          · rw [hstart', hstart_eq]
            omega
          · intro hne
            rw [hopen'] at hne
            rw [hall', hall]
            simp only [and_true]
            omega
          · have hiff : (i + 1 = n ∧ errCnt + 1 = n) ↔
                s.pending.length + (n - (i + 1)) = 0 ∧ errCnt = i := by
              omega
            rw [hrep, hopen', hall, eq_self, and_true, ← hiff, fires_silent, eq_self, true_and]
            by_cases hlast : i + 1 = n ∧ errCnt + 1 = n
            · simp [hlast]
            · simp [hlast]
          · intro h0
            rw [hrep, h0]
            split
            · simp
            · simp
      | cached response =>
          rcases answerA_spec h.capped i response with
            ⟨s₁, heq, hphase, hpend, hlen, hcap, hcnt₁, hrep₁, hone⟩
          rcases @nextTarget_spec n s₁ i errCnt err (hlen.trans hn) hcap hi (by rw [hpend]; omega) with
            ⟨hgoing, hjob, hstart', hopen', hall', hrep⟩
          rw [if_neg (by omega), List.append_nil] at hrep
          have hns := mark_ne_silent response
          refine ⟨nextTarget s₁ i errCnt err, (hstep _).trans (by simp only [startTarget, heq]), ?_⟩
          refine ⟨hgoing, ?_, ?_, ?_, ?_, ?_, ?_⟩
          · rw [hjob, hcnt₁]
          · rw [hopen', hopen, hpend]
            omega
          · rw [hstart', hstart_eq]
            omega
          · intro _
            rw [hall']
            constructor
            · rintro ⟨-, herr⟩
              omega
            · rintro ⟨-, hm⟩
              exact absurd hm hns
          · rw [hrep, hrep₁, hn]
            simp [hns]
          · intro h0
            rw [hrep]
            exact hone h0
      | sent =>
          rcases @nextTarget_spec n { s with pending := s.pending ++ [i] } i errCnt err hn h.capped hi
            (by simp; omega) with ⟨hgoing, hjob, hstart', hopen', hall', hrep⟩
          rw [if_neg (by omega), List.append_nil] at hrep
          refine ⟨_, (hstep _).trans rfl, ?_⟩
          refine ⟨hgoing, ?_, ?_, ?_, ?_, hrep⟩
          · rw [hjob]
          · rw [hopen', hopen]
            simp
            omega
          · rw [hstart', hstart_eq]
            omega
          · rw [hall']
            omega
  | answer i response =>
      rcases hen with ⟨hmem, -⟩
      have hlen := List.length_erase_of_mem hmem
      have hpos := List.length_pos_of_mem hmem
      rcases @answerA_spec { s with pending := s.pending.erase i } h.capped i response with
        ⟨s', heq, hphase, hpend, hlen', hcap, hcnt, hrep, hone⟩
      dsimp only at hphase hpend hlen' hcnt hrep hone
      have hns := mark_ne_silent response
      refine ⟨s', by simp only [step, if_pos hmem, heq], ?_⟩
      have hstart : s'.toStart = s.toStart := by
        simp only [Resolution.toStart, hphase, hlen']
      refine ⟨⟨hlen'.trans hn, hcap, ?_⟩, hcnt, ?_, ?_, ?_, ?_, hone⟩
      · rw [hphase, hpend]
        rcases h.phase with hret | ⟨j, errCnt, err, hstart, hj, hbound⟩
        · exact .inl hret
        · exact .inr ⟨j, errCnt, err, hstart, hj, by omega⟩
      · simp only [Resolution.open, hstart, hpend]
        omega
      · exact ⟨hstart.le, fun hm => absurd hm hns⟩
      · intro _
        constructor
        · rintro ⟨j, err, hstart⟩
          rw [hphase] at hstart
          -- a query was outstanding
          rcases h.phase with hret | ⟨j', errCnt, err', hstart', -, hbound⟩
          · rw [hret] at hstart
            cases hstart
          · rw [hstart'] at hstart
            cases hstart
            omega
        · rintro ⟨-, hm⟩
          exact absurd hm hns
      · rw [hrep, hn]
        simp [hns]

/-! ## Every run -/

/-- There is one report in the run, and it is made when the resolution is done. -/
def ReportsOnce (env : Env) (s : Resolution) (evs : List Event) : Prop :=
  Always (step env) (fun s => s.reports ≠ [] → s.idle) s evs ∧
    ∃ s', run (step env) s evs = .ok s' ∧ s'.reports.length = 1

/-- The events can happen, and behind them the resolution is done. -/
structure Complete (env : Env) (s : Resolution) (evs : List Event) : Prop where
  meets : Meets (step env) enabled s evs
  done : ∀ s', run (step env) s evs = .ok s' → s'.idle

theorem Complete.tail {env : Env} {e : Event} {evs : List Event} (h : Complete env s (e :: evs))
    (hs : step env s e = .ok s') : Complete env s' evs := by
  constructor
  · exact h.meets.2 s' hs
  · intro s'' hrun
    exact h.done s'' (by rw [run_cons_ok hs]; exact hrun)

theorem reportsOnce_cons {env : Env} {e : Event} {evs : List Event} (hs : step env s e = .ok s') :
    ReportsOnce env s (e :: evs) ↔ (s.reports ≠ [] → s.idle) ∧ ReportsOnce env s' evs := by
  unfold ReportsOnce
  rw [run_cons_ok hs]
  constructor
  · rintro ⟨⟨hhead, hrest⟩, hone⟩
    exact ⟨hhead, hrest s' hs, hone⟩
  · rintro ⟨hhead, hrest, hone⟩
    refine ⟨⟨hhead, ?_⟩, hone⟩
    intro s'' hs''
    rw [hs] at hs''
    cases hs''
    exact hrest

/-- Nothing happens when the resolution is done. -/
theorem no_event (h : s.idle) {e : Event} : ¬ enabled s e := by
  rcases h with ⟨hphase, hpend⟩
  cases e with
  | srvAnswer response => simp [enabled, hphase]
  | start outcome =>
      intro hen
      rcases enabled_start hen with ⟨i, errCnt, err, hstart⟩
      rw [hphase] at hstart
      cases hstart
  | answer i response => simp [enabled, hpend]

theorem marks_cons (e : Event) (evs : List Event) :
    marks (e :: evs) = e.mark.toList ++ marks evs := by
  unfold marks
  cases hm : e.mark with
  | none => simp [hm]
  | some m => simp [hm]

/-- A target settles once. -/
theorem marks_length (env : Env) {evs : List Event} (h : Going n s) (hc : Complete env s evs) :
    (marks evs).length = s.open := by
  induction evs generalizing s with
  | nil =>
      have hidle := hc.done s rfl
      rw [h.idle_iff] at hidle
      simp [marks, hidle]
  | cons e evs ih =>
      rcases step_spec env h hc.meets.1 with ⟨s', hs, hspec⟩
      rw [marks_cons, List.length_append]
      cases hm : e.mark with
      | none =>
          rw [hm] at hspec
          rw [ih hspec.going (hc.tail hs), hspec.open_eq]
          simp
      | some m =>
          rw [hm] at hspec
          rw [ih hspec.going (hc.tail hs), ← hspec.open_eq]
          simp [Nat.add_comm]

/-- **The reports are those of the counter**, or the one behind the loop, when no query could be
started. -/
theorem reportsOnce_iff (env : Env) {evs : List Event} (h : Going n s) (hc : Complete env s evs)
    (hopen : s.open ≠ 0) (h0 : s.reports = []) :
    ReportsOnce env s evs ↔ ReportsLast n s.job.hostResolved (marks evs) ∨
      (s.allFailed ∧ ∀ e ∈ evs, e.mark = some .silent) := by
  induction evs generalizing s with
  | nil =>
      have hidle := hc.done s rfl
      rw [h.idle_iff] at hidle
      exact absurd hidle hopen
  | cons e evs ih =>
      rcases step_spec env h hc.meets.1 with ⟨s', hs, hspec⟩
      have hc' := hc.tail hs
      rw [reportsOnce_cons hs, marks_cons]
      simp only [h0, ne_eq, not_true_eq_false, false_imp_iff, true_and, List.mem_cons,
        forall_eq_or_imp]
      cases hm : e.mark with
      | none =>
          rw [hm] at hspec
          have hrest := ih hspec.going hc' (hspec.open_eq ▸ hopen) (hspec.reports.trans h0)
          rw [hrest, hspec.counter]
          simp [hspec.notFailed]
      | some m =>
          rw [hm] at hspec
          have hreports := hspec.reports
          simp only [h0, true_and] at hreports
          simp only [Option.toList_some, List.singleton_append]
          by_cases hlast : s'.open = 0
          · -- this was the last target
            have hidle := hspec.going.idle_iff.mpr hlast
            cases evs with
            | cons e' evs => exact absurd hc'.meets.1 (no_event hidle)
            | nil =>
                have hone := hspec.one h0
                have hlen : s'.reports.length = 1 ↔ s'.reports ≠ [] := by
                  rw [ne_eq, ← List.length_eq_zero_iff]
                  omega
                have honce : ReportsOnce env s' [] ↔ s'.reports.length = 1 := by
                  simp [ReportsOnce, Always, run, hidle]
                have hsingle : ReportsLast n s.job.hostResolved [m] ↔
                    fires n s.job.hostResolved m = true := Iff.rfl
                rw [honce, hlen, ne_eq, hreports]
                simp only [marks, List.filterMap_nil, hsingle, hlast, true_and,
                  Option.some.injEq, List.not_mem_nil, false_imp_iff, implies_true, and_true]
                cases fires n s.job.hostResolved m with
                | true => simp
                | false => simp
          · have hne : marks evs ≠ [] := by
              have hlen := marks_length env hspec.going hc'
              intro hnil
              simp only [hnil, List.length_nil] at hlen
              exact hlast hlen.symm
            rw [reportsLast_cons hne]
            simp only [hlast, false_and, not_false_eq_true, and_true] at hreports
            by_cases hsame : s'.reports = []
            · rw [ih hspec.going hc' hlast hsame, hspec.counter, hspec.allFailed hlast,
                hreports.mp hsame]
              simp [and_assoc]
            · -- a report while targets have not settled
              have hfires : fires n s.job.hostResolved m = true := by
                simpa [hreports] using hsame
              have hnot : ¬ ReportsOnce env s' evs := by
                rintro ⟨halways, -⟩
                exact hlast (hspec.going.idle_iff.mp (halways.head hsame))
              have hms : m ≠ .silent := by
                rintro rfl
                simp at hfires
              simp [hnot, hfires, hms]

/-! ## The SRV answer -/

/-- No query fails to start when none is left. -/
theorem not_silent (env : Env) {evs : List Event} (h : Going n s) (hc : Complete env s evs)
    (h0 : s.toStart = 0) : ∀ m ∈ marks evs, m ≠ .silent := by
  induction evs generalizing s with
  | nil => simp [marks]
  | cons e evs ih =>
      rcases step_spec env h hc.meets.1 with ⟨s', hs, hspec⟩
      rw [marks_cons]
      cases hm : e.mark with
      | none =>
          rw [hm] at hspec
          have hlt := hspec.toStart
          omega
      | some m =>
          rw [hm] at hspec
          rcases hspec.toStart with ⟨hle, hsilent⟩
          intro m' hm'
          rcases List.mem_append.mp hm' with hm' | hm'
          · simp only [Option.toList_some, List.mem_singleton] at hm'
            rw [hm']
            intro heq
            have hlt := hsilent heq
            omega
          · exact ih hspec.going (hc.tail hs) (by omega) m' hm'

/-- A single target settles in some way, and that is in order. -/
theorem single_target (env : Env) {evs : List Event} (h : Going 1 s) (hc : Complete env s evs)
    (hpend : s.pending = []) (hstart : s.toStart = 1) :
    (∀ e ∈ evs, e.mark = some .silent) ∨ Orderly 1 0 (marks evs) := by
  have hlen := marks_length env h hc
  rw [Resolution.open, hpend, hstart] at hlen
  rcases List.length_eq_one_iff.mp hlen with ⟨m, hm⟩
  by_cases hms : m = .silent
  · left
    cases evs with
    | nil => simp
    | cons e evs =>
        rcases step_spec env h hc.meets.1 with ⟨s', hs, hspec⟩
        rw [marks_cons] at hm
        cases hem : e.mark with
        | none =>
            -- the query was started, so that nothing can fail to start any more
            rw [hem] at hspec hm
            have hlt := hspec.toStart
            have hmem : m ∈ marks evs := by
              rw [show marks evs = [m] by simpa using hm]
              simp
            exact absurd hms (not_silent env hspec.going (hc.tail hs) (by omega) m hmem)
        | some m' =>
            rw [hem] at hspec hm
            have hopen : s'.open = 0 := by
              have heq := hspec.open_eq
              have hopen : s.open = 1 := by simp [Resolution.open, hpend, hstart]
              omega
            cases evs with
            | cons e' evs =>
                exact absurd (hc.tail hs).meets.1 (no_event (hspec.going.idle_iff.mpr hopen))
            | nil =>
                have hm' : m' = .silent := by simpa [marks, hms] using hm
                simp [hem, hm']
  · right
    rw [hm]
    exact ⟨[], m, rfl, by simp, hms, .inl rfl⟩

/-- The answers come in an order in which the counter tells the end: no target is given too many
addresses by the SRV answer; and every target has its address with it, or no query can be started, or
the targets settle in order. -/
def Timely (env : Env) : Response → List Event → Prop
  | .failed _, _ => True
  | .answer pkt, evs =>
      let names := targetNames env.rand pkt.ans
      names.length = 0 ∨
        (Roomy names pkt.arr ∧
          (known env.inetAton names pkt.arr = names.length ∨
            (∀ e ∈ evs, e.mark = some .silent) ∨
            Orderly names.length (known env.inetAton names pkt.arr) (marks evs)))

/-- The resolution behind an SRV answer whose targets are to be queried. -/
theorem going_first {job : SrvAsyncQuery} (hcap : Capped job.srv) (hpos : 0 < job.srv.length)
    (reports : List Report) : Going job.srv.length ⟨job, .starting 0 0 0, [], reports⟩ :=
  ⟨rfl, hcap, .inr ⟨0, 0, 0, rfl, hpos, by simp⟩⟩

/-- Without an SRV record the original name is the only target. -/
theorem srvTargets_dummy {job : SrvAsyncQuery} (hsrv : job.srv = []) (hres : job.hostResolved = 0) :
    srvTargets job =
      .ok ({ job with srv := [job.dummyTarget], dnsState := .a }, .resolveHostnames) := by
  unfold srvTargets
  rw [hsrv]
  simp [hres]

/-- With SRV records there is a report at once if every target has its address. -/
theorem srvTargets_cons {job : SrvAsyncQuery} (hcap : Capped job.srv) (hpos : 0 < job.srv.length) :
    if job.hostResolved = job.srv.length then
      ∃ report, srvTargets job = .ok (job, .reported report)
    else srvTargets job = .ok ({ job with dnsState := .a }, .resolveHostnames) := by
  unfold srvTargets
  rw [if_neg (show job.srv.length ≠ 0 by omega)]
  by_cases hall : job.hostResolved = job.srv.length
  · rw [if_pos hall]
    dsimp only
    rw [if_neg (by simpa using hall)]
    rcases reportIfResolved_spec hcap with ⟨report, hrep, hsome⟩
    rw [hrep]
    cases report with
    | none => simp [hall] at hsome
    | some r => exact ⟨r, rfl⟩
  · rw [if_neg hall]
    dsimp only
    rw [if_pos hall]

variable {env : Env} {option : Nat} {domainPart : Str} {defPort : Nat} {response : Response}
  {evs : List Event}

/-- A report instead of the A queries is the only one. -/
theorem reportsOnce_reported {job : SrvAsyncQuery} {report : Report}
    (hcb : dnsCallbackSrv env (.create option domainPart defPort) response =
      .ok (job, .reported report))
    (hc : Complete env (.create option domainPart defPort) (.srvAnswer response :: evs)) :
    ReportsOnce env (.create option domainPart defPort) (.srvAnswer response :: evs) := by
  have hs : step env (.create option domainPart defPort) (.srvAnswer response) =
      .ok ⟨job, .returned, [], [report]⟩ := by
    simp only [step, Resolution.create, hcb, List.nil_append]
  have hidle : Resolution.idle ⟨job, .returned, [], [report]⟩ := ⟨rfl, rfl⟩
  rw [reportsOnce_cons hs]
  refine ⟨fun h => absurd rfl h, ?_⟩
  cases evs with
  | cons e evs => exact absurd (hc.tail hs).meets.1 (no_event hidle)
  | nil => exact ⟨fun _ => hidle, _, rfl, rfl⟩

/-- The A queries after an SRV answer. -/
theorem reportsOnce_queries {job : SrvAsyncQuery}
    (hcb : dnsCallbackSrv env (.create option domainPart defPort) response =
      .ok (job, .resolveHostnames))
    (hcap : Capped job.srv) (hlt : job.hostResolved < job.srv.length)
    (hc : Complete env (.create option domainPart defPort) (.srvAnswer response :: evs)) :
    ReportsOnce env (.create option domainPart defPort) (.srvAnswer response :: evs) ↔
      (∀ e ∈ evs, e.mark = some .silent) ∨
        Orderly job.srv.length job.hostResolved (marks evs) := by
  have hs : step env (.create option domainPart defPort) (.srvAnswer response) =
      .ok ⟨job, .starting 0 0 0, [], []⟩ := by
    simp only [step, Resolution.create, hcb]
  have hgoing := going_first hcap (by omega) []
  have hlen := marks_length env hgoing (hc.tail hs)
  have hopen : Resolution.open ⟨job, .starting 0 0 0, [], []⟩ = job.srv.length := by
    simp [Resolution.open, Resolution.toStart]
  rw [hopen] at hlen
  have hall : Resolution.allFailed ⟨job, .starting 0 0 0, [], []⟩ := ⟨0, 0, rfl⟩
  have hcount := reportsOnce_iff env hgoing (hc.tail hs) (by omega) rfl
  dsimp only at hcount
  rw [reportsLast_iff hlen hlt] at hcount
  rw [reportsOnce_cons hs, hcount, or_comm]
  simp [hall, Resolution.create]

/-- The original name alone is always reported once. -/
theorem reportsOnce_dummy {job : SrvAsyncQuery}
    (hresp : srvResponse env (.create option domainPart defPort) response = .ok (job, none))
    (hsrv : job.srv = []) (hres : job.hostResolved = 0)
    (hc : Complete env (.create option domainPart defPort) (.srvAnswer response :: evs)) :
    ReportsOnce env (.create option domainPart defPort) (.srvAnswer response :: evs) := by
  have hcb : dnsCallbackSrv env (.create option domainPart defPort) response =
      .ok ({ job with srv := [job.dummyTarget], dnsState := .a }, .resolveHostnames) := by
    simp only [dnsCallbackSrv, hresp, srvTargets_dummy hsrv hres]
  have hcap : Capped [job.dummyTarget] := by
    simp [Capped, SrvAsyncQuery.dummyTarget]
  have hs : step env (.create option domainPart defPort) (.srvAnswer response) =
      .ok ⟨{ job with srv := [job.dummyTarget], dnsState := .a }, .starting 0 0 0, [], []⟩ := by
    simp only [step, Resolution.create, hcb]
  have hgoing := @going_first { job with srv := [job.dummyTarget], dnsState := .a } hcap (by simp) []
  have hsingle := single_target env hgoing (hc.tail hs) rfl (by simp [Resolution.toStart])
  rw [reportsOnce_queries hcb hcap (by simp [hres]) hc]
  simpa [hres] using hsingle

/-- **When a resolution reports once, and only when it is done.** -/
theorem reports_once_iff (env : Env) (option : Nat) (domainPart : Str) (defPort : Nat)
    (response : Response) (evs : List Event)
    (hc : Complete env (.create option domainPart defPort) (.srvAnswer response :: evs)) :
    ReportsOnce env (.create option domainPart defPort) (.srvAnswer response :: evs) ↔
      Timely env response evs := by
  cases response with
  | failed status =>
      simp only [Timely, iff_true]
      by_cases hfb : option &&& 3 = 0
      · have hcb : dnsCallbackSrv env (.create option domainPart defPort) (.failed status) =
            .ok ({ SrvAsyncQuery.create option domainPart defPort with lastError := status },
              .reported ⟨status, none⟩) := by
          simp [dnsCallbackSrv, srvResponse, SrvAsyncQuery.create, hfb]
        exact reportsOnce_reported hcb hc
      · have hresp : srvResponse env (.create option domainPart defPort) (.failed status) =
            .ok ({ SrvAsyncQuery.create option domainPart defPort with lastError := status }, none) := by
          simp [srvResponse, SrvAsyncQuery.create, hfb]
        exact reportsOnce_dummy hresp rfl rfl hc
  | answer pkt =>
      simp only [Timely, targetNames_length]
      by_cases h0 : (saveRecords pkt.ans).length = 0
      · simp only [h0, true_or, iff_true]
        have hresp : srvResponse env (.create option domainPart defPort) (.answer pkt) =
            .ok (.create option domainPart defPort, none) := by
          simp [srvResponse, buildServerEntries, h0, SrvAsyncQuery.create]
        exact reportsOnce_dummy hresp rfl rfl hc
      have hans : pkt.ans.length ≠ 0 := by
        intro hnil
        rw [List.eq_nil_of_length_eq_zero hnil] at h0
        exact h0 rfl
      simp only [h0, false_or]
      by_cases hroom : Roomy (targetNames env.rand pkt.ans) pkt.arr
      · rcases @buildServerEntries_ok env.inetAton env.rand pkt h0 hroom 0 with
          ⟨srv, hbuild, hlen, hcap⟩
        have hle := known_le env.inetAton (targetNames env.rand pkt.ans) pkt.arr
        rw [targetNames_length] at hle
        rw [Nat.zero_add] at hbuild
        have hresp : ∃ job, srvResponse env (.create option domainPart defPort) (.answer pkt) =
            .ok (job, none) ∧ job.srv.length = (saveRecords pkt.ans).length ∧ Capped job.srv ∧
            job.hostResolved = known env.inetAton (targetNames env.rand pkt.ans) pkt.arr := by
          refine ⟨{ SrvAsyncQuery.create option domainPart defPort with
            srv := srv
            hostResolved := known env.inetAton (targetNames env.rand pkt.ans) pkt.arr },
            ?_, hlen, hcap, rfl⟩
          simp only [srvResponse, if_neg hans, SrvAsyncQuery.create, hbuild]
        rcases hresp with ⟨job, hresp, hjob, hcapj, hres⟩
        have hcb : dnsCallbackSrv env (.create option domainPart defPort) (.answer pkt) =
            srvTargets job := by
          simp only [dnsCallbackSrv, hresp]
        have htargets := srvTargets_cons hcapj (by omega)
        simp only [hroom, true_and]
        by_cases hall : known env.inetAton (targetNames env.rand pkt.ans) pkt.arr =
            (saveRecords pkt.ans).length
        · simp only [hall, true_or, iff_true]
          rw [if_pos (by omega)] at htargets
          rcases htargets with ⟨report, htargets⟩
          exact reportsOnce_reported (hcb.trans htargets) hc
        · rw [if_neg (by omega)] at htargets
          simp only [hall, false_or]
          rw [← hjob, ← hres]
          have hlt : job.hostResolved < job.srv.length := by omega
          exact @reportsOnce_queries _ _ _ _ _ _ { job with dnsState := .a } (hcb.trans htargets)
            hcapj hlt hc
      · simp only [hroom, false_and, iff_false]
        have hs : step env (.create option domainPart defPort) (.srvAnswer (.answer pkt)) =
            .error .overflow := by
          have hbuild := @buildServerEntries_overflow env.inetAton env.rand pkt h0 hroom 0
          simp only [step, Resolution.create, dnsCallbackSrv, srvResponse, if_neg hans,
            SrvAsyncQuery.create, hbuild]
        rintro ⟨-, s', hrun, -⟩
        simp only [run, hs] at hrun
        cases hrun

/-! ## Two targets -/

instance decidableWellFormed : (response : Response) → Decidable response.wellFormed
  | .failed status => inferInstanceAs (Decidable (status ≠ 0))
  | .answer _ => inferInstanceAs (Decidable True)

instance decidableStarting (s : Resolution) :
    Decidable (∃ i errCnt err, s.phase = .starting i errCnt err) :=
  match h : s.phase with
  | .starting i errCnt err => .isTrue ⟨i, errCnt, err, rfl⟩
  | .waiting => .isFalse (by simp)
  | .returned => .isFalse (by simp)

instance decidableEnabled (s : Resolution) : (e : Event) → Decidable (enabled s e)
  | .srvAnswer response => inferInstanceAs (Decidable (s.phase = .waiting ∧ response.wellFormed))
  | .start (.failed status) =>
      inferInstanceAs (Decidable ((∃ i errCnt err, s.phase = .starting i errCnt err) ∧ status ≠ 0))
  | .start (.cached response) =>
      inferInstanceAs (Decidable ((∃ i errCnt err, s.phase = .starting i errCnt err) ∧
        response.wellFormed))
  | .start .sent => inferInstanceAs (Decidable (∃ i errCnt err, s.phase = .starting i errCnt err))
  | .answer i response => inferInstanceAs (Decidable (i ∈ s.pending ∧ response.wellFormed))

/-- A run that has been evaluated. -/
theorem complete_of_check {env : Env} {s : Resolution} {evs : List Event} {p : Resolution → Bool}
    (h : checkRun (step env) (fun s e => decide (enabled s e))
      (fun s => decide s.idle && p s) s evs = true) :
    Complete env s evs ∧ ∃ s', run (step env) s evs = .ok s' ∧ p s' = true := by
  rcases checkRun_sound _ _ _ _ _ h with ⟨hmeets, s', hrun, hs'⟩
  simp only [Bool.and_eq_true, decide_eq_true_eq] at hs'
  refine ⟨⟨hmeets.mono (fun s e he => of_decide_eq_true he), ?_⟩, s', hrun, hs'.2⟩
  intro s'' hrun'
  rw [hrun] at hrun'
  cases hrun'
  exact hs'.1

/-- `pj_rand` returns zero, and no name is an address. -/
def plainEnv : Env := ⟨fun _ => 0, fun _ => none⟩

/-- The servers are "a" and "b". -/
def twoServers : Response :=
  .answer ⟨0, [[115]], [⟨[115], .srv 1 1 5060 [97]⟩, ⟨[115], .srv 2 1 5060 [98]⟩], []⟩

/-- Both queries are sent; the second is answered and the first fails. -/
theorem reports_once_sample :
    ReportsOnce plainEnv (.create 1 [100] 5060)
      [.srvAnswer twoServers, .start .sent, .start .sent,
        .answer 1 (.answer ⟨0, [[98]], [⟨[98], .a 167772161⟩], []⟩), .answer 0 (.failed 320053)] := by
  have hcheck : checkRun (step plainEnv) (fun s e => decide (enabled s e))
      (fun s => decide s.idle && true) (.create 1 [100] 5060)
      [.srvAnswer twoServers, .start .sent, .start .sent,
        .answer 1 (.answer ⟨0, [[98]], [⟨[98], .a 167772161⟩], []⟩), .answer 0 (.failed 320053)] =
        true := by
    decide
  rw [reports_once_iff _ _ _ _ _ _ (complete_of_check hcheck).1]
  refine .inr ⟨by decide, .inr (.inr ⟨[.counted], .counted, ?_, by decide, by decide, ?_⟩)⟩
  · decide
  · left
    decide

/-- The first query is answered out of the cache and the second cannot be started: nothing is reported. -/
theorem lastStart_unreported :
    Complete plainEnv (.create 1 [100] 5060)
        [.srvAnswer twoServers, .start (.cached (.failed 320053)), .start (.failed 70018)] ∧
      ¬ ReportsOnce plainEnv (.create 1 [100] 5060)
        [.srvAnswer twoServers, .start (.cached (.failed 320053)), .start (.failed 70018)] := by
  have hcheck : checkRun (step plainEnv) (fun s e => decide (enabled s e))
      (fun s => decide s.idle && decide (s.reports = [])) (.create 1 [100] 5060)
      [.srvAnswer twoServers, .start (.cached (.failed 320053)), .start (.failed 70018)] = true := by
    decide
  rcases complete_of_check hcheck with ⟨hcomplete, s, hrun, hs⟩
  refine ⟨hcomplete, ?_⟩
  rintro ⟨-, s', hrun', hone⟩
  rw [hrun] at hrun'
  cases hrun'
  rw [of_decide_eq_true hs] at hone
  simp at hone

end Srv
