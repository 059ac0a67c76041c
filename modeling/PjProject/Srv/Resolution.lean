import PjProject.Library.Run
import PjProject.Sdp.Session

set_option autoImplicit false

/-! # Server entries

`build_server_entries` of `pjlib-util/srv_resolver.c`, which makes the targets of an SRV resolution out
of the SRV answer, and `pj_dns_parse_a_response` of `pjlib-util/resolver.c`, which takes the addresses
out of an A answer. Names are strings, so that the fix-ups of `target_name.ptr` have no counterpart;
the array `srv` is the list of the entries in use.
-/

namespace Srv

open Sdp (Str stricmpEq)

/-! ## Parsed packets -/

abbrev InAddr := UInt32

/-- The data of a resource record. -/
inductive RrData where
  | srv (prio weight port : Nat) (target : Str)
  | cname (name : Str)
  | a (addr : InAddr)
  | other
  deriving DecidableEq

/-- `pj_dns_parsed_rr`. -/
structure ParsedRr where
  name : Str
  rdata : RrData
  deriving DecidableEq

/-- `pj_dns_parsed_packet`: the code of the header's flags, the names of the queries, the answers and the
additional records. -/
structure ParsedPacket where
  rcode : Nat
  q : List Str
  ans : List ParsedRr
  arr : List ParsedRr
  deriving DecidableEq

/-! ## Statuses and limits -/

def pjEnametoolong : Nat := 70005
def ednsNoAnswerRec : Nat := 320047
def ednsInAnswer : Nat := 320048

/-- `PJ_STATUS_FROM_DNS_RCODE`. -/
def statusFromDnsRcode (rcode : Nat) : Nat := if rcode = 0 then 0 else 320050 + rcode

/-- `PJ_DNS_MAX_IP_IN_A_REC`, which is also `ADDR_MAX_COUNT`. -/
def maxIpInARec : Nat := 8

/-- `PJ_DNS_SRV_MAX_ADDR`. -/
def srvMaxAddr : Nat := 8

/-- `PJ_MAX_HOSTNAME`, and the size of `buf_` in a `pj_dns_a_record`. -/
def maxHostname : Nat := 128

inductive Fault where
  /-- A `pj_assert` fails. -/
  | assertion
  /-- `addr` is written behind its end. -/
  | overflow
  deriving DecidableEq

/-! ## The A answer -/

/-- `pj_dns_a_record`. -/
structure ARecord where
  name : Str
  aliasName : Str
  addr : List InAddr
  deriving DecidableEq

/-- The first record of the name. -/
def findRr (ans : List ParsedRr) (name : Str) : Option ParsedRr :=
  ans.find? fun rr => stricmpEq rr.name name

/-- The loop that follows CNAME records, `left` more of them: the record it ends with, the name of this
one and the alias. -/
def followCname (ans : List ParsedRr) :
    Nat → ParsedRr → Str → Str → Except Nat (ParsedRr × Str × Str)
  | 0, _, _, _ => .error ednsInAnswer
  | left + 1, rr, resname, aliasName =>
      match rr.rdata with
      | .cname name =>
          match ans.find? fun rr => stricmpEq name rr.name with
          | none => .error ednsNoAnswerRec
          | some rr' => followCname ans left rr' name (if aliasName.length = 0 then name else aliasName)
      | _ => .ok (rr, resname, aliasName)

/-- The addresses of a name. -/
def addrsOf (rrs : List ParsedRr) (name : Str) : List InAddr :=
  rrs.filterMap fun rr =>
    match rr.rdata with
    | .a addr => if stricmpEq rr.name name then some addr else none
    | _ => none

/-- `pj_dns_parse_a_response`, or its error. -/
def parseAResponse (pkt : ParsedPacket) : Except Nat ARecord :=
  if pkt.rcode ≠ 0 then .error (statusFromDnsRcode pkt.rcode)
  else
    match pkt.q with
    | [] => .error ednsInAnswer
    | hostname :: _ =>
        if pkt.ans.length = 0 then .error ednsNoAnswerRec
        else if maxHostname < hostname.length then .error pjEnametoolong
        else
          match findRr pkt.ans hostname with
          | none => .error ednsNoAnswerRec
          | some rr =>
              match followCname pkt.ans 20 rr hostname [] with
              | .error e => .error e
              | .ok (rr, resname, aliasName) =>
                  match rr.rdata with
                  | .a _ =>
                      if maxHostname - hostname.length < aliasName.length then .error pjEnametoolong
                      else
                        let addr := (addrsOf pkt.ans resname).take maxIpInARec
                        if addr.length = 0 then .error ednsNoAnswerRec
                        else .ok ⟨hostname, aliasName, addr⟩
                  | _ => .error ednsInAnswer

/-! ## The entries -/

/-- `struct srv_target`. -/
structure SrvTarget where
  targetName : Str
  cname : Str
  port : Nat
  priority : Nat
  weight : Nat
  addr : List InAddr
  deriving DecidableEq

/-- The records of the answer that are saved. -/
def saveRecords (ans : List ParsedRr) : List SrvTarget :=
  (ans.filterMap fun rr =>
    match rr.rdata with
    | .srv prio weight port target =>
        if maxHostname < target.length then none
        else some ⟨target, [], port, prio, weight, []⟩
    | _ => none).take srvMaxAddr

/-- `SWAP`. -/
def swap (srv : List SrvTarget) (i j : Nat) : List SrvTarget :=
  match srv[i]?, srv[j]? with
  | some a, some b => (srv.set i b).set j a
  | _, _ => srv

/-- The inner loop of the first pass, `left` entries before its end. -/
def minPriority (srv : List SrvTarget) : Nat → Nat → Nat → Nat
  | 0, _, min => min
  | left + 1, j, min =>
      match srv[j]?, srv[min]? with
      | some a, some b => minPriority srv left (j + 1) (if a.priority < b.priority then j else min)
      | _, _ => min

/-- The first pass: order the entries by their priority. -/
def sortFrom : Nat → Nat → List SrvTarget → List SrvTarget
  | 0, _, srv => srv
  | left + 1, i, srv =>
      sortFrom left (i + 1) (swap srv i (minPriority srv (srv.length - (i + 1)) (i + 1) i))

/-- The entries from `i` on that have its priority. -/
def samePriority (srv : List SrvTarget) (i : Nat) : List SrvTarget :=
  match srv.drop i with
  | [] => []
  | s :: rest => s :: rest.takeWhile fun t => t.priority == s.priority

/-- The running sums of the weights: the `sum` of each entry. -/
def runningSums : Nat → List SrvTarget → List Nat
  | _, [] => []
  | acc, s :: rest => (acc + s.weight) :: runningSums (acc + s.weight) rest

/-- Elect the entry at `i` among those of its priority; `rand` is what `pj_rand` returns. -/
def electAt (rand : Nat) (i : Nat) (srv : List SrvTarget) : Except Fault (List SrvTarget) :=
  let sums := runningSums 0 (samePriority srv i)
  if 1 < sums.length then
    match sums.findIdx? fun sum => decide (rand % (sums.getLastD 0 + 1) ≤ sum) with
    | none => .error .assertion
    | some k => .ok (swap srv i (i + k))
  else .ok srv

/-- The second pass. -/
def electFrom (rand : Nat → Nat) : Nat → Nat → List SrvTarget → Except Fault (List SrvTarget)
  | 0, _, srv => .ok srv
  | left + 1, i, srv =>
      match electAt (rand i) i srv with
      | .error e => .error e
      | .ok srv => electFrom rand left (i + 1) srv

/-- The saved records, in the order in which the servers are to be tried. -/
def orderedTargets (rand : Nat → Nat) (ans : List ParsedRr) : Except Fault (List SrvTarget) :=
  let srv := saveRecords ans
  electFrom rand srv.length 0 (sortFrom (srv.length - 1) 0 srv)

/-- An additional A record: the first target of its name gets the address. The number is what
`host_resolved` grows by. -/
def addAdditional (name : Str) (addr : InAddr) : List SrvTarget → Except Fault (List SrvTarget × Nat)
  | [] => .ok ([], 0)
  | s :: rest =>
      if stricmpEq name s.targetName then
        -- nothing keeps the index below the length of `addr`
        if s.addr.length < maxIpInARec then
          .ok ({ s with addr := s.addr ++ [addr] } :: rest, if s.addr.length = 0 then 1 else 0)
        else .error .overflow
      else
        match addAdditional name addr rest with
        | .error e => .error e
        | .ok (rest, n) => .ok (s :: rest, n)

/-- The additional section. -/
def addAllAdditional : List ParsedRr → List SrvTarget → Nat → Except Fault (List SrvTarget × Nat)
  | [], srv, resolved => .ok (srv, resolved)
  | rr :: arr, srv, resolved =>
      match rr.rdata with
      | .a addr =>
          match addAdditional rr.name addr srv with
          | .error e => .error e
          | .ok (srv, n) => addAllAdditional arr srv (resolved + n)
      | _ => addAllAdditional arr srv resolved

/-- The targets that are addresses themselves. `aton` is `pj_inet_aton`. -/
def addLiterals (aton : Str → Option InAddr) : List SrvTarget → Nat → List SrvTarget × Nat
  | [], resolved => ([], resolved)
  | s :: rest, resolved =>
      let (s', n) :=
        if s.addr.length ≠ 0 then (s, 0)
        else
          match aton s.targetName with
          | none => (s, 0)
          | some addr => ({ s with addr := [addr] }, 1)
      let (rest, resolved) := addLiterals aton rest (resolved + n)
      (s' :: rest, resolved)

/-- `build_server_entries`: the targets, and the number of those that have an address. Without any SRV
record it returns at once. -/
def buildServerEntries (rand : Nat → Nat) (aton : Str → Option InAddr) (response : ParsedPacket)
    (hostResolved : Nat) : Except Fault (List SrvTarget × Nat) :=
  if (saveRecords response.ans).length = 0 then .ok ([], hostResolved)
  else
    match orderedTargets rand response.ans with
    | .error e => .error e
    | .ok srv =>
        match addAllAdditional response.arr srv hostResolved with
        | .error e => .error e
        | .ok (srv, resolved) => .ok (addLiterals aton srv resolved)

end Srv

/-! ## SRV resolution

`resolve_hostnames` and `dns_callback` of `pjlib-util/srv_resolver.c` as a machine. A resolution waits for
its SRV answer, starts an A query for each target, one after the other, and waits for their answers. An
answer that the resolver has in its cache comes inside the call that starts the query; any other may come
at any time from then on, also while the remaining queries are being started.

One step is one answer or one start. `reports` is the history of what the application's callback was given.
-/

namespace Srv

open Sdp (Str)

/-- What is not under the control of the resolution: `pj_rand` and `pj_inet_aton`. -/
structure Env where
  rand : Nat → Nat
  inetAton : Str → Option InAddr

/-- What the resolver gives to `dns_callback`. -/
inductive Response where
  | failed (status : Nat)
  | answer (pkt : ParsedPacket)
  deriving DecidableEq

/-- An entry of a `pj_dns_srv_record`. -/
structure SrvEntry where
  priority : Nat
  weight : Nat
  port : Nat
  name : Str
  aliasName : Str
  addr : List InAddr
  deriving DecidableEq

/-- What the application's callback is given: the status and the record, if there is one. -/
structure Report where
  status : Nat
  record : Option (List SrvEntry)
  deriving DecidableEq

/-- `pj_dns_type`, as `dns_state` uses it. -/
inductive DnsState where
  | srv
  | a
  deriving DecidableEq

/-- `struct pj_dns_srv_async_query`. -/
structure SrvAsyncQuery where
  dnsState : DnsState
  lastError : Nat
  option : Nat
  domainPart : Str
  defPort : Nat
  srv : List SrvTarget
  hostResolved : Nat
  deriving DecidableEq

/-- The job of `pj_dns_srv_resolve`. -/
def SrvAsyncQuery.create (option : Nat) (domainPart : Str) (defPort : Nat) : SrvAsyncQuery :=
  ⟨.srv, 0, option, domainPart, defPort % 65536, [], 0⟩

/-- The "dummy" target for the original name. -/
def SrvAsyncQuery.dummyTarget (job : SrvAsyncQuery) : SrvTarget :=
  ⟨job.domainPart, [], job.defPort, 0, 0, []⟩

/-- The record of a report: the targets that have an address. -/
def buildRecord (srv : List SrvTarget) : List SrvEntry :=
  ((srv.filter fun s => decide (0 < s.addr.length)).map fun s =>
    ⟨s.priority, s.weight, s.port % 65536, s.targetName, s.cname, s.addr⟩).take srvMaxAddr

/-- The end of `dns_callback`: report when all hosts have been resolved. -/
def reportIfResolved (job : SrvAsyncQuery) : Except Fault (Option Report) :=
  if job.hostResolved = job.srv.length then
    if job.srv.any fun s => decide (maxIpInARec < s.addr.length) then .error .assertion
    else
      let record := buildRecord job.srv
      let status :=
        if 0 < record.length then 0 else if job.lastError = 0 then ednsNoAnswerRec else job.lastError
      .ok (some ⟨status, some record⟩)
  else .ok none

/-- What is left to do after the SRV answer. -/
inductive Next where
  | reported (report : Report)
  | resolveHostnames
  deriving DecidableEq

/-- `dns_callback` in the state `PJ_DNS_TYPE_SRV`, its first part: what is done with the response, and the
report of an error. -/
def srvResponse (env : Env) (job : SrvAsyncQuery) :
    Response → Except Fault (SrvAsyncQuery × Option Report)
  | .answer pkt =>
      if pkt.ans.length = 0 then .ok (job, none)
      else
        match buildServerEntries env.rand env.inetAton pkt job.hostResolved with
        | .error e => .error e
        | .ok (srv, resolved) => .ok ({ job with srv := srv, hostResolved := resolved }, none)
  | .failed status =>
      let job := { job with lastError := status }
      -- neither `PJ_DNS_SRV_FALLBACK_A` nor `PJ_DNS_SRV_FALLBACK_AAAA`
      if job.option &&& 3 = 0 then .ok (job, some ⟨status, none⟩) else .ok (job, none)

/-- Its second part, up to the call of `resolve_hostnames`. -/
def srvTargets (job : SrvAsyncQuery) : Except Fault (SrvAsyncQuery × Next) :=
  let job := if job.srv.length = 0 then { job with srv := [job.dummyTarget] } else job
  if job.hostResolved ≠ job.srv.length then .ok ({ job with dnsState := .a }, .resolveHostnames)
  else
    match reportIfResolved job with
    | .error e => .error e
    | .ok (some report) => .ok (job, .reported report)
    | .ok none => .error .assertion

/-- `dns_callback` in the state `PJ_DNS_TYPE_SRV`. -/
def dnsCallbackSrv (env : Env) (job : SrvAsyncQuery) (response : Response) :
    Except Fault (SrvAsyncQuery × Next) :=
  match srvResponse env job response with
  | .error e => .error e
  | .ok (job, some report) => .ok (job, .reported report)
  | .ok (job, none) => srvTargets job

/-- `dns_callback` in the state `PJ_DNS_TYPE_A`, for the target `i`. -/
def dnsCallbackA (job : SrvAsyncQuery) (i : Nat) (response : Response) :
    Except Fault (SrvAsyncQuery × Option Report) :=
  let count (job : SrvAsyncQuery) : Except Fault (SrvAsyncQuery × Option Report) :=
    let job := { job with hostResolved := job.hostResolved + 1 }
    match reportIfResolved job with
    | .error e => .error e
    | .ok report => .ok (job, report)
  match response with
  | .failed status => count { job with lastError := status }
  | .answer pkt =>
      if pkt.ans.length = 0 then count job
      else
        match parseAResponse pkt with
        | .error status => .ok (job, some ⟨status, none⟩)
        | .ok found =>
            if found.addr.length = 0 then .error .assertion
            else if maxHostname < found.aliasName.length then .error .assertion
            else
              count { job with
                srv := job.srv.modify i fun s =>
                  { s with
                    cname := found.aliasName
                    addr := s.addr ++ found.addr.take (maxIpInARec - s.addr.length) } }

/-! ## The machine -/

/-- How a call of `pj_dns_resolver_start_query` for a target goes. -/
inductive Start where
  | failed (status : Nat)
  | cached (response : Response)
  | sent
  deriving DecidableEq

/-- Where the resolution is: in front of the SRV answer, in the loop of `resolve_hostnames`, or behind
it. -/
inductive Phase where
  | waiting
  | starting (i errCnt err : Nat)
  | returned
  deriving DecidableEq

structure Resolution where
  job : SrvAsyncQuery
  phase : Phase
  /-- The targets whose A queries are outstanding. -/
  pending : List Nat
  reports : List Report
  deriving DecidableEq

inductive Event where
  | srvAnswer (response : Response)
  | start (outcome : Start)
  | answer (i : Nat) (response : Response)
  deriving DecidableEq

/-- The resolution that `pj_dns_srv_resolve` starts. -/
def Resolution.create (option : Nat) (domainPart : Str) (defPort : Nat) : Resolution :=
  ⟨.create option domainPart defPort, .waiting, [], []⟩

/-- Nothing is left to come. -/
def Resolution.idle (s : Resolution) : Prop := s.phase = .returned ∧ s.pending = []

instance decidableIdle (s : Resolution) : Decidable s.idle :=
  inferInstanceAs (Decidable (_ ∧ _))

/-- The end of a pass of the loop in `resolve_hostnames`, and behind the last one the end of
`dns_callback` if none of the queries could be started. -/
def nextTarget (s : Resolution) (i errCnt err : Nat) : Resolution :=
  if i + 1 < s.job.srv.length then { s with phase := .starting (i + 1) errCnt err }
  else if errCnt = s.job.srv.length then
    { s with phase := .returned, reports := s.reports ++ [⟨err, none⟩] }
  else { s with phase := .returned }

/-- `dns_callback` for an A query. -/
def answerA (s : Resolution) (i : Nat) (response : Response) : Except Fault Resolution :=
  match dnsCallbackA s.job i response with
  | .error e => .error e
  | .ok (job, report) => .ok { s with job := job, reports := s.reports ++ report.toList }

/-- A pass of the loop in `resolve_hostnames`. -/
def startTarget (s : Resolution) (i errCnt err : Nat) : Start → Except Fault Resolution
  | .failed status =>
      .ok (nextTarget { s with job := { s.job with hostResolved := s.job.hostResolved + 1 } } i
        (errCnt + 1) status)
  | .cached response =>
      match answerA s i response with
      | .error e => .error e
      | .ok s => .ok (nextTarget s i errCnt err)
  | .sent => .ok (nextTarget { s with pending := s.pending ++ [i] } i errCnt err)

/-- One step. An event that cannot happen changes nothing. -/
def step (env : Env) (s : Resolution) : Event → Except Fault Resolution
  | .srvAnswer response =>
      match s.phase with
      | .waiting =>
          match dnsCallbackSrv env s.job response with
          | .error e => .error e
          | .ok (job, .reported report) =>
              .ok { s with job := job, phase := .returned, reports := s.reports ++ [report] }
          | .ok (job, .resolveHostnames) => .ok { s with job := job, phase := .starting 0 0 0 }
      | _ => .ok s
  | .start outcome =>
      match s.phase with
      | .starting i errCnt err => startTarget s i errCnt err outcome
      | _ => .ok s
  | .answer i response =>
      if i ∈ s.pending then answerA { s with pending := s.pending.erase i } i response else .ok s

/-- A response that did not succeed has a status. -/
def Response.wellFormed : Response → Prop
  | .failed status => status ≠ 0
  | .answer _ => True

/-- The event can happen. -/
def enabled (s : Resolution) : Event → Prop
  | .srvAnswer response => s.phase = .waiting ∧ response.wellFormed
  | .start (.failed status) => (∃ i errCnt err, s.phase = .starting i errCnt err) ∧ status ≠ 0
  | .start (.cached response) =>
      (∃ i errCnt err, s.phase = .starting i errCnt err) ∧ response.wellFormed
  | .start .sent => ∃ i errCnt err, s.phase = .starting i errCnt err
  | .answer i response => i ∈ s.pending ∧ response.wellFormed

end Srv
