import VeSmart.Metrics.Import

set_option autoImplicit false

/-! # How an import fails

The service looks at the category of a failure and at its status to decide whether a batch is
kept. Only a final response that has been read is a failure of HTTP: whatever breaks the reading
of a response is told as one of the network, of a deadline or of a malformed response, and the
batch is kept (`importBatch_ends`). -/

namespace VeSmart.Metrics

open VeSmart.Lib VeSmart.Domain

/-! ## Reading -/

/-- A failure of the reader. -/
def NotHttp (failure : Failure) : Prop := failure.1 ≠ .http

theorem readMore_notHttp {α : Type} {n : Nat} {done : List UInt8 → Option (Except Failure α)}
    (h : ∀ buffer e, done buffer = some (.error e) → NotHttp e) :
    FailsIn NotHttp (readMore n done) := by
  refine gather_failsIn (fun e => ?_) (fun e he => ?_) h
  · cases e <;> exact FailureCategory.noConfusion
  · cases he
    exact FailureCategory.noConfusion

theorem lookFor_notHttp (find : List UInt8 → Option Nat) (limit : Nat) (tooLong : String)
    (buffer : List UInt8) (e : Failure) (h : lookFor find limit tooLong buffer = some (.error e)) :
    NotHttp e := by
  unfold lookFor at h
  cases hfind : find buffer with
  | some pos =>
      rw [hfind] at h
      cases h
  | none =>
      rw [hfind] at h
      dsimp only at h
      split_ifs at h
      cases h
      exact FailureCategory.noConfusion

theorem readHead_notHttp (limit : Nat) : FailsIn NotHttp (readHead limit) := by
  refine (readMore_notHttp (lookFor_notHttp _ _ _)).bind fun pos => ?_
  exact (drain_failsIn _).bind fun head => .pure _

theorem readLine_notHttp (limit : Nat) : FailsIn NotHttp (readLine limit) := by
  refine (readMore_notHttp (lookFor_notHttp _ _ _)).bind fun pos => ?_
  exact (drain_failsIn _).bind fun line => .pure _

theorem fill_notHttp (n take : Nat) : FailsIn NotHttp (fill n take) := by
  refine readMore_notHttp fun buffer e h => ?_
  split_ifs at h
  cases h

theorem readExact_notHttp (n : Nat) : FailsIn NotHttp (readExact n) :=
  (fill_notHttp n n).bind fun _ => drain_failsIn n

theorem checkedAdd_notHttp (rt : Runtime) (a b : Nat) : FailsIn NotHttp (checkedAdd rt a b) := by
  intro r e h
  rw [checkedAdd] at h
  split_ifs at h
  cases h

theorem checkedSub_notHttp (a b : Nat) : FailsIn NotHttp (checkedSub a b) := by
  intro r e h
  rw [checkedSub] at h
  split_ifs at h
  cases h

theorem skipTrailers_notHttp : FailsIn NotHttp skipTrailers := by
  refine .iterate (fun u => ?_) ()
  exact (readLine_notHttp maxLine).bind fun line => .pure _

theorem chunkData_notHttp (rt : Runtime) (limit : Nat) (body : List UInt8) (size : Nat) :
    FailsIn NotHttp (chunkData rt limit body size) := by
  unfold chunkData
  refine (checkedAdd_notHttp rt limit 1).bind fun most => ?_
  refine (checkedSub_notHttp most body.length).bind fun room => ?_
  refine (fill_notHttp _ _).bind fun _ => ?_
  refine (drain_failsIn _).bind fun data => ?_
  dsimp only
  split_ifs
  · exact .pure _
  · refine (readExact_notHttp 2).bind fun crlf => ?_
    split_ifs
    · exact .pure _
    · exact .throw FailureCategory.noConfusion

theorem chunkStep_notHttp (rt : Runtime) (limit : Nat) (body : List UInt8) :
    FailsIn NotHttp (chunkStep rt limit body) := by
  refine (readLine_notHttp maxLine).bind fun line => ?_
  unfold chunkBehind
  cases chunkSize rt line with
  | none => exact .throw FailureCategory.noConfusion
  | some size =>
      dsimp only
      split_ifs
      · exact skipTrailers_notHttp.bind fun _ => .pure _
      · exact chunkData_notHttp rt limit body size

theorem readToEnd_notHttp (limit : Nat) : FailsIn NotHttp (readToEnd limit) := by
  refine FailsIn.bind (gather_failsIn (fun e => ?_) (fun e he => ?_) fun xs e he => ?_) fun _ => ?_
  · cases e <;> exact FailureCategory.noConfusion
  · cases he
  · split_ifs at he
    cases he
  · intro r e h
    cases h

/-- Whatever breaks the reading of a body. -/
theorem readBody_notHttp (rt : Runtime) (code : UInt16) (headers : List (String × String))
    (limit : Nat) : FailsIn NotHttp (readBody rt code headers limit) := by
  rw [readBody]
  split_ifs
  · exact .pure _
  · exact (FailsIn.iterate (chunkStep_notHttp rt limit) []).bind fun body => .pure _
  · cases contentLength rt headers with
    | none => exact readToEnd_notHttp limit
    | some n =>
        dsimp only
        refine (checkedAdd_notHttp rt limit 1).bind fun most => ?_
        refine (fill_notHttp _ _).bind fun _ => ?_
        exact (drain_failsIn _).bind fun body => .pure _

/-! ## The response -/

theorem judgeHead_notHttp {interim : Nat} {head : String × String} {failure : ImportFailure}
    (h : judgeHead interim head = .error failure) : failure.category ≠ .http := by
  unfold judgeHead at h
  split at h
  · cases h
    exact FailureCategory.noConfusion
  · split_ifs at h
    cases h
    exact FailureCategory.noConfusion

theorem headStep_notHttp (interim : Nat) :
    FailsIn (fun failure : ImportFailure => failure.category ≠ .http) (headStep interim) := by
  unfold headStep
  split_ifs
  · exact .throw FailureCategory.noConfusion
  · refine FailsIn.bind ((readHead_notHttp maxHeaderBytes).mapError fun _ h => h) fun head => ?_
    unfold settled
    rcases hjudge : judgeHead interim head with failure | next
    · exact .throw (judgeHead_notHttp hjudge)
    · exact .pure _

/-- A response that cannot be read is no failure of HTTP. -/
theorem readResponse_notHttp (rt : Runtime) (limit : Nat) :
    FailsIn (fun failure : ImportFailure => failure.category ≠ .http) (readResponse rt limit) := by
  refine FailsIn.bind (.iterate headStep_notHttp 0) fun head => ?_
  refine FailsIn.bind ((readBody_notHttp rt head.code head.headers limit).mapError
    fun _ h => h) fun body => ?_
  exact .pure _

theorem headStep_safe (interim : Nat) : Safe (headStep interim) := by
  unfold headStep
  split_ifs
  · exact .throw _
  · refine Safe.bind ((readHead_safe maxHeaderBytes).mapError _) fun head => ?_
    unfold settled
    cases judgeHead interim head with
    | error failure => exact .throw _
    | ok next => exact .pure _

theorem readResponse_safe {rt : Runtime} {limit : Nat} (hlimit : limit < rt.usizeMax) :
    Safe (readResponse rt limit) := by
  refine Safe.bind (Safe.iterate (fun _ => True) (fun interim _ => headStep_safe interim)
    (fun _ _ _ _ _ _ => trivial) trivial) fun head => ?_
  refine Safe.bind ((readBody_safe hlimit head.code head.headers).mapError _) fun body => ?_
  exact .pure _

/-! ## The import -/

section

variable {rt : Runtime} {c : VictoriaMetricsClient} {peer : Peer} {body : String}

/-- The peer took the request in time, and `raw` is its final response, read to the end. -/
structure Responded (rt : Runtime) (c : VictoriaMetricsClient) (peer : Peer) (body : String)
    (raw : RawResponse) : Prop where
  connected : peer.connect = .done
  written : peer.write (c.request body) = .done
  inTime : peer.overdue = false
  read : ∃ r, readResponse rt c.maxErrorBody ⟨peer.arrivals (c.request body), []⟩ = .ok (raw, r)

/-- The statuses that are told to try again. -/
def BusyStatus (status : UInt16) : Prop :=
  status = 408 ∨ status = 429 ∨ (500 ≤ status ∧ status ≤ 599)

def AcceptedStatus (status : UInt16) : Prop := 200 ≤ status ∧ status ≤ 299

/-- What an outcome says of the exchange with the peer. -/
inductive ImportEnds (rt : Runtime) (c : VictoriaMetricsClient) (peer : Peer) (body : String) :
    Outcome → Prop where
  | accepted {raw : RawResponse} (hread : Responded rt c peer body raw)
      (hstatus : AcceptedStatus raw.status) : ImportEnds rt c peer body .success
  | busy {raw : RawResponse} (hread : Responded rt c peer body raw)
      (hstatus : BusyStatus raw.status) :
      ImportEnds rt c peer body (.retryable ⟨.http, some raw.status, classifyMessage raw⟩)
  | refused {raw : RawResponse} (hread : Responded rt c peer body raw)
      (haccepted : ¬ AcceptedStatus raw.status) (hbusy : ¬ BusyStatus raw.status) :
      ImportEnds rt c peer body (.permanent ⟨.http, some raw.status, classifyMessage raw⟩)
  | broken {failure : ImportFailure} (hcategory : failure.category ≠ .http)
      (hread : ∀ raw, ¬ Responded rt c peer body raw) :
      ImportEnds rt c peer body (.retryable failure)

theorem classify_ends {raw : RawResponse} (hread : Responded rt c peer body raw) :
    ImportEnds rt c peer body (classify raw) := by
  unfold classify
  split_ifs with haccepted hbusy
  · exact .accepted hread haccepted
  · exact .busy hread hbusy
  · exact .refused hread haccepted hbusy

/-- Without an exchange there is no response. -/
theorem unanswered_ends {failure : ImportFailure} (hcategory : failure.category ≠ .http)
    (h : peer.connect ≠ .done ∨ peer.write (c.request body) ≠ .done ∨ peer.overdue = true) :
    ImportEnds rt c peer body (.retryable failure) := by
  refine .broken hcategory fun raw hread => ?_
  rcases h with hconnect | hwrite | hoverdue
  · exact hconnect hread.connected
  · exact hwrite hread.written
  · rw [hread.inTime] at hoverdue
    cases hoverdue

theorem outcomeOf_ends (hlimit : c.maxErrorBody < rt.usizeMax) (hconnect : peer.connect = .done)
    (hwrite : peer.write (c.request body) = .done) (hinTime : peer.overdue = false) :
    ∃ outcome, outcomeOf (readResponse rt c.maxErrorBody
        ⟨peer.arrivals (c.request body), []⟩) = some outcome ∧
      ImportEnds rt c peer body outcome := by
  have hsafe := readResponse_safe hlimit ⟨peer.arrivals (c.request body), []⟩
  have hcategory := readResponse_notHttp rt c.maxErrorBody ⟨peer.arrivals (c.request body), []⟩
  rcases hread : readResponse rt c.maxErrorBody ⟨peer.arrivals (c.request body), []⟩ with
    (failure | _) | ⟨raw, r⟩
  · refine ⟨_, rfl, .broken (hcategory failure hread) fun raw h => ?_⟩
    obtain ⟨r, hr⟩ := h.read
    cases hread.symm.trans hr
  · exact absurd hread hsafe
  · exact ⟨_, rfl, classify_ends ⟨hconnect, hwrite, hinTime, r, hread⟩⟩

/-- An import has an outcome, and it tells what has happened: a batch is given up only when the
final response has been read and its status says so. -/
theorem importBatch_ends (hlimit : c.maxErrorBody < rt.usizeMax) :
    ∃ outcome, c.importBatch rt peer body = some outcome ∧ ImportEnds rt c peer body outcome := by
  unfold VictoriaMetricsClient.importBatch
  by_cases hoverdue : peer.overdue = true
  · rw [if_pos hoverdue]
    exact ⟨_, rfl, unanswered_ends FailureCategory.noConfusion (.inr (.inr hoverdue))⟩
  · rw [if_neg hoverdue]
    unfold VictoriaMetricsClient.importInner
    rcases hconnect : peer.connect with _ | e | _
    · have hrequest : buildRequest c.host c.port c.path body = c.request body := rfl
      rw [hrequest]
      rcases hwrite : peer.write (c.request body) with _ | e | _
      · simp only [hwrite]
        exact outcomeOf_ends hlimit hconnect hwrite (by simpa using hoverdue)
      · simp only [hwrite]
        exact ⟨_, rfl, unanswered_ends FailureCategory.noConfusion (.inr (.inl (by simp [hwrite])))⟩
      · simp only [hwrite]
        exact ⟨_, rfl, unanswered_ends FailureCategory.noConfusion (.inr (.inl (by simp [hwrite])))⟩
    · exact ⟨_, rfl, unanswered_ends FailureCategory.noConfusion (.inl (by simp [hconnect]))⟩
    · exact ⟨_, rfl, unanswered_ends FailureCategory.noConfusion (.inl (by simp [hconnect]))⟩

end

end VeSmart.Metrics
