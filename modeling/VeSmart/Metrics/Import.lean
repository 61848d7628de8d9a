import VeSmart.Metrics.ResponseText

set_option autoImplicit false

/-! # Importing a batch (`victron-metrics/src/victoria_metrics.rs`)

`import` writes one request and classifies the response that it reads: interim heads first, then
the final head and its body. What the network does is a `Peer`; a deadline that passes is a part
of it. -/

namespace VeSmart.Metrics

open VeSmart.Lib VeSmart.Domain
open VeSmart.Protocol (utf8)

/-- Cap on header bytes read. -/
def maxHeaderBytes : Nat := 16 * 1024

/-- Cap on interim responses before the final one. -/
def maxInterimResponses : Nat := 8

/-- Cap on characters kept from a failure message. -/
def maxMessageChars : Nat := 300

structure ImportFailure where
  category : FailureCategory
  status : Option UInt16
  message : String
  deriving DecidableEq

inductive Outcome where
  | success
  | retryable (failure : ImportFailure)
  | permanent (failure : ImportFailure)
  deriving DecidableEq

/-- The first characters of a text; dots stand for the others. -/
def truncate (s : String) (most : Nat) : String :=
  String.ofList (s.toList.take most) ++ if most < s.length then "…" else ""

def truncateLossy (bytes : List UInt8) (most : Nat) : String := truncate (fromUtf8Lossy bytes) most

/-! ## Heads -/

/-- A final response before its body is read. -/
structure FinalHead where
  code : UInt16
  reason : String
  headers : List (String × String)
  deriving DecidableEq

def tooManyInterim : ImportFailure :=
  ⟨.malformedResponse, none,
    "too many interim 1xx responses (>" ++ toString maxInterimResponses ++ ")"⟩

def unparseable (statusLine : String) : ImportFailure :=
  ⟨.malformedResponse, none, "unparseable status line: " ++ truncate statusLine 80⟩

def switchingProtocols : ImportFailure :=
  ⟨.malformedResponse, some 101, "HTTP 101 Switching Protocols is not supported"⟩

/-- What becomes of a head after `interim` interim ones. -/
def judgeHead (interim : Nat) (head : String × String) :
    Except ImportFailure (Nat ⊕ FinalHead) :=
  match parseStatusLine head.1 with
  | none => .error (unparseable head.1)
  | some (code, reason) =>
      if 100 ≤ code ∧ code ≤ 199 then
        if code = 101 then .error switchingProtocols else .ok (.inl (interim + 1))
      else .ok (.inr ⟨code, reason, parseHeaders head.2⟩)

/-! ## The response -/

abbrev ImportM (α : Type) := StateT ResponseReader (Except (Stop ImportFailure)) α

/-- A failure of the reader as one of the import. -/
def ImportFailure.of (status : Option UInt16) (failure : Failure) : ImportFailure :=
  ⟨failure.1, status, failure.2⟩

def reading {α : Type} (status : Option UInt16) (f : ReadM α) : ImportM α := fun r =>
  (f r).mapError (Stop.map (.of status))

def failImport {α : Type} (failure : ImportFailure) : ImportM α :=
  fun _ => .error (.failed failure)

def settled {α : Type} (answer : Except ImportFailure α) : ImportM α :=
  match answer with
  | .ok x => pure x
  | .error failure => failImport failure

/-- One round of `read_response`: the next head. -/
def headStep (interim : Nat) : ImportM (Nat ⊕ FinalHead) :=
  if maxInterimResponses < interim then failImport tooManyInterim
  else do
    let head ← reading none (readHead maxHeaderBytes)
    settled (judgeHead interim head)

theorem headStep_consumes (interim : Nat) : Consumes Buffered.pending 1 (headStep interim) := by
  unfold headStep
  split_ifs
  · exact .throw _
  · refine ((readHead_consumes maxHeaderBytes).mapError _).bind (n := 0) fun head => ?_
    unfold settled
    cases judgeHead interim head with
    | error failure => exact .throw _
    | ok next => exact .pure _

/-- The final head, behind the interim ones. -/
def readFinalHead : ImportM FinalHead := iterate Buffered.pending headStep headStep_consumes 0

def readResponse (rt : Runtime) (limit : Nat) : ImportM RawResponse := do
  let head ← readFinalHead
  let body ← reading (some head.code) (readBody rt head.code head.headers limit)
  return ⟨head.code, head.reason, body⟩

/-! ## The response of a text -/

abbrev ImportText (α : Type) := StateT (List UInt8) (Except (Verdict ImportFailure)) α

def readingText {α : Type} (status : Option UInt16) (f : TextM α) : ImportText α := fun text =>
  (f text).mapError (Verdict.map (.of status))

def settledText {α : Type} (answer : Except ImportFailure α) : ImportText α :=
  match answer with
  | .ok x => pure x
  | .error failure => fun _ => .error (.failed failure)

def headStepText (interim : Nat) : ImportText (Nat ⊕ FinalHead) :=
  if maxInterimResponses < interim then fun _ => .error (.failed tooManyInterim)
  else do
    let head ← readingText none (headText maxHeaderBytes)
    settledText (judgeHead interim head)

theorem headStepText_consumes (interim : Nat) :
    Consumes List.length 1 (headStepText interim) := by
  unfold headStepText
  split_ifs
  · exact .throw _
  · refine ((headText_consumes maxHeaderBytes).mapError _).bind (n := 0) fun head => ?_
    unfold settledText
    cases judgeHead interim head with
    | error failure => exact .throw _
    | ok next => exact .pure _

def finalHeadText : ImportText FinalHead := iterate List.length headStepText headStepText_consumes 0

/-- The response that a text begins with. -/
def responseText (rt : Runtime) (limit : Nat) (text : List UInt8) :
    Except (Verdict ImportFailure) RawResponse := do
  let (head, rest) ← finalHeadText text
  let body ← (bodyText rt head.code head.headers limit rest).mapError
    (Verdict.map (.of (some head.code)))
  .ok ⟨head.code, head.reason, body⟩

/-! ## The pieces do not matter -/

theorem headStep_agrees (interim : Nat) : Agrees (headStep interim) (headStepText interim) := by
  unfold headStep headStepText
  by_cases hmany : maxInterimResponses < interim
  · rw [if_pos hmany, if_pos hmany]
    exact .throw _
  · rw [if_neg hmany, if_neg hmany]
    refine ((readHead_agrees maxHeaderBytes).mapError _).bind fun head => ?_
    unfold settled settledText
    cases judgeHead interim head with
    | error failure => exact .throw _
    | ok next => exact .pure _

theorem readFinalHead_agrees : Agrees readFinalHead finalHeadText :=
  Agrees.iterate (fun _ => True) (fun interim _ => headStep_agrees interim)
    (fun _ _ _ _ _ _ => trivial) trivial

/-- Reading the response gives what the text says, however it arrives. -/
theorem readResponse_agree {rt : Runtime} {limit : Nat} (hlimit : limit < rt.usizeMax)
    {r : ResponseReader} (hr : Unbroken r.stream) :
    Agree (fun p raw => p.1 = raw) (readResponse rt limit r) (responseText rt limit r.content) := by
  refine (readFinalHead_agrees r hr).bind ?_
  rintro ⟨head, r'⟩ ⟨head', rest⟩ ⟨rfl, hr', rfl⟩
  refine ((readBody_agree hlimit head.code head.headers hr').mapError _).bind ?_
  rintro ⟨body, r''⟩ body' rfl
  exact .ok rfl

/-! ## Responses within their limits -/

/-- The heads of a text, terminator included, are at most `maxHeaderBytes` long, and so are the
lines of a chunked body behind them `maxLine`. -/
inductive ShortResponse (rt : Runtime) : Nat → List UInt8 → Prop where
  | intro {interim : Nat} {text : List UInt8}
      (head : ∀ pos, findDoubleCrlf text = some pos → pos + 4 ≤ maxHeaderBytes)
      (more : ∀ pos next, findDoubleCrlf text = some pos →
        judgeHead interim (splitHead (text.take pos)) = .ok (.inl next) →
        ShortResponse rt next (text.drop (pos + 4)))
      (body : ∀ pos final, findDoubleCrlf text = some pos →
        judgeHead interim (splitHead (text.take pos)) = .ok (.inr final) →
        ¬(final.code = 204 ∨ final.code = 304) → isChunked final.headers →
        ShortChunks rt (text.drop (pos + 4))) :
      ShortResponse rt interim text

theorem mapError_decides {α φ ψ : Type} {x : Except (Verdict φ) α} (name : φ → ψ)
    (h : x ≠ .error .overlong) : x.mapError (Verdict.map name) ≠ .error .overlong := by
  intro hmapped
  cases x with
  | error e =>
      cases e with
      | failed e => cases hmapped
      | overlong => exact h rfl
  | ok p => cases hmapped

theorem readingText_ok {α : Type} {status : Option UInt16} {f : TextM α} {text rest : List UInt8}
    {x : α} (h : readingText status f text = .ok (x, rest)) : f text = .ok (x, rest) := by
  change (f text).mapError _ = .ok (x, rest) at h
  cases hf : f text with
  | error e =>
      rw [hf] at h
      cases h
  | ok p =>
      rw [hf] at h
      cases h
      rfl

theorem settledText_ok {α : Type} {answer : Except ImportFailure α} {text rest : List UInt8}
    {x : α} (h : settledText answer text = .ok (x, rest)) : answer = .ok x ∧ rest = text := by
  cases answer with
  | error failure => cases h
  | ok y =>
      cases h
      exact ⟨rfl, rfl⟩

/-- A round reads one head and judges it. -/
theorem headStepText_ok {interim : Nat} {text rest : List UInt8} {next : Nat ⊕ FinalHead}
    (h : headStepText interim text = .ok (next, rest)) :
    ∃ pos, findDoubleCrlf text = some pos ∧
      judgeHead interim (splitHead (text.take pos)) = .ok next ∧ rest = text.drop (pos + 4) := by
  unfold headStepText at h
  split_ifs at h
  obtain ⟨head, behind, hread, hjudge⟩ := ran_bind h
  obtain ⟨pos, hpos, rfl, rfl⟩ := headText_ok (readingText_ok hread)
  obtain ⟨hnext, rfl⟩ := settledText_ok hjudge
  exact ⟨pos, hpos, hnext, rfl⟩

theorem headStepText_decides {interim : Nat} {text : List UInt8}
    (h : ∀ pos, findDoubleCrlf text = some pos → pos + 4 ≤ maxHeaderBytes) :
    headStepText interim text ≠ .error .overlong := by
  unfold headStepText
  split_ifs
  · simp
  · intro hover
    rcases error_bind hover with hread | ⟨head, rest, -, hend⟩
    · exact mapError_decides _ (headText_decides h) hread
    · cases hjudge : judgeHead interim head with
      | error failure =>
          rw [hjudge] at hend
          cases hend
      | ok next =>
          rw [hjudge] at hend
          cases hend

/-- The heads of a short response are read or refused, and what follows them is short. The
induction is on the heads. -/
theorem finalHeadText_short {rt : Runtime} {interim : Nat} {text : List UInt8}
    (h : ShortResponse rt interim text) :
    iterate List.length headStepText headStepText_consumes interim text ≠ .error .overlong ∧
      ∀ head rest, iterate List.length headStepText headStepText_consumes interim text =
        .ok (head, rest) → ¬(head.code = 204 ∨ head.code = 304) → isChunked head.headers →
        ShortChunks rt rest := by
  induction h with
  | @intro interim text head more body ih =>
      refine ⟨?_, ?_⟩
      · intro hover
        rcases iterate_error hover with hround | ⟨next, rest, hround, hrest⟩
        · exact headStepText_decides head hround
        · obtain ⟨pos, hpos, hjudge, rfl⟩ := headStepText_ok hround
          exact (ih pos next hpos hjudge).1 hrest
      · intro final rest hrun hcode hchunked
        rw [iterate_step] at hrun
        cases hround : headStepText interim text with
        | error e =>
            rw [hround] at hrun
            cases hrun
        | ok p =>
            obtain ⟨next, behind⟩ := p
            obtain ⟨pos, hpos, hjudge, rfl⟩ := headStepText_ok hround
            rw [hround] at hrun
            cases next with
            | inl next => exact (ih pos next hpos hjudge).2 final rest hrun hcode hchunked
            | inr found =>
                cases hrun
                exact body pos _ hpos hjudge hcode hchunked

theorem responseText_decides {rt : Runtime} {limit : Nat} {text : List UInt8}
    (h : ShortResponse rt 0 text) : responseText rt limit text ≠ .error .overlong := by
  obtain ⟨hheads, hbody⟩ := finalHeadText_short h
  change finalHeadText text ≠ .error .overlong at hheads
  rw [responseText]
  cases hrun : finalHeadText text with
  | error e =>
      intro hover
      cases hover
      exact hheads hrun
  | ok p =>
      obtain ⟨head, rest⟩ := p
      have hshort : bodyText rt head.code head.headers limit rest ≠ .error .overlong :=
        bodyText_decides (hbody head rest hrun)
      intro hover
      change (((bodyText rt head.code head.headers limit rest).mapError
        (Verdict.map (.of (some head.code)))) >>= fun body =>
          (.ok ⟨head.code, head.reason, body⟩ : Except (Verdict ImportFailure) RawResponse)) =
            .error .overlong at hover
      cases hread : bodyText rt head.code head.headers limit rest with
      | error e =>
          rw [hread] at hover hshort
          cases e with
          | failed e => cases hover
          | overlong => exact hshort rfl
      | ok body =>
          rw [hread] at hover
          cases hover

/-- A response that is read has the body of the framing in use, up to the limit. -/
theorem responseText_body {rt : Runtime} {limit : Nat} {text : List UInt8} {raw : RawResponse}
    (h : responseText rt limit text = .ok raw) :
    ∃ head rest, finalHeadText text = .ok (head, rest) ∧ raw.status = head.code ∧
      raw.reason = head.reason ∧
      raw.body = (assignedBody rt head.code head.headers rest).take limit := by
  rw [responseText] at h
  cases hrun : finalHeadText text with
  | error e =>
      rw [hrun] at h
      cases h
  | ok p =>
      obtain ⟨head, rest⟩ := p
      rw [hrun] at h
      change (((bodyText rt head.code head.headers limit rest).mapError
        (Verdict.map (.of (some head.code)))) >>= fun body =>
          (.ok ⟨head.code, head.reason, body⟩ : Except (Verdict ImportFailure) RawResponse)) =
            .ok raw at h
      cases hread : bodyText rt head.code head.headers limit rest with
      | error e =>
          rw [hread] at h
          cases h
      | ok body =>
          rw [hread] at h
          cases h
          exact ⟨head, rest, rfl, rfl, rfl, bodyText_assigned hread⟩

/-- The response is the same however its text is split into reads, its body is that of the framing
in use up to the limit, and no size overflows. -/
theorem readResponse_segments (rt : Runtime) {limit : Nat} (hlimit : limit < rt.usizeMax)
    {text : List UInt8} (hshort : ShortResponse rt 0 text) :
    ∃ result : Except ImportFailure RawResponse,
      (∀ stream, Unbroken stream → arriving stream = text →
        (readResponse rt limit ⟨stream, []⟩).map Prod.fst = result.mapError Stop.failed) ∧
      ∀ raw, result = .ok raw → raw.body.length ≤ limit ∧
        ∃ head rest, finalHeadText text = .ok (head, rest) ∧ raw.status = head.code ∧
          raw.body = (assignedBody rt head.code head.headers rest).take limit := by
  have hdecided : responseText rt limit text ≠ .error .overlong := responseText_decides hshort
  obtain ⟨result, hresult⟩ := outcome_of_short hdecided
  refine ⟨result, ?_, ?_⟩
  · intro stream hstream htext
    have hagree := readResponse_agree hlimit (r := ⟨stream, []⟩) hstream
    have hcontent : (⟨stream, []⟩ : ResponseReader).content = text := htext
    rw [hcontent, hresult] at hagree
    apply Agree.outcome
    apply hagree.map (f := Prod.fst) (g := id)
    · cases result <;> rfl
    · exact fun p raw heq => heq
  · rintro raw rfl
    obtain ⟨head, rest, hheads, hstatus, -, hbody⟩ := responseText_body hresult
    refine ⟨?_, head, rest, hheads, hstatus, hbody⟩
    rw [hbody]
    exact List.length_take_le _ _

theorem ShortResponse.of_length {rt : Runtime} {interim : Nat} {text : List UInt8}
    (h : text.length ≤ maxLine) : ShortResponse rt interim text := by
  induction hn : text.length using Nat.strongRecOn generalizing interim text with
  | _ n ih =>
      have hheads : ∀ pos, findDoubleCrlf text = some pos → pos + 4 ≤ text.length :=
        fun pos hpos => position_within hpos
      have hrest : ∀ pos, (text.drop (pos + 4)).length ≤ maxLine := by
        intro pos
        rw [List.length_drop]
        omega
      refine .intro ?_ ?_ ?_
      · intro pos hpos
        exact ((hheads pos hpos).trans h).trans (by decide)
      · intro pos next hpos _
        have hwithin := hheads pos hpos
        exact ih (text.drop (pos + 4)).length (by rw [List.length_drop]; omega) (hrest pos) rfl
      · intro pos final _ _ _ _
        exact .of_length (hrest pos)

/-- A target with 64-bit sizes. -/
def target64 : Runtime := ⟨2 ^ 64 - 1, fun s => "\"" ++ s ++ "\""⟩

/-- A refused batch with its reason in chunks. -/
def badRequest : List UInt8 :=
  utf8 "HTTP/1.1 400 Bad Request\r\nTransfer-Encoding: chunked\r\n\r\n3\r\nbad\r\n0\r\n\r\n"

theorem badRequest_segments : ∃ result : Except ImportFailure RawResponse,
    (∀ stream, Unbroken stream → arriving stream = badRequest →
      (readResponse target64 maxErrorBodyBytes ⟨stream, []⟩).map Prod.fst =
        result.mapError Stop.failed) ∧
    ∀ raw, result = .ok raw → raw.body.length ≤ maxErrorBodyBytes ∧
      ∃ head rest, finalHeadText badRequest = .ok (head, rest) ∧ raw.status = head.code ∧
        raw.body = (assignedBody target64 head.code head.headers rest).take maxErrorBodyBytes :=
  readResponse_segments target64 (by decide) (.of_length (by decide +kernel))

/-! ## The outcome -/

/-- How an operation on the socket ends. -/
inductive SocketResult where
  | done
  | failed (message : String)
  | timedOut

/-- What an import meets: the connection, the writing of the request, what arrives behind it, and
whether the overall deadline passes. -/
structure Peer where
  connect : SocketResult
  write : List UInt8 → SocketResult
  arrivals : List UInt8 → List (Arrival UInt8 ReadError)
  overdue : Bool

def classifyMessage (raw : RawResponse) : String :=
  "HTTP " ++ toString raw.status.toNat ++ " " ++ raw.reason ++
    if raw.body = [] then "" else ": " ++ truncateLossy raw.body maxMessageChars

def classify (raw : RawResponse) : Outcome :=
  if 200 ≤ raw.status ∧ raw.status ≤ 299 then .success
  else if raw.status = 408 ∨ raw.status = 429 ∨ (500 ≤ raw.status ∧ raw.status ≤ 599) then
    .retryable ⟨.http, some raw.status, classifyMessage raw⟩
  else .permanent ⟨.http, some raw.status, classifyMessage raw⟩

/-- The outcome of a response, if its reader does not panic. -/
def outcomeOf (read : Except (Stop ImportFailure) (RawResponse × ResponseReader)) :
    Option Outcome :=
  match read with
  | .ok (raw, _) => some (classify raw)
  | .error (.failed failure) => some (.retryable failure)
  | .error .panicked => none

def VictoriaMetricsClient.importInner (rt : Runtime) (c : VictoriaMetricsClient) (peer : Peer)
    (body : String) : Option Outcome :=
  match peer.connect with
  | .failed e => some (.retryable ⟨.network, none, "connect failed: " ++ e⟩)
  | .timedOut => some (.retryable ⟨.timeout, none, "connect timed out"⟩)
  | .done =>
      let request := buildRequest c.host c.port c.path body
      match peer.write request with
      | .failed e => some (.retryable ⟨.network, none, "request write failed: " ++ e⟩)
      | .timedOut => some (.retryable ⟨.timeout, none, "request write timed out"⟩)
      | .done => outcomeOf (readResponse rt c.maxErrorBody ⟨peer.arrivals request, []⟩)

/-- `import` -/
def VictoriaMetricsClient.importBatch (rt : Runtime) (c : VictoriaMetricsClient) (peer : Peer)
    (body : String) : Option Outcome :=
  if peer.overdue then some (.retryable ⟨.timeout, none, "overall deadline exceeded"⟩)
  else c.importInner rt peer body

/-! ## A response is classified by its status -/

/-- A text begins with `interim` heads fewer than there may be, none longer than `maxHeaderBytes`,
and a final head behind them. -/
inductive Answered : Nat → List UInt8 → FinalHead → List UInt8 → Prop where
  | final {interim : Nat} {text : List UInt8} {pos : Nat} {head : FinalHead}
      (hpos : findDoubleCrlf text = some pos) (hshort : pos + 4 ≤ maxHeaderBytes)
      (hjudge : judgeHead interim (splitHead (text.take pos)) = .ok (.inr head)) :
      Answered interim text head (text.drop (pos + 4))
  | interim {interim next : Nat} {text rest : List UInt8} {pos : Nat} {head : FinalHead}
      (hcount : interim < maxInterimResponses)
      (hpos : findDoubleCrlf text = some pos) (hshort : pos + 4 ≤ maxHeaderBytes)
      (hjudge : judgeHead interim (splitHead (text.take pos)) = .ok (.inl next))
      (hnext : Answered next (text.drop (pos + 4)) head rest) : Answered interim text head rest

/-- The outcome that a status stands for. -/
def Classified (status : UInt16) (outcome : Outcome) : Prop :=
  if 200 ≤ status ∧ status ≤ 299 then outcome = .success
  else if status = 408 ∨ status = 429 ∨ (500 ≤ status ∧ status ≤ 599) then
    ∃ failure, outcome = .retryable failure
  else ∃ failure, outcome = .permanent failure

theorem classify_classified (raw : RawResponse) : Classified raw.status (classify raw) := by
  unfold Classified classify
  split_ifs
  · rfl
  · exact ⟨_, rfl⟩
  · exact ⟨_, rfl⟩

theorem judgeHead_interim {interim next : Nat} {head : String × String}
    (h : judgeHead interim head = .ok (.inl next)) : next = interim + 1 := by
  unfold judgeHead at h
  split at h
  · cases h
  · split_ifs at h
    · cases h
      rfl
    · cases h

/-- A head within the limit is read as a whole. -/
theorem headStepText_at {interim pos : Nat} {text : List UInt8} {next : Nat ⊕ FinalHead}
    (hcount : interim ≤ maxInterimResponses) (hpos : findDoubleCrlf text = some pos)
    (hshort : pos + 4 ≤ maxHeaderBytes)
    (hjudge : judgeHead interim (splitHead (text.take pos)) = .ok next) :
    headStepText interim text = .ok (next, text.drop (pos + 4)) := by
  have hread : readingText none (headText maxHeaderBytes) text =
      .ok (splitHead (text.take pos), text.drop (pos + 4)) := by
    rw [readingText, headText_at hpos hshort]
    rfl
  rw [headStepText, if_neg (Nat.not_lt.mpr hcount), bind_ran hread, hjudge]
  rfl

/-- The final head of an answer is found. The induction is on the heads before it. -/
theorem finalHeadText_answered {interim : Nat} {text rest : List UInt8} {head : FinalHead}
    (h : Answered interim text head rest) (hcount : interim ≤ maxInterimResponses) :
    iterate List.length headStepText headStepText_consumes interim text = .ok (head, rest) := by
  induction h with
  | final hpos hshort hjudge =>
      rw [iterate_step, headStepText_at hcount hpos hshort hjudge]
      rfl
  | interim hless hpos hshort hjudge hnext ih =>
      have hsucc := judgeHead_interim hjudge
      rw [iterate_step, headStepText_at hcount hpos hshort hjudge]
      exact ih (by omega)

theorem readFinalHead_answered {r : ResponseReader} (hr : Unbroken r.stream) {head : FinalHead}
    {rest : List UInt8} (h : Answered 0 r.content head rest) :
    ∃ r', Unbroken r'.stream ∧ r'.content = rest ∧ readFinalHead r = .ok (head, r') := by
  have hagree := readFinalHead_agrees r hr
  rw [finalHeadText, finalHeadText_answered h (Nat.zero_le _)] at hagree
  cases hrun : readFinalHead r with
  | error e =>
      rw [hrun] at hagree
      cases hagree
  | ok p =>
      obtain ⟨found, r'⟩ := p
      rw [hrun] at hagree
      cases hagree with
      | ok htracks =>
          obtain ⟨rfl, hr', rfl⟩ := htracks
          exact ⟨r', hr', rfl, rfl⟩

section

variable {rt : Runtime} {c : VictoriaMetricsClient} {peer : Peer} {body : String}

/-- The peer takes the request, and nothing that it sends is broken or late. -/
structure Peer.Answers (peer : Peer) (request : List UInt8) : Prop where
  connected : peer.connect = .done
  written : peer.write request = .done
  unbroken : Unbroken (peer.arrivals request)
  inTime : peer.overdue = false

/-- What the client sends. -/
def VictoriaMetricsClient.request (c : VictoriaMetricsClient) (body : String) : List UInt8 :=
  buildRequest c.host c.port c.path body

theorem importBatch_answers (h : peer.Answers (c.request body)) :
    c.importBatch rt peer body =
      outcomeOf (readResponse rt c.maxErrorBody ⟨peer.arrivals (c.request body), []⟩) := by
  have hwritten : peer.write (buildRequest c.host c.port c.path body) = .done := h.written
  rw [VictoriaMetricsClient.importBatch, h.inTime, VictoriaMetricsClient.importInner, h.connected]
  dsimp only
  rw [hwritten]
  rfl

/-- Behind the final head the outcome is that of its body. -/
theorem importBatch_body (rt : Runtime) (h : peer.Answers (c.request body)) {head : FinalHead}
    {rest : List UInt8}
    (hanswered : Answered 0 (arriving (peer.arrivals (c.request body))) head rest) :
    ∃ r, Unbroken r.stream ∧ r.content = rest ∧ c.importBatch rt peer body =
      match readBody rt head.code head.headers c.maxErrorBody r with
      | .ok (b, _) => some (classify ⟨head.code, head.reason, b⟩)
      | .error (.failed failure) => some (.retryable (.of (some head.code) failure))
      | .error .panicked => none := by
  obtain ⟨r, hr, hrest, hhead⟩ := readFinalHead_answered
    (r := ⟨peer.arrivals (c.request body), []⟩) h.unbroken hanswered
  refine ⟨r, hr, hrest, ?_⟩
  rw [importBatch_answers h]
  have hresponse : readResponse rt c.maxErrorBody ⟨peer.arrivals (c.request body), []⟩ =
      reading (some head.code) (readBody rt head.code head.headers c.maxErrorBody) r >>= fun p =>
        .ok (⟨head.code, head.reason, p.1⟩, p.2) := by
    show (readFinalHead _ >>= fun p => _) = _
    rw [hhead]
    rfl
  rw [hresponse, reading]
  rcases readBody rt head.code head.headers c.maxErrorBody r with ⟨failure | _⟩ | ⟨b, r'⟩
  · rfl
  · rfl
  · rfl

/-- The outcome is that of the status if the body behind the head can be read; otherwise the batch
is kept for another attempt, with the status and the reader's failure. -/
theorem importBatch_classified (hlimit : c.maxErrorBody < rt.usizeMax)
    (h : peer.Answers (c.request body)) {head : FinalHead} {rest : List UInt8}
    (hanswered : Answered 0 (arriving (peer.arrivals (c.request body))) head rest) :
    ∃ outcome, c.importBatch rt peer body = some outcome ∧
      (∀ b, bodyText rt head.code head.headers c.maxErrorBody rest = .ok b →
        Classified head.code outcome) ∧
      (∀ failure, bodyText rt head.code head.headers c.maxErrorBody rest =
        .error (.failed failure) → outcome = .retryable (.of (some head.code) failure)) ∧
      (Classified head.code outcome ∨
        ∃ failure, outcome = .retryable (.of (some head.code) failure)) := by
  obtain ⟨r, hr, hrest, himport⟩ := importBatch_body rt h hanswered
  have hagree := readBody_agree hlimit head.code head.headers hr
  have hsafe := readBody_safe hlimit head.code head.headers r
  rw [hrest] at hagree
  rw [himport]
  cases hrun : readBody rt head.code head.headers c.maxErrorBody r with
  | ok p =>
      obtain ⟨b, r'⟩ := p
      have hclass := classify_classified ⟨head.code, head.reason, b⟩
      refine ⟨_, rfl, fun _ _ => hclass, ?_, .inl hclass⟩
      intro failure htext
      rw [hrun, htext] at hagree
      cases hagree
  | error e =>
      cases e with
      | panicked => exact absurd hrun hsafe
      | failed failure =>
          refine ⟨_, rfl, ?_, ?_, .inr ⟨failure, rfl⟩⟩
          · intro b htext
            rw [hrun, htext] at hagree
            cases hagree
          · intro failure' htext
            rw [hrun, htext] at hagree
            cases hagree
            rfl

end

/-- A client with the defaults. -/
def defaultClient : VictoriaMetricsClient :=
  ⟨"h.example", 8428, defaultImportPath, defaultConnectTimeout, defaultReadTimeout,
    maxErrorBodyBytes⟩

/-- A peer that takes the request and answers with a text, whatever the request. -/
def answering (text : List UInt8) : Peer := ⟨.done, fun _ => .done, fun _ => [.data text], false⟩

theorem answering_answers {text request : List UInt8} (h : text ≠ []) :
    (answering text).Answers request where
  connected := rfl
  written := rfl
  unbroken := by
    intro a ha
    exact ⟨text, h, List.mem_singleton.mp ha⟩
  inTime := rfl

/-- An interim answer and a final one without a body. -/
def noContent : List UInt8 :=
  utf8 "HTTP/1.1 100 Continue\r\n\r\nHTTP/1.1 204 No Content\r\n\r\n"

theorem noContent_answered : Answered 0 noContent ⟨204, "No Content", []⟩ [] := by
  have hfirst : findDoubleCrlf noContent = some 21 := by decide +kernel
  have hsecond : findDoubleCrlf (noContent.drop 25) = some 23 := by decide +kernel
  have hjudge : judgeHead 0 (splitHead (noContent.take 21)) = .ok (.inl 1) := by decide +kernel
  exact .interim (by decide) hfirst (by decide) hjudge
    (.final hsecond (by decide) (by decide +kernel))

theorem noContent_classified : ∃ outcome,
    defaultClient.importBatch target64 (answering noContent) "m 1 2\n" = some outcome ∧
      Classified 204 outcome := by
  have hanswered : Answered 0 (arriving ((answering noContent).arrivals
      (defaultClient.request "m 1 2\n"))) ⟨204, "No Content", []⟩ [] := by
    rw [show arriving ((answering noContent).arrivals _) = noContent from List.append_nil _]
    exact noContent_answered
  obtain ⟨outcome, himport, hread, -⟩ := importBatch_classified
    (show defaultClient.maxErrorBody < target64.usizeMax by decide)
    (answering_answers (by decide +kernel)) hanswered
  exact ⟨outcome, himport, hread [] rfl⟩

/-- An answer of status 200 that announces five bytes and has two. -/
def shortBody : List UInt8 := utf8 "HTTP/1.1 200 OK\r\nContent-Length: 5\r\n\r\nab"

theorem shortBody_answered : Answered 0 shortBody ⟨200, "OK", [("Content-Length", "5")]⟩
    (utf8 "ab") := by
  have hpos : findDoubleCrlf shortBody = some 34 := by decide +kernel
  have hrest : shortBody.drop 38 = utf8 "ab" := by decide +kernel
  rw [← hrest]
  exact .final hpos (by decide) (by decide +kernel)

/-- A batch that the server accepted is not a success if the body breaks off. -/
theorem shortBody_retried :
    (answering shortBody).Answers (defaultClient.request "m 1 2\n") ∧
      Answered 0 shortBody ⟨200, "OK", [("Content-Length", "5")]⟩ (utf8 "ab") ∧
      ∃ outcome, defaultClient.importBatch target64 (answering shortBody) "m 1 2\n" =
        some outcome ∧ ¬ Classified 200 outcome := by
  have hanswers : (answering shortBody).Answers (defaultClient.request "m 1 2\n") :=
    answering_answers (by decide +kernel)
  have hanswered : Answered 0 (arriving ((answering shortBody).arrivals
      (defaultClient.request "m 1 2\n"))) ⟨200, "OK", [("Content-Length", "5")]⟩ (utf8 "ab") := by
    rw [show arriving ((answering shortBody).arrivals _) = shortBody from List.append_nil _]
    exact shortBody_answered
  obtain ⟨r, hr, hrest, himport⟩ := importBatch_body target64 hanswers hanswered
  have htext : bodyText target64 200 [("Content-Length", "5")] maxErrorBodyBytes (utf8 "ab") =
      .error (.failed prematureClose) := by
    decide +kernel
  have hagree := readBody_agree (show maxErrorBodyBytes < target64.usizeMax by decide) 200
    [("Content-Length", "5")] hr
  rw [hrest, htext] at hagree
  have hread : readBody target64 200 [("Content-Length", "5")] defaultClient.maxErrorBody r =
      .error (.failed prematureClose) := hagree.failure
  rw [hread] at himport
  refine ⟨hanswers, shortBody_answered, _, himport, ?_⟩
  rw [Classified, if_pos (by decide)]
  intro hsuccess
  cases hsuccess

end VeSmart.Metrics
