import Mathlib.Data.List.DropRight
import VeSmart.Domain.Sample
import VeSmart.Lib.Buffered
import VeSmart.Lib.Utf8Lossy
import VeSmart.Metrics.HttpUrl

set_option autoImplicit false

/-! # Response reading (`victron-metrics/src/response.rs`)

A head, then a body in one of four framings. The reads of the connection are the arrivals of a
`Buffered` reader: a read that times out or fails is one of them, and the list ends where the peer
closes the connection. Arithmetic on sizes that would not fit and an index outside of the buffer
panic. -/

namespace VeSmart.Metrics

open VeSmart.Lib VeSmart.Domain

inductive FailureCategory where
  | network
  | timeout
  | http
  | malformedResponse
  deriving DecidableEq

structure RawResponse where
  status : UInt16
  reason : String
  body : List UInt8
  deriving DecidableEq

/-- What the target and its tables add: the largest size, and the quoting of a text in a
message. -/
structure Runtime where
  usizeMax : Nat
  debug : String → String

/-! ## Texts -/

/-- What is before and behind the first `c`. -/
def splitOnce (c : Char) (cs : List Char) : Option (List Char × List Char) :=
  if c ∈ cs then some (cs.takeWhile (· ≠ c), (cs.dropWhile (· ≠ c)).tail) else none

/-- What is before and behind the first line end. -/
def splitOnceCrlf : List Char → Option (List Char × List Char)
  | [] => none
  | '\r' :: '\n' :: cs => some ([], cs)
  | c :: cs => (splitOnceCrlf cs).map fun parts => (c :: parts.1, parts.2)

/-- The parts between the line ends. -/
def splitLines : List Char → List (List Char)
  | [] => [[]]
  | '\r' :: '\n' :: cs => [] :: splitLines cs
  | c :: cs => (splitLines cs).modifyHead (c :: ·)

def toDigit (radix : Nat) (c : Char) : Option Nat :=
  let value :=
    if '0' ≤ c ∧ c ≤ '9' then c.toNat - '0'.toNat
    else if 'a' ≤ c ∧ c ≤ 'z' then c.toNat - 'a'.toNat + 10
    else if 'A' ≤ c ∧ c ≤ 'Z' then c.toNat - 'A'.toNat + 10
    else radix
  if value < radix then some value else none

/-- An optional plus sign and digits, up to the largest size. -/
def Runtime.fromStrRadix (rt : Runtime) (radix : Nat) (cs : List Char) : Option Nat :=
  let digits := if cs.head? = some '+' then cs.tail else cs
  if digits = [] then none
  else ((digits.mapM (toDigit radix)).map fun ds => ds.foldl (fun n d => n * radix + d) 0).filter
    (· ≤ rt.usizeMax)

def toAsciiLowercase (s : String) : String := String.ofList (s.toList.map Char.toLower)

/-! ## Heads -/

def findDoubleCrlf (buffer : List UInt8) : Option Nat := position (Http.crlf ++ Http.crlf) buffer

def parseStatusLine (line : String) : Option (UInt16 × String) :=
  let version := line.toList.takeWhile (· ≠ ' ')
  if "HTTP/".toList.isPrefixOf version then
    (splitOnce ' ' line.toList).bind fun parts =>
      (parseU16 (parts.2.takeWhile (· ≠ ' '))).map fun code =>
        (code, String.ofList (parts.2.dropWhile (· ≠ ' ')).tail)
  else none

def parseHeaders (block : String) : List (String × String) :=
  (((splitLines block.toList).filter (· ≠ [])).filterMap (splitOnce ':')).map fun field =>
    (trim (.ofList field.1), trim (.ofList field.2))

/-- The status line and the header block of a head. -/
def splitHead (head : List UInt8) : String × String :=
  let text := (fromUtf8Lossy head).toList
  let parts := (splitOnceCrlf text).getD (text, [])
  (.ofList parts.1, .ofList parts.2)

/-! ## The reader -/

inductive ReadError where
  | failed (message : String)
  | timedOut

abbrev Failure := FailureCategory × String

abbrev ResponseReader := Buffered UInt8 ReadError

abbrev ReadM (α : Type) := StateT ResponseReader (Except (Stop Failure)) α

def fail {α : Type} (failure : Failure) : ReadM α := fun _ => .error (.failed failure)

def timedRead : ReadError → Failure
  | .failed message => (.network, "read error: " ++ message)
  | .timedOut => (.timeout, "read timed out")

def prematureClose : Failure := (.network, "connection closed prematurely")

/-- Reads on, at least 256 bytes at a time, until `done` has an answer for the buffer. -/
def readMore {α : Type} (n : Nat) (done : List UInt8 → Option (Except Failure α)) : ReadM α :=
  gather (max n 256) timedRead (.error prematureClose) done

/-- The position in the buffer, or the failure when it is longer than `limit` without one. -/
def lookFor (find : List UInt8 → Option Nat) (limit : Nat) (tooLong : String)
    (buffer : List UInt8) : Option (Except Failure Nat) :=
  match find buffer with
  | some pos => some (.ok pos)
  | none => if limit < buffer.length then some (.error (.malformedResponse, tooLong)) else none

def readHead (limit : Nat) : ReadM (String × String) := do
  let pos ← readMore 512 (lookFor findDoubleCrlf limit "response headers too large")
  let head ← drain (pos + 4)
  return splitHead (head.take pos)

def findLineFeed (buffer : List UInt8) : Option Nat := position [0x0a] buffer

/-- The line without line feeds and carriage returns at its end. -/
def lineText (line : List UInt8) : String :=
  fromUtf8Lossy (line.rdropWhile fun b => b = 0x0a || b = 0x0d)

def readLine (limit : Nat) : ReadM String := do
  let pos ← readMore 256 (lookFor findLineFeed limit "line too long")
  let line ← drain (pos + 1)
  return lineText line

theorem readMore_consumes {α : Type} {n : Nat} {done : List UInt8 → Option (Except Failure α)} :
    Consumes Buffered.pending 0 (readMore n done) := gather_consumes

theorem readHead_consumes (limit : Nat) : Consumes Buffered.pending 1 (readHead limit) := by
  refine (readMore_consumes.bind (n := 1) ?_).mono (by omega)
  intro pos
  exact ((drain_consumes (pos + 4)).bind fun _ => .pure _).mono (by omega)

theorem readLine_consumes (limit : Nat) : Consumes Buffered.pending 1 (readLine limit) := by
  refine (readMore_consumes.bind (n := 1) ?_).mono (by omega)
  intro pos
  exact ((drain_consumes (pos + 1)).bind fun _ => .pure _).mono (by omega)

/-- Reads until the buffer has `take` bytes. -/
def fill (n take : Nat) : ReadM Unit :=
  readMore n fun buffer => if buffer.length < take then none else some (.ok ())

def readExact (n : Nat) : ReadM (List UInt8) := do
  fill n n
  drain n

theorem readExact_consumes (n : Nat) : Consumes Buffered.pending 0 (readExact n) :=
  readMore_consumes.bind fun _ => (drain_consumes n).mono (Nat.zero_le _)

/-! ## Bodies -/

def checkedAdd (rt : Runtime) (a b : Nat) : ReadM Nat := fun r =>
  if a + b ≤ rt.usizeMax then .ok (a + b, r) else .error .panicked

def checkedSub (a b : Nat) : ReadM Nat := fun r =>
  if b ≤ a then .ok (a - b, r) else .error .panicked

theorem checkedAdd_consumes (rt : Runtime) (a b : Nat) :
    Consumes Buffered.pending 0 (checkedAdd rt a b) := by
  intro r n r' h
  rw [checkedAdd] at h
  split_ifs at h
  cases h
  exact Nat.le_refl _

theorem checkedSub_consumes (a b : Nat) : Consumes Buffered.pending 0 (checkedSub a b) := by
  intro r n r' h
  rw [checkedSub] at h
  split_ifs at h
  cases h
  exact Nat.le_refl _

/-- The bound of a chunk-size or trailer line. -/
def maxLine : Nat := 128

def trailerStep : Unit → ReadM (Unit ⊕ Unit) := fun _ => do
  let line ← readLine maxLine
  return if line = "" then .inr () else .inl ()

theorem trailerStep_consumes (u : Unit) : Consumes Buffered.pending 1 (trailerStep u) := by
  refine ((readLine_consumes maxLine).bind (n := 0) ?_).mono (by omega)
  intro line
  exact .pure _

/-- Consumes trailers up to the final line end. -/
def skipTrailers : ReadM Unit := iterate Buffered.pending trailerStep trailerStep_consumes ()

/-- The size that a chunk-size line states, before its extensions. -/
def chunkSize (rt : Runtime) (line : String) : Option Nat :=
  rt.fromStrRadix 16 (trim (.ofList (line.toList.takeWhile (· ≠ ';')))).toList

def badChunkSize (rt : Runtime) (line : String) : Failure :=
  (.malformedResponse, "bad chunk size " ++ rt.debug line)

def missingCrlf : Failure := (.malformedResponse, "missing CRLF after chunk")

/-- The data of a chunk and the line end behind it. Data above the limit ends the body. -/
def chunkData (rt : Runtime) (limit : Nat) (body : List UInt8) (size : Nat) :
    ReadM (List UInt8 ⊕ List UInt8) := do
  let room ← checkedSub (← checkedAdd rt limit 1) body.length
  let take := min size room
  fill 4096 take
  let data ← drain take
  let body := body ++ data
  if limit < body.length then return .inr body
  else
    let crlf ← readExact 2
    if crlf = Http.crlf then return .inl body else fail missingCrlf

/-- The chunk that a chunk-size line announces; one of size zero ends the body. -/
def chunkBehind (rt : Runtime) (limit : Nat) (body : List UInt8) (line : String) :
    ReadM (List UInt8 ⊕ List UInt8) :=
  match chunkSize rt line with
  | none => fail (badChunkSize rt line)
  | some size =>
      if size = 0 then do
        skipTrailers
        return .inr body
      else chunkData rt limit body size

def chunkStep (rt : Runtime) (limit : Nat) (body : List UInt8) :
    ReadM (List UInt8 ⊕ List UInt8) := do
  let line ← readLine maxLine
  chunkBehind rt limit body line

theorem chunkData_consumes (rt : Runtime) (limit : Nat) (body : List UInt8) (size : Nat) :
    Consumes Buffered.pending 0 (chunkData rt limit body size) := by
  unfold chunkData
  refine (checkedAdd_consumes rt limit 1).bind (n := 0) fun most => ?_
  refine (checkedSub_consumes most body.length).bind (n := 0) fun room => ?_
  refine readMore_consumes.bind (n := 0) fun _ => ?_
  refine ((drain_consumes _).mono (Nat.zero_le _)).bind (n := 0) fun data => ?_
  dsimp only
  split_ifs
  · exact .pure _
  · refine (readExact_consumes 2).bind (n := 0) fun crlf => ?_
    split_ifs
    · exact .pure _
    · exact .throw _

theorem chunkStep_consumes (rt : Runtime) (limit : Nat) (body : List UInt8) :
    Consumes Buffered.pending 1 (chunkStep rt limit body) := by
  refine (readLine_consumes maxLine).bind (n := 0) fun line => ?_
  unfold chunkBehind
  cases chunkSize rt line with
  | none => exact .throw _
  | some size =>
      dsimp only
      split_ifs
      · exact ((iterate_consumes ()).mono (Nat.zero_le _)).bind (n := 0) fun _ => .pure _
      · exact chunkData_consumes rt limit body size

def readChunked (rt : Runtime) (limit : Nat) : ReadM (List UInt8) := do
  let body ← iterate Buffered.pending (chunkStep rt limit) (chunkStep_consumes rt limit) []
  return body.take limit

/-- A body up to the end of the connection. It starts with what is in the buffer and grows in its
place. -/
def readToEnd (limit : Nat) : ReadM (List UInt8) := do
  let _ ← gather 4096 timedRead (.ok ()) fun body =>
    if limit < body.length then some (.ok ()) else none
  let body ← get
  return body.buffer.take limit

def isChunked (headers : List (String × String)) : Bool :=
  headers.any fun header => toAsciiLowercase header.1 = "transfer-encoding" ∧
    "chunked".toList <:+: (toAsciiLowercase header.2).toList

def contentLength (rt : Runtime) (headers : List (String × String)) : Option Nat :=
  (headers.find? fun header => toAsciiLowercase header.1 = "content-length").bind fun header =>
    rt.fromStrRadix 10 (trim header.2).toList

def readBody (rt : Runtime) (code : UInt16) (headers : List (String × String)) (limit : Nat) :
    ReadM (List UInt8) :=
  if code = 204 ∨ code = 304 then pure []
  else if isChunked headers then readChunked rt limit
  else
    match contentLength rt headers with
    | some n => do
        let take := min n (← checkedAdd rt limit 1)
        fill 4096 take
        let body ← drain take
        return body.take limit
    | none => readToEnd limit

end VeSmart.Metrics
