import VeSmart.Metrics.Response

set_option autoImplicit false

/-! # What a response text says

The reader of the whole text: what `response.rs` does when everything has arrived. It has no
buffer, its sizes are unbounded, and it is `overlong` where a terminator stands behind the limit.
The reader of the pieces agrees with it, and a body that it reads is the one that the framing
assigns, up to the limit. -/

namespace VeSmart.Metrics

open VeSmart.Lib

abbrev TextM (α : Type) := StateT (List UInt8) (Except (Verdict Failure)) α

def failText {α : Type} (failure : Failure) : TextM α := fun _ => .error (.failed failure)

/-- The position of a terminator and the text up to its end. -/
def pieceText (pat : List UInt8) (limit : Nat) (tooLong : String) : TextM (Nat × List UInt8) :=
  fun text =>
    match position pat text with
    | some pos =>
        if limit + 1 < pos + pat.length then .error .overlong
        else .ok ((pos, text.take (pos + pat.length)), text.drop (pos + pat.length))
    | none =>
        .error (.failed (if limit < text.length then (.malformedResponse, tooLong)
          else prematureClose))

def takeText (n : Nat) : TextM (List UInt8) := fun text =>
  if text.length < n then .error (.failed prematureClose) else .ok (text.take n, text.drop n)

theorem pieceText_consumes {pat : List UInt8} (hpat : pat ≠ []) (limit : Nat) (tooLong : String) :
    Consumes List.length 1 (pieceText pat limit tooLong) := by
  intro text x rest h
  have hpos : 0 < pat.length := List.length_pos_iff.mpr hpat
  rw [pieceText] at h
  cases hfound : position pat text with
  | none =>
      rw [hfound] at h
      cases h
  | some pos =>
      have hwithin := position_within hfound
      rw [hfound] at h
      dsimp only at h
      split_ifs at h
      cases h
      rw [List.length_drop]
      omega

theorem takeText_consumes (n : Nat) : Consumes List.length 0 (takeText n) := by
  intro text x rest h
  rw [takeText] at h
  split_ifs at h
  cases h
  rw [List.length_drop]
  omega

def headText (limit : Nat) : TextM (String × String) := do
  let head ← pieceText (Http.crlf ++ Http.crlf) limit "response headers too large"
  return splitHead (head.2.take head.1)

def lineIn (limit : Nat) : TextM String := do
  let line ← pieceText [0x0a] limit "line too long"
  return lineText line.2

theorem headText_consumes (limit : Nat) : Consumes List.length 1 (headText limit) :=
  (pieceText_consumes (by simp [Http.crlf]) limit _).bind fun _ => .pure _

theorem lineIn_consumes (limit : Nat) : Consumes List.length 1 (lineIn limit) :=
  (pieceText_consumes (by simp) limit _).bind fun _ => .pure _

/-! ## Bodies -/

def trailerText : Unit → TextM (Unit ⊕ Unit) := fun _ => do
  let line ← lineIn maxLine
  return if line = "" then .inr () else .inl ()

theorem trailerText_consumes (u : Unit) : Consumes List.length 1 (trailerText u) :=
  (lineIn_consumes maxLine).bind fun _ => .pure _

def trailersText : TextM Unit := iterate List.length trailerText trailerText_consumes ()

/-- The data of a chunk and the line end behind it, for a body that is within the limit. -/
def chunkDataText (limit : Nat) (body : List UInt8) (size : Nat) :
    TextM (List UInt8 ⊕ List UInt8) := do
  let data ← takeText (min size (limit + 1 - body.length))
  let body := body ++ data
  if limit < body.length then return .inr body
  else
    let crlf ← takeText 2
    if crlf = Http.crlf then return .inl body else failText missingCrlf

def chunkBehindText (rt : Runtime) (limit : Nat) (body : List UInt8) (line : String) :
    TextM (List UInt8 ⊕ List UInt8) :=
  match chunkSize rt line with
  | none => failText (badChunkSize rt line)
  | some size =>
      if size = 0 then do
        trailersText
        return .inr body
      else chunkDataText limit body size

def chunkText (rt : Runtime) (limit : Nat) (body : List UInt8) :
    TextM (List UInt8 ⊕ List UInt8) := do
  let line ← lineIn maxLine
  chunkBehindText rt limit body line

theorem chunkDataText_consumes (limit : Nat) (body : List UInt8) (size : Nat) :
    Consumes List.length 0 (chunkDataText limit body size) := by
  refine (takeText_consumes _).bind (n := 0) fun data => ?_
  dsimp only
  split_ifs
  · exact .pure _
  · refine (takeText_consumes 2).bind (n := 0) fun crlf => ?_
    split_ifs
    · exact .pure _
    · exact .throw _

theorem chunkText_consumes (rt : Runtime) (limit : Nat) (body : List UInt8) :
    Consumes List.length 1 (chunkText rt limit body) := by
  refine (lineIn_consumes maxLine).bind (n := 0) fun line => ?_
  unfold chunkBehindText
  cases chunkSize rt line with
  | none => exact .throw _
  | some size =>
      dsimp only
      split_ifs
      · exact ((iterate_consumes ()).mono (Nat.zero_le _)).bind (n := 0) fun _ => .pure _
      · exact chunkDataText_consumes limit body size

def chunksText (rt : Runtime) (limit : Nat) : TextM (List UInt8) :=
  iterate List.length (chunkText rt limit) (chunkText_consumes rt limit) []

def chunkedText (rt : Runtime) (limit : Nat) : TextM (List UInt8) := do
  let body ← chunksText rt limit
  return body.take limit

def lengthText (n limit : Nat) : TextM (List UInt8) := do
  let body ← takeText (min n (limit + 1))
  return body.take limit

/-- The body that a text begins with. -/
def bodyText (rt : Runtime) (code : UInt16) (headers : List (String × String)) (limit : Nat)
    (text : List UInt8) : Except (Verdict Failure) (List UInt8) :=
  if code = 204 ∨ code = 304 then .ok []
  else if isChunked headers then (chunkedText rt limit text).map Prod.fst
  else
    match contentLength rt headers with
    | some n => (lengthText n limit text).map Prod.fst
    | none => .ok (text.take limit)

/-! ## The reader agrees -/

theorem lookFor_steady {pat text : List UInt8} (hpat : pat ≠ []) {limit : Nat} (tooLong : String)
    (h : ∀ pos, position pat text = some pos → pos + pat.length ≤ limit + 1) :
    Steady (lookFor (position pat) limit tooLong) text := by
  intro xs hxs
  cases hfound : position pat text with
  | some pos =>
      have hlimit := h pos hfound
      rcases position_prefix hpat hxs hfound with hsame | ⟨hnone, hshort⟩
      · right
        rw [lookFor, lookFor, hsame, hfound]
      · left
        rw [lookFor, hnone]
        exact if_neg (by omega)
  | none =>
      have hnone := position_none hxs hfound
      have hlength := hxs.length_le
      by_cases hlong : limit < xs.length
      · right
        rw [lookFor, lookFor, hnone, hfound]
        dsimp only
        rw [if_pos hlong, if_pos (by omega)]
      · left
        rw [lookFor, hnone]
        exact if_neg hlong

theorem lookFor_ok {find : List UInt8 → Option Nat} {limit pos : Nat} {tooLong : String}
    {buffer : List UInt8} (h : lookFor find limit tooLong buffer = some (.ok pos)) :
    find buffer = some pos := by
  rw [lookFor] at h
  cases hfound : find buffer with
  | some p =>
      rw [hfound] at h
      cases h
      rfl
  | none =>
      rw [hfound] at h
      dsimp only at h
      split_ifs at h
      cases h

theorem pieceText_overlong {pat text : List UInt8} {limit pos : Nat} (tooLong : String)
    (h : position pat text = some pos) (hlimit : limit + 1 < pos + pat.length) :
    pieceText pat limit tooLong text = .error .overlong := by
  rw [pieceText, h]
  exact if_pos hlimit

/-- A terminator within the limit is looked for as the pieces are. -/
theorem pieceText_decided {pat text : List UInt8} {limit : Nat} (tooLong : String)
    (h : ∀ pos, position pat text = some pos → pos + pat.length ≤ limit + 1) :
    pieceText pat limit tooLong text =
      decided (.error prematureClose) (lookFor (position pat) limit tooLong) text >>= fun pos =>
        .ok ((pos, text.take (pos + pat.length)), text.drop (pos + pat.length)) := by
  rw [pieceText, decided, lookFor]
  cases hfound : position pat text with
  | some pos =>
      have hlimit := h pos hfound
      dsimp only
      rw [if_neg (by omega)]
      rfl
  | none =>
      dsimp only
      split_ifs <;> rfl

/-- Looking for a terminator and taking what it ends. -/
theorem piece_agrees {α : Type} {pat : List UInt8} (hpat : pat ≠ []) (n limit : Nat)
    (tooLong : String) {k : Nat → List UInt8 → ReadM α} {k' : Nat × List UInt8 → TextM α}
    (hk : ∀ pos piece, Agrees (k pos piece) (k' (pos, piece))) :
    Agrees (readMore n (lookFor (position pat) limit tooLong) >>= fun pos =>
      drain (pos + pat.length) >>= fun piece => k pos piece)
      (pieceText pat limit tooLong >>= k') := by
  intro r hr
  by_cases hlong : ∃ pos, position pat r.content = some pos ∧ limit + 1 < pos + pat.length
  · obtain ⟨pos, hpos, hlimit⟩ := hlong
    show Agree Tracks _ (pieceText pat limit tooLong r.content >>= fun q => k' q.1 q.2)
    rw [pieceText_overlong tooLong hpos hlimit]
    exact .overlong _
  · have hshort : ∀ pos, position pat r.content = some pos → pos + pat.length ≤ limit + 1 := by
      intro pos hpos
      exact Nat.le_of_not_lt fun hlimit => hlong ⟨pos, hpos, hlimit⟩
    show Agree Tracks _ (pieceText pat limit tooLong r.content >>= fun q => k' q.1 q.2)
    rw [pieceText_decided tooLong hshort, bind_assoc]
    refine gather_agree (by omega) hr (lookFor_steady hpat tooLong hshort) ?_
    intro pos r' hr' hsame hdone
    -- what has been found lies in the buffer
    have hwithin := position_within (lookFor_ok hdone)
    show Agree Tracks (drain (pos + pat.length) r' >>= fun p => k pos p.1 p.2) _
    rw [drain_buffer hwithin, hsame]
    have hleft := drain_content (r := r') hwithin
    rw [hsame] at hleft
    show Agree Tracks (k pos _ _) (k' (pos, _) _)
    rw [← hleft]
    exact hk pos _ ⟨r'.stream, r'.buffer.drop (pos + pat.length)⟩ hr'

theorem readHead_agrees (limit : Nat) : Agrees (readHead limit) (headText limit) :=
  piece_agrees (by simp [Http.crlf]) 512 limit _ fun _ _ => .pure _

theorem readLine_agrees (limit : Nat) : Agrees (readLine limit) (lineIn limit) :=
  piece_agrees (by simp) 256 limit _ fun _ _ => .pure _

/-- Filling the buffer and taking as much out of it. -/
theorem take_agrees {α : Type} (n count : Nat) {k : List UInt8 → ReadM α}
    {k' : List UInt8 → TextM α} (hk : ∀ xs, Agrees (k xs) (k' xs)) :
    Agrees (fill n count >>= fun _ => drain count >>= k) (takeText count >>= k') := by
  intro r hr
  have hsteady : Steady (fun buffer : List UInt8 =>
      if buffer.length < count then none else some (.ok () : Except Failure Unit)) r.content := by
    intro xs hxs
    have hlength := hxs.length_le
    by_cases hshort : xs.length < count
    · left
      exact if_pos hshort
    · right
      dsimp only
      rw [if_neg hshort, if_neg (by omega)]
  have htext : takeText count r.content = decided (.error prematureClose)
      (fun buffer : List UInt8 =>
        if buffer.length < count then none else some (.ok () : Except Failure Unit)) r.content >>=
          fun _ => .ok (r.content.take count, r.content.drop count) := by
    rw [takeText, decided]
    split_ifs <;> rfl
  show Agree Tracks _ (takeText count r.content >>= fun q => k' q.1 q.2)
  rw [htext, bind_assoc]
  refine gather_agree (by omega) hr hsteady ?_
  intro u r' hr' hsame hdone
  have hfull : count ≤ r'.buffer.length := by
    refine Nat.le_of_not_lt fun hshort => ?_
    rw [if_pos hshort] at hdone
    cases hdone
  have hleft := drain_content (r := r') hfull
  rw [hsame] at hleft
  show Agree Tracks (drain count r' >>= fun p => k p.1 p.2) _
  rw [drain_buffer hfull, hsame]
  show Agree Tracks (k _ _) (k' _ _)
  rw [← hleft]
  exact hk _ ⟨r'.stream, r'.buffer.drop count⟩ hr'

theorem checkedAdd_bind {α : Type} {rt : Runtime} {a b : Nat} (h : a + b ≤ rt.usizeMax)
    (k : Nat → ReadM α) : checkedAdd rt a b >>= k = k (a + b) := by
  funext r
  show (checkedAdd rt a b r >>= fun p => k p.1 p.2) = k (a + b) r
  rw [checkedAdd, if_pos h]
  rfl

theorem checkedSub_bind {α : Type} {a b : Nat} (h : b ≤ a) (k : Nat → ReadM α) :
    checkedSub a b >>= k = k (a - b) := by
  funext r
  show (checkedSub a b r >>= fun p => k p.1 p.2) = k (a - b) r
  rw [checkedSub, if_pos h]
  rfl

theorem skipTrailers_agrees : Agrees skipTrailers trailersText := by
  refine Agrees.iterate (fun _ => True) ?_ (fun _ _ _ _ _ _ => trivial) trivial
  intro u _
  exact (readLine_agrees maxLine).bind fun line => .pure _

theorem chunkData_agrees {rt : Runtime} {limit : Nat} (hlimit : limit < rt.usizeMax)
    {body : List UInt8} (hbody : body.length ≤ limit) (size : Nat) :
    Agrees (chunkData rt limit body size) (chunkDataText limit body size) := by
  rw [chunkData, checkedAdd_bind hlimit, checkedSub_bind (by omega)]
  refine take_agrees 4096 _ fun data => ?_
  dsimp only
  by_cases hfull : limit < (body ++ data).length
  · rw [if_pos hfull, if_pos hfull]
    exact .pure _
  · rw [if_neg hfull, if_neg hfull, readExact, bind_assoc]
    refine take_agrees 2 2 fun crlf => ?_
    by_cases hcrlf : crlf = Http.crlf
    · rw [if_pos hcrlf, if_pos hcrlf]
      exact .pure _
    · rw [if_neg hcrlf, if_neg hcrlf]
      exact .throw _

theorem chunkStep_agrees {rt : Runtime} {limit : Nat} (hlimit : limit < rt.usizeMax)
    {body : List UInt8} (hbody : body.length ≤ limit) :
    Agrees (chunkStep rt limit body) (chunkText rt limit body) := by
  refine (readLine_agrees maxLine).bind fun line => ?_
  unfold chunkBehind chunkBehindText
  cases chunkSize rt line with
  | none => exact .throw _
  | some size =>
      by_cases hzero : size = 0
      · dsimp only
        rw [if_pos hzero, if_pos hzero]
        exact skipTrailers_agrees.bind fun _ => .pure _
      · dsimp only
        rw [if_neg hzero, if_neg hzero]
        exact chunkData_agrees hlimit hbody size

/-! ## What the rounds of a chunked body do -/

theorem pieceText_ok {pat text rest piece : List UInt8} {limit pos : Nat} {tooLong : String}
    (h : pieceText pat limit tooLong text = .ok ((pos, piece), rest)) :
    position pat text = some pos ∧ piece = text.take (pos + pat.length) ∧
      rest = text.drop (pos + pat.length) := by
  rw [pieceText] at h
  cases hfound : position pat text with
  | none =>
      rw [hfound] at h
      cases h
  | some p =>
      rw [hfound] at h
      dsimp only at h
      split_ifs at h
      cases h
      exact ⟨rfl, rfl, rfl⟩

theorem headText_ok {limit : Nat} {text rest : List UInt8} {head : String × String}
    (h : headText limit text = .ok (head, rest)) : ∃ pos, findDoubleCrlf text = some pos ∧
      head = splitHead (text.take pos) ∧ rest = text.drop (pos + 4) := by
  obtain ⟨⟨pos, piece⟩, rest', hpiece, hhead⟩ := ran_bind h
  obtain ⟨hpos, rfl, rfl⟩ := pieceText_ok hpiece
  cases hhead
  refine ⟨pos, hpos, ?_, rfl⟩
  show splitHead ((text.take (pos + 4)).take pos) = splitHead (text.take pos)
  rw [List.take_take, Nat.min_eq_left (Nat.le_add_right pos 4)]

/-- A head within the limit is read as a whole. -/
theorem headText_at {limit pos : Nat} {text : List UInt8} (hpos : findDoubleCrlf text = some pos)
    (hshort : pos + 4 ≤ limit) :
    headText limit text = .ok (splitHead (text.take pos), text.drop (pos + 4)) := by
  have hpiece : pieceText (Http.crlf ++ Http.crlf) limit "response headers too large" text =
      .ok ((pos, text.take (pos + 4)), text.drop (pos + 4)) := by
    have hfound : position (Http.crlf ++ Http.crlf) text = some pos := hpos
    rw [pieceText, hfound]
    exact if_neg (show ¬ limit + 1 < pos + 4 by omega)
  show (pieceText _ _ _ text >>= fun p =>
    (.ok (splitHead (p.1.2.take p.1.1), p.2) : Except (Verdict Failure) _)) = _
  rw [hpiece]
  show Except.ok (splitHead ((text.take (pos + 4)).take pos), _) = _
  rw [List.take_take, Nat.min_eq_left (Nat.le_add_right pos 4)]

theorem lineIn_ok {limit : Nat} {text rest : List UInt8} {line : String}
    (h : lineIn limit text = .ok (line, rest)) : ∃ pos, findLineFeed text = some pos ∧
      line = lineText (text.take (pos + 1)) ∧ rest = text.drop (pos + 1) := by
  obtain ⟨⟨pos, piece⟩, rest', hpiece, hline⟩ := ran_bind h
  obtain ⟨hpos, rfl, rfl⟩ := pieceText_ok hpiece
  cases hline
  exact ⟨pos, hpos, rfl, rfl⟩

theorem takeText_ok {n : Nat} {text rest data : List UInt8}
    (h : takeText n text = .ok (data, rest)) :
    n ≤ text.length ∧ data = text.take n ∧ rest = text.drop n := by
  rw [takeText] at h
  split_ifs at h with hshort
  cases h
  exact ⟨Nat.le_of_not_lt hshort, rfl, rfl⟩

/-- A chunk within the limit is read as a whole, with the line end behind it. -/
theorem chunkDataText_more {limit size : Nat} {body body' text rest : List UInt8}
    (h : chunkDataText limit body size text = .ok (.inl body', rest)) :
    body'.length ≤ limit ∧ body' = body ++ text.take size ∧
      (text.drop size).take 2 = Http.crlf ∧ rest = text.drop (size + 2) := by
  obtain ⟨data, behind, htake, hrest⟩ := ran_bind h
  obtain ⟨hlength, rfl, rfl⟩ := takeText_ok htake
  dsimp only at hrest
  split_ifs at hrest with hfull
  · cases hrest
  · obtain ⟨crlf, left, htwo, hend⟩ := ran_bind hrest
    obtain ⟨-, rfl, rfl⟩ := takeText_ok htwo
    split_ifs at hend with hcrlf
    · cases hend
      have hsize : min size (limit + 1 - body.length) = size := by
        rw [List.length_append, List.length_take] at hfull
        omega
      rw [hsize] at hfull hcrlf ⊢
      refine ⟨Nat.le_of_not_lt hfull, rfl, hcrlf, ?_⟩
      rw [List.drop_drop]
    · cases hend

/-- A chunk beyond the limit ends the body within its data. -/
theorem chunkDataText_full {limit size : Nat} {body out text rest : List UInt8}
    (h : chunkDataText limit body size text = .ok (.inr out, rest)) :
    limit < out.length ∧ out <+: body ++ text.take size := by
  obtain ⟨data, behind, htake, hrest⟩ := ran_bind h
  obtain ⟨hlength, rfl, rfl⟩ := takeText_ok htake
  dsimp only at hrest
  split_ifs at hrest with hfull
  · cases hrest
    refine ⟨hfull, ?_⟩
    rw [List.prefix_append_right_inj]
    exact List.take_prefix_take_left (Nat.min_le_left _ _)
  · obtain ⟨crlf, left, htwo, hend⟩ := ran_bind hrest
    split_ifs at hend
    · cases hend
    · cases hend

/-- The size on the chunk-size line at the beginning of a text, and what follows the line. -/
def chunkLine (rt : Runtime) (text : List UInt8) : Option (Nat × List UInt8) :=
  (findLineFeed text).bind fun pos =>
    (chunkSize rt (lineText (text.take (pos + 1)))).map fun size => (size, text.drop (pos + 1))

theorem chunkLine_shorter {rt : Runtime} {text rest : List UInt8} {size n : Nat}
    (h : chunkLine rt text = some (size, rest)) : (rest.drop n).length < text.length := by
  obtain ⟨pos, hpos, hsize⟩ := Option.bind_eq_some_iff.mp h
  obtain ⟨size', -, hrest⟩ := Option.map_eq_some_iff.mp hsize
  have hwithin : pos + 1 ≤ text.length := position_within hpos
  cases hrest
  rw [List.length_drop, List.length_drop]
  omega

/-- One round reads a chunk-size line; the chunk of size zero ends the body. -/
theorem chunkText_ok {rt : Runtime} {limit : Nat} {body text rest : List UInt8}
    {next : List UInt8 ⊕ List UInt8} (h : chunkText rt limit body text = .ok (next, rest)) :
    ∃ size behind, chunkLine rt text = some (size, behind) ∧
      ((size = 0 ∧ next = .inr body) ∨
        (size ≠ 0 ∧ chunkDataText limit body size behind = .ok (next, rest))) := by
  obtain ⟨line, behind, hline, hchunk⟩ := ran_bind h
  obtain ⟨pos, hpos, rfl, rfl⟩ := lineIn_ok hline
  unfold chunkBehindText at hchunk
  cases hsize : chunkSize rt (lineText (text.take (pos + 1))) with
  | none =>
      rw [hsize] at hchunk
      cases hchunk
  | some size =>
      rw [hsize] at hchunk
      refine ⟨size, text.drop (pos + 1), ?_, ?_⟩
      · rw [chunkLine, hpos, Option.bind_some, hsize, Option.map_some]
      by_cases hzero : size = 0
      · left
        dsimp only at hchunk
        rw [if_pos hzero] at hchunk
        obtain ⟨u, left, -, hend⟩ := ran_bind hchunk
        cases hend
        exact ⟨hzero, rfl⟩
      · right
        dsimp only at hchunk
        rw [if_neg hzero] at hchunk
        exact ⟨hzero, hchunk⟩

/-- The rounds of a chunked body go on within the limit only. -/
theorem chunkText_within {rt : Runtime} {limit : Nat} {body body' text rest : List UInt8}
    (h : chunkText rt limit body text = .ok (.inl body', rest)) : body'.length ≤ limit := by
  obtain ⟨size, behind, -, ⟨-, hend⟩ | ⟨-, hchunk⟩⟩ := chunkText_ok h
  · cases hend
  · exact (chunkDataText_more hchunk).1

/-! ## Bodies agree -/

theorem chunks_agrees {rt : Runtime} {limit : Nat} (hlimit : limit < rt.usizeMax) :
    Agrees (iterate Buffered.pending (chunkStep rt limit) (chunkStep_consumes rt limit) [])
      (chunksText rt limit) := by
  unfold chunksText
  apply Agrees.iterate (fun body : List UInt8 => body.length ≤ limit)
  · intro body hbody
    exact chunkStep_agrees hlimit hbody
  · intro body text body' text' _ h
    exact chunkText_within h
  · exact Nat.zero_le limit

/-- A body up to the end of the connection has what the limit leaves of the text. -/
theorem readToEnd_agree (limit : Nat) {r : ResponseReader} (hr : Unbroken r.stream) :
    ∃ r', readToEnd limit r = .ok (r.content.take limit, r') := by
  obtain ⟨r', -, hsame, hends⟩ := gather_ends timedRead (.ok ())
    (fun body : List UInt8 => if limit < body.length then some (.ok ()) else none)
    (by decide : 0 < 4096) hr
  have hrun : ∀ {answer : Except Failure Unit}, answer = .ok () →
      gather 4096 timedRead (.ok ())
        (fun body : List UInt8 => if limit < body.length then some (.ok ()) else none) r =
          settle answer r' →
      readToEnd limit r = .ok (r'.buffer.take limit, r') := by
    rintro answer rfl h
    show (gather 4096 timedRead (.ok ()) _ r >>= fun p =>
      (.ok (p.2.buffer.take limit, p.2) : Except (Stop Failure) _)) = _
    rw [h]
    rfl
  refine ⟨r', ?_⟩
  rcases hends with ⟨answer, hdone, hgather⟩ | ⟨hall, -, hgather⟩
  · -- more than the limit has arrived
    split_ifs at hdone with hlong
    cases hdone
    rw [hrun rfl hgather, ← hsame, Buffered.content, List.take_append_of_le_length hlong.le]
  · rw [hrun rfl hgather, hall]

theorem readChunked_agrees {rt : Runtime} {limit : Nat} (hlimit : limit < rt.usizeMax) :
    Agrees (readChunked rt limit) (chunkedText rt limit) :=
  (chunks_agrees hlimit).bind fun _ => .pure _

/-- Reading the body gives what the text says, however it arrives. -/
theorem readBody_agree {rt : Runtime} {limit : Nat} (hlimit : limit < rt.usizeMax) (code : UInt16)
    (headers : List (String × String)) {r : ResponseReader} (hr : Unbroken r.stream) :
    Agree (fun p body => p.1 = body) (readBody rt code headers limit r)
      (bodyText rt code headers limit r.content) := by
  rw [readBody, bodyText]
  by_cases hempty : code = 204 ∨ code = 304
  · rw [if_pos hempty, if_pos hempty]
    exact .ok rfl
  rw [if_neg hempty, if_neg hempty]
  by_cases hchunked : isChunked headers
  · rw [if_pos hchunked, if_pos hchunked]
    exact (readChunked_agrees hlimit).value hr
  rw [if_neg hchunked, if_neg hchunked]
  cases contentLength rt headers with
  | none =>
      obtain ⟨r', hrun⟩ := readToEnd_agree limit hr
      dsimp only
      rw [hrun]
      exact .ok rfl
  | some n =>
      have htake : Agrees (fill 4096 (min n (limit + 1)) >>= fun _ =>
          drain (min n (limit + 1)) >>= fun body => (pure (body.take limit) : ReadM (List UInt8)))
          (lengthText n limit) :=
        take_agrees 4096 _ fun body => .pure _
      dsimp only
      rw [checkedAdd_bind hlimit]
      exact htake.value hr

/-! ## The body that the framing assigns -/

/-- The data of the chunks that follow one another from the beginning of a text. Of a body that
breaks off it is the data before the break. -/
def chunkedData (rt : Runtime) (text : List UInt8) : List UInt8 :=
  match h : chunkLine rt text with
  | none => []
  | some (size, rest) =>
      have : (rest.drop (size + 2)).length < text.length := chunkLine_shorter h
      if size = 0 then []
      else rest.take size ++
        if (rest.drop size).take 2 = Http.crlf then chunkedData rt (rest.drop (size + 2)) else []
termination_by text.length
decreasing_by assumption

/-- The body that the framing of a response assigns to the text behind its head. -/
def assignedBody (rt : Runtime) (code : UInt16) (headers : List (String × String))
    (text : List UInt8) : List UInt8 :=
  if code = 204 ∨ code = 304 then []
  else if isChunked headers then chunkedData rt text
  else
    match contentLength rt headers with
    | some n => text.take n
    | none => text

theorem chunkedData_last {rt : Runtime} {text rest : List UInt8}
    (h : chunkLine rt text = some (0, rest)) : chunkedData rt text = [] := by
  rw [chunkedData]
  split
  · rfl
  · simp_all

theorem chunkedData_chunk {rt : Runtime} {text rest : List UInt8} {size : Nat}
    (h : chunkLine rt text = some (size, rest)) (hsize : size ≠ 0) :
    chunkedData rt text = rest.take size ++
      if (rest.drop size).take 2 = Http.crlf then chunkedData rt (rest.drop (size + 2)) else [] := by
  rw [chunkedData]
  split
  · simp_all
  · rename_i hline
    rw [h] at hline
    cases hline
    rw [if_neg hsize]

theorem take_of_prefix {α : Type} {xs ys : List α} {n : Nat} (h : xs <+: ys) (hn : n ≤ xs.length) :
    xs.take n = ys.take n := by
  obtain ⟨zs, rfl⟩ := h
  rw [List.take_append_of_le_length hn]

/-- What the rounds of a chunked body collect is the data of the chunks, up to the limit. The
data collected and the data to come are all there is in every round. -/
theorem chunksText_data {rt : Runtime} {limit : Nat} {text body rest : List UInt8}
    (h : chunksText rt limit text = .ok (body, rest)) :
    body.take limit = (chunkedData rt text).take limit := by
  refine iterate_rule
    (P := fun body t => body.length ≤ limit ∧ body ++ chunkedData rt t = chunkedData rt text)
    (Q := fun body => body.take limit = (chunkedData rt text).take limit) ?_ ?_
    ⟨Nat.zero_le _, rfl⟩ h
  · rintro body t body' t' ⟨-, hall⟩ hround
    obtain ⟨size, behind, hline, ⟨-, hend⟩ | ⟨hsize, hchunk⟩⟩ := chunkText_ok hround
    · cases hend
    · obtain ⟨hwithin, rfl, hcrlf, rfl⟩ := chunkDataText_more hchunk
      refine ⟨hwithin, ?_⟩
      rw [← hall, chunkedData_chunk hline hsize, if_pos hcrlf, List.append_assoc]
  · rintro body t out t' ⟨-, hall⟩ hround
    obtain ⟨size, behind, hline, ⟨rfl, hend⟩ | ⟨hsize, hchunk⟩⟩ := chunkText_ok hround
    · cases hend
      rw [← hall, chunkedData_last hline, List.append_nil]
    · obtain ⟨hfull, hbegins⟩ := chunkDataText_full hchunk
      refine take_of_prefix (hbegins.trans ?_) hfull.le
      rw [← hall, chunkedData_chunk hline hsize, ← List.append_assoc]
      exact List.prefix_append _ _

/-- A body that is read is the assigned one, up to the limit. -/
theorem bodyText_assigned {rt : Runtime} {code : UInt16} {headers : List (String × String)}
    {limit : Nat} {text body : List UInt8} (h : bodyText rt code headers limit text = .ok body) :
    body = (assignedBody rt code headers text).take limit := by
  rw [bodyText] at h
  rw [assignedBody]
  by_cases hempty : code = 204 ∨ code = 304
  · rw [if_pos hempty] at h ⊢
    cases h
    rw [List.take_nil]
  rw [if_neg hempty] at h ⊢
  by_cases hchunked : isChunked headers
  · rw [if_pos hchunked] at h ⊢
    cases hrun : chunkedText rt limit text with
    | error e =>
        rw [hrun] at h
        cases h
    | ok q =>
        obtain ⟨data, rest, hdata, hend⟩ := ran_bind hrun
        rw [hrun] at h
        cases h
        cases hend
        exact chunksText_data hdata
  rw [if_neg hchunked] at h ⊢
  cases hlength : contentLength rt headers with
  | none =>
      rw [hlength] at h
      cases h
      rfl
  | some n =>
      rw [hlength] at h
      dsimp only at h ⊢
      cases hrun : lengthText n limit text with
      | error e =>
          rw [hrun] at h
          cases h
      | ok q =>
          obtain ⟨data, rest, hdata, hend⟩ := ran_bind hrun
          obtain ⟨-, rfl, -⟩ := takeText_ok hdata
          rw [hrun] at h
          cases h
          cases hend
          show (text.take (min n (limit + 1))).take limit = (text.take n).take limit
          rw [List.take_take, List.take_take]
          congr 1
          omega

/-! ## Lines within their limit -/

/-- The first line of a text is at most `maxLine` long. -/
def ShortLine (text : List UInt8) : Prop := ∀ pos, findLineFeed text = some pos → pos + 1 ≤ maxLine

/-- So are the trailer lines at its beginning, up to the empty one. -/
inductive ShortTrailers : List UInt8 → Prop where
  | intro {text : List UInt8} (line : ShortLine text)
      (more : ∀ pos, findLineFeed text = some pos → lineText (text.take (pos + 1)) ≠ "" →
        ShortTrailers (text.drop (pos + 1))) : ShortTrailers text

/-- So are the chunk-size lines of a chunked body and the trailer lines behind its chunks. -/
inductive ShortChunks (rt : Runtime) : List UInt8 → Prop where
  | intro {text : List UInt8} (line : ShortLine text)
      (last : ∀ rest, chunkLine rt text = some (0, rest) → ShortTrailers rest)
      (more : ∀ size rest, chunkLine rt text = some (size, rest) → size ≠ 0 →
        (rest.drop size).take 2 = Http.crlf → ShortChunks rt (rest.drop (size + 2))) :
      ShortChunks rt text

theorem findLineFeed_within {text : List UInt8} {pos : Nat} (h : findLineFeed text = some pos) :
    pos + 1 ≤ text.length := position_within h

/-- A text that is no longer than a line may be has short lines only. -/
theorem ShortTrailers.of_length {text : List UInt8} (h : text.length ≤ maxLine) :
    ShortTrailers text := by
  induction hn : text.length using Nat.strongRecOn generalizing text with
  | _ n ih =>
      refine .intro (fun pos hpos => (findLineFeed_within hpos).trans h) ?_
      intro pos hpos _
      have hwithin := findLineFeed_within hpos
      have hless : (text.drop (pos + 1)).length < text.length := by
        rw [List.length_drop]
        omega
      exact ih _ (hn ▸ hless) (hless.le.trans h) rfl

theorem ShortChunks.of_length {rt : Runtime} {text : List UInt8} (h : text.length ≤ maxLine) :
    ShortChunks rt text := by
  induction hn : text.length using Nat.strongRecOn generalizing text with
  | _ n ih =>
      refine .intro (fun pos hpos => (findLineFeed_within hpos).trans h) ?_ ?_
      · intro rest hline
        have hless := chunkLine_shorter (n := 0) hline
        exact .of_length (hless.le.trans h)
      · intro size rest hline _ _
        have hless := chunkLine_shorter (n := size + 2) hline
        exact ih _ (hn ▸ hless) (hless.le.trans h) rfl

theorem pieceText_decides {pat text : List UInt8} {limit : Nat} (tooLong : String)
    (h : ∀ pos, position pat text = some pos → pos + pat.length ≤ limit + 1) :
    pieceText pat limit tooLong text ≠ .error .overlong := by
  rw [pieceText]
  cases hfound : position pat text with
  | none => simp
  | some pos =>
      have hshort := h pos hfound
      dsimp only
      rw [if_neg (by omega)]
      simp

theorem headText_decides {limit : Nat} {text : List UInt8}
    (h : ∀ pos, findDoubleCrlf text = some pos → pos + 4 ≤ limit) :
    headText limit text ≠ .error .overlong := by
  intro hover
  rcases error_bind hover with hpiece | ⟨piece, rest, -, hend⟩
  · exact pieceText_decides _ (fun pos hpos => Nat.le_succ_of_le (h pos hpos)) hpiece
  · cases hend

theorem lineIn_decides {text : List UInt8} (h : ShortLine text) :
    lineIn maxLine text ≠ .error .overlong := by
  intro hover
  rcases error_bind hover with hpiece | ⟨piece, rest, -, hend⟩
  · exact pieceText_decides _ (fun pos hpos => Nat.le_succ_of_le (h pos hpos)) hpiece
  · cases hend

theorem takeText_decides (n : Nat) (text : List UInt8) : takeText n text ≠ .error .overlong := by
  rw [takeText]
  split_ifs
  · simp
  · simp

/-- Short trailer lines are skipped or end early. The induction is on the lines. -/
theorem trailersText_decides {text : List UInt8} (h : ShortTrailers text) :
    trailersText text ≠ .error .overlong := by
  induction h with
  | @intro text line more ih =>
      intro hover
      rcases iterate_error hover with hround | ⟨u, rest, hround, hrest⟩
      · rcases error_bind hround with hline | ⟨x, rest, -, hend⟩
        · exact lineIn_decides line hline
        · cases hend
      · obtain ⟨x, rest', hline, hend⟩ := ran_bind hround
        obtain ⟨pos, hpos, rfl, rfl⟩ := lineIn_ok hline
        by_cases hempty : lineText (text.take (pos + 1)) = ""
        · rw [if_pos hempty] at hend
          cases hend
        · rw [if_neg hempty] at hend
          cases hend
          exact ih pos hpos hempty hrest

theorem chunkDataText_decides (limit : Nat) (body : List UInt8) (size : Nat) (text : List UInt8) :
    chunkDataText limit body size text ≠ .error .overlong := by
  intro hover
  rcases error_bind hover with htake | ⟨data, rest, -, hrest⟩
  · exact takeText_decides _ _ htake
  · dsimp only at hrest
    split_ifs at hrest
    · cases hrest
    · rcases error_bind hrest with htwo | ⟨crlf, rest', -, hend⟩
      · exact takeText_decides _ _ htwo
      · split_ifs at hend
        · cases hend
        · cases hend

/-- A round on short lines is decided. -/
theorem chunkText_decides {rt : Runtime} {limit : Nat} {body text : List UInt8}
    (hline : ShortLine text)
    (hlast : ∀ rest, chunkLine rt text = some (0, rest) → ShortTrailers rest) :
    chunkText rt limit body text ≠ .error .overlong := by
  intro hover
  rcases error_bind hover with hfirst | ⟨line, behind, hfirst, hchunk⟩
  · exact lineIn_decides hline hfirst
  obtain ⟨pos, hpos, rfl, rfl⟩ := lineIn_ok hfirst
  unfold chunkBehindText at hchunk
  cases hsize : chunkSize rt (lineText (text.take (pos + 1))) with
  | none =>
      rw [hsize] at hchunk
      cases hchunk
  | some size =>
      rw [hsize] at hchunk
      have hread : chunkLine rt text = some (size, text.drop (pos + 1)) := by
        rw [chunkLine, hpos, Option.bind_some, hsize, Option.map_some]
      dsimp only at hchunk
      by_cases hzero : size = 0
      · rw [if_pos hzero] at hchunk
        rcases error_bind hchunk with htrailers | ⟨u, rest, -, hend⟩
        · exact trailersText_decides (hlast _ (hzero ▸ hread)) htrailers
        · cases hend
      · rw [if_neg hzero] at hchunk
        exact chunkDataText_decides limit body size _ hchunk

theorem chunksText_decides {rt : Runtime} {limit : Nat} {text : List UInt8}
    (h : ShortChunks rt text) (body : List UInt8) :
    iterate List.length (chunkText rt limit) (chunkText_consumes rt limit) body text ≠
      .error .overlong := by
  induction h generalizing body with
  | @intro text line last more ih =>
      intro hover
      rcases iterate_error hover with hround | ⟨body', rest, hround, hrest⟩
      · exact chunkText_decides line last hround
      · obtain ⟨size, behind, hline, ⟨-, hend⟩ | ⟨hsize, hchunk⟩⟩ := chunkText_ok hround
        · cases hend
        · obtain ⟨-, -, hcrlf, rfl⟩ := chunkDataText_more hchunk
          exact ih size behind hline hsize hcrlf body' hrest

/-- The text of a body is decided if its lines are short. -/
theorem bodyText_decides {rt : Runtime} {code : UInt16} {headers : List (String × String)}
    {limit : Nat} {text : List UInt8}
    (h : ¬(code = 204 ∨ code = 304) → isChunked headers → ShortChunks rt text) :
    bodyText rt code headers limit text ≠ .error .overlong := by
  have hvalue : ∀ {x : Except (Verdict Failure) (List UInt8 × List UInt8)},
      x ≠ .error .overlong → x.map Prod.fst ≠ .error .overlong := by
    intro x hx hmapped
    cases x with
    | error e =>
        cases hmapped
        exact hx rfl
    | ok p => cases hmapped
  rw [bodyText]
  split_ifs with hempty hchunked
  · simp
  · apply hvalue
    intro hover
    rcases error_bind hover with hchunks | ⟨body, rest, -, hend⟩
    · exact chunksText_decides (h hempty hchunked) [] hchunks
    · cases hend
  · cases contentLength rt headers with
    | none => simp
    | some n =>
        apply hvalue
        intro hover
        rcases error_bind hover with htake | ⟨body, rest, -, hend⟩
        · exact takeText_decides _ _ htake
        · cases hend

/-! ## Nothing panics -/

/-- A piece that has been looked for lies in the buffer. -/
theorem piece_safe {α : Type} {pat : List UInt8} (n limit : Nat) (tooLong : String)
    {k : Nat → List UInt8 → ReadM α} (hk : ∀ pos piece, Safe (k pos piece)) :
    Safe (readMore n (lookFor (position pat) limit tooLong) >>= fun pos =>
      drain (pos + pat.length) >>= fun piece => k pos piece) := by
  refine Safe.bind_of (fun r => gather_safe r) fun r pos r' hrun => ?_
  have hwithin := position_within (lookFor_ok (gather_done hrun))
  show (drain (pos + pat.length) r' >>= fun p => k pos p.1 p.2) ≠ _
  rw [drain_buffer hwithin]
  exact hk pos _ _

theorem take_safe {α : Type} (n count : Nat) {k : List UInt8 → ReadM α}
    (hk : ∀ xs, Safe (k xs)) : Safe (fill n count >>= fun _ => drain count >>= k) := by
  refine Safe.bind_of (fun r => gather_safe r) fun r u r' hrun => ?_
  have hdone := gather_done hrun
  have hfull : count ≤ r'.buffer.length := by
    refine Nat.le_of_not_lt fun hshort => ?_
    rw [if_pos hshort] at hdone
    cases hdone
  show (drain count r' >>= fun p => k p.1 p.2) ≠ _
  rw [drain_buffer hfull]
  exact hk _ _

theorem readHead_safe (limit : Nat) : Safe (readHead limit) :=
  piece_safe 512 limit _ fun _ _ => .pure _

theorem readLine_safe (limit : Nat) : Safe (readLine limit) :=
  piece_safe 256 limit _ fun _ _ => .pure _

theorem skipTrailers_safe : Safe skipTrailers := by
  refine Safe.iterate (fun _ => True) ?_ (fun _ _ _ _ _ _ => trivial) trivial
  intro u _
  exact (readLine_safe maxLine).bind fun line => .pure _

theorem chunkData_safe {rt : Runtime} {limit : Nat} (hlimit : limit < rt.usizeMax)
    {body : List UInt8} (hbody : body.length ≤ limit) (size : Nat) :
    Safe (chunkData rt limit body size) := by
  rw [chunkData, checkedAdd_bind hlimit, checkedSub_bind (by omega)]
  refine take_safe 4096 _ fun data => ?_
  dsimp only
  split_ifs
  · exact .pure _
  · rw [readExact, bind_assoc]
    refine take_safe 2 2 fun crlf => ?_
    split_ifs
    · exact .pure _
    · exact .throw _

theorem chunkStep_safe {rt : Runtime} {limit : Nat} (hlimit : limit < rt.usizeMax)
    {body : List UInt8} (hbody : body.length ≤ limit) : Safe (chunkStep rt limit body) := by
  refine (readLine_safe maxLine).bind fun line => ?_
  unfold chunkBehind
  cases chunkSize rt line with
  | none => exact .throw _
  | some size =>
      dsimp only
      split_ifs
      · exact skipTrailers_safe.bind fun _ => .pure _
      · exact chunkData_safe hlimit hbody size

/-- The rounds go on within the limit, so that the room for the next chunk does not underflow. -/
theorem chunkStep_within {rt : Runtime} {limit : Nat} {body body' : List UInt8}
    {r r' : ResponseReader} (h : chunkStep rt limit body r = .ok (.inl body', r')) :
    body'.length ≤ limit := by
  obtain ⟨line, r₁, -, hchunk⟩ := ran_bind h
  unfold chunkBehind at hchunk
  cases hsize : chunkSize rt line with
  | none =>
      rw [hsize] at hchunk
      cases hchunk
  | some size =>
      rw [hsize] at hchunk
      dsimp only at hchunk
      by_cases hzero : size = 0
      · rw [if_pos hzero] at hchunk
        obtain ⟨u, r₂, -, hend⟩ := ran_bind hchunk
        cases hend
      · rw [if_neg hzero] at hchunk
        obtain ⟨most, r₂, -, hroom⟩ := ran_bind hchunk
        obtain ⟨room, r₃, -, hfill⟩ := ran_bind hroom
        obtain ⟨u, r₄, -, hdrain⟩ := ran_bind hfill
        obtain ⟨data, r₅, -, hrest⟩ := ran_bind hdrain
        dsimp only at hrest
        split_ifs at hrest with hfull
        · cases hrest
        · obtain ⟨crlf, r₆, -, hend⟩ := ran_bind hrest
          split_ifs at hend
          · cases hend
            exact Nat.le_of_not_lt hfull
          · cases hend

theorem readChunked_safe {rt : Runtime} {limit : Nat} (hlimit : limit < rt.usizeMax) :
    Safe (readChunked rt limit) := by
  refine Safe.bind ?_ fun body => .pure _
  apply Safe.iterate (fun body : List UInt8 => body.length ≤ limit)
  · intro body hbody
    exact chunkStep_safe hlimit hbody
  · intro body r body' r' _ h
    exact chunkStep_within h
  · exact Nat.zero_le limit

/-- Sizes fit and nothing outside of the buffer is taken, whatever arrives. -/
theorem readBody_safe {rt : Runtime} {limit : Nat} (hlimit : limit < rt.usizeMax) (code : UInt16)
    (headers : List (String × String)) : Safe (readBody rt code headers limit) := by
  rw [readBody]
  split_ifs
  · exact .pure _
  · exact readChunked_safe hlimit
  · cases contentLength rt headers with
    | none =>
        refine Safe.bind (fun r => gather_safe r) fun u => ?_
        intro r h
        cases h
    | some n =>
        dsimp only
        rw [checkedAdd_bind hlimit]
        exact take_safe 4096 _ fun body => .pure _

end VeSmart.Metrics
