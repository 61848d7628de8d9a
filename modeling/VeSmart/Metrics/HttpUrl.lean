import VeSmart.Lib.Http
import VeSmart.Lib.Time
import VeSmart.Protocol.Items

set_option autoImplicit false

/-! # Request construction (`victron-metrics/src/http_url.rs`)

The client posts a body to a URL that was checked when the client was made. `request_single`: what
it sends is one request message, whatever the URL and the body. -/

namespace VeSmart.Metrics

open VeSmart.Lib VeSmart.Protocol

def defaultImportPath : String := "/api/v1/import/prometheus"

inductive ClientConfigError where
  | unsupportedScheme (scheme : String)
  | missingHost
  | invalidPort (port : String)
  | unsupportedHost (host : String)
  | invalidHost (host : String)
  | invalidPath (path : String)
  | queryOrFragment (url : String)
  deriving DecidableEq

/-! ## The URL -/

/-- A byte of a host: an ASCII letter or digit, `-`, `.` or `_`. -/
def hostByte (b : UInt8) : Bool :=
  Http.isAlpha b || Http.isDigit b || [0x2d, 0x2e, 0x5f].contains b

def isValidHost (host : String) : Bool :=
  host ≠ "" && host.utf8ByteSize ≤ 253 && (utf8 host).all hostByte

/-- A byte of a path: visible, and none of the quote, the angle brackets, the backslash, the caret,
the grave accent, the braces, the bar, `#` and `?`. -/
def pathByte (b : UInt8) : Bool :=
  (0x21 ≤ b && b ≤ 0x7e) &&
    !([0x20, 0x22, 0x3c, 0x3e, 0x5c, 0x5e, 0x60, 0x7b, 0x7c, 0x7d, 0x23, 0x3f].contains b)

def isValidPath (path : String) : Bool :=
  path.toList.head? = some '/' && (utf8 path).all pathByte

def validateHost (host : String) : Except ClientConfigError Unit :=
  if isValidHost host then .ok () else .error (.invalidHost host)

def validatePath (path : String) : Except ClientConfigError Unit :=
  if isValidPath path then .ok () else .error (.invalidPath path)

/-- An optional plus sign and digits, within 16 bits. -/
def parseU16 (cs : List Char) : Option UInt16 :=
  let digits := if cs.head? = some '+' then cs.tail else cs
  (parseDigits digits).bind fun n => if n < 2 ^ 16 then some (.ofNat n) else none

/-- What is before and behind the last `c`. -/
def rsplitOnce (c : Char) (cs : List Char) : Option (List Char × List Char) :=
  if c ∈ cs then
    some ((cs.reverse.dropWhile (· ≠ c)).tail.reverse, (cs.reverse.takeWhile (· ≠ c)).reverse)
  else none

def splitAuthority (authority : List Char) : Except ClientConfigError (String × UInt16) :=
  if authority = [] then .error .missingHost
  else if '@' ∈ authority then .error (.invalidHost (.ofList authority))
  else
    match rsplitOnce ':' authority with
    | none => .ok (.ofList authority, 80)
    | some (host, port) =>
        if host = [] then .error .missingHost
        else if ':' ∈ host ∨ host.head? = some '[' then .error (.unsupportedHost (.ofList host))
        else
          match (parseU16 port).filter (· ≠ 0) with
          | some p => .ok (.ofList host, p)
          | none => .error (.invalidPort (.ofList port))

def parseHttpUrl (url : String) : Except ClientConfigError (String × UInt16 × String) :=
  if "http://".toList.isPrefixOf url.toList then do
    let rest := url.toList.drop 7
    if '?' ∈ rest ∨ '#' ∈ rest then .error (.queryOrFragment url)
    else do
      let path :=
        if '/' ∈ rest then String.ofList (rest.dropWhile (· ≠ '/')) else defaultImportPath
      let (host, port) ← splitAuthority (rest.takeWhile (· ≠ '/'))
      validateHost host
      validatePath path
      .ok (host, port, path)
  else if "https://".toList.isPrefixOf url.toList then .error (.unsupportedScheme "https")
  else .error (.unsupportedScheme (.ofList (url.toList.takeWhile (· ≠ ':'))))

/-! ## The client -/

def defaultConnectTimeout : Duration := .fromSecs 5
def defaultReadTimeout : Duration := .fromSecs 10
def maxErrorBodyBytes : Nat := 16 * 1024

structure VictoriaMetricsClient where
  host : String
  port : UInt16
  path : String
  connectTimeout : Duration
  readTimeout : Duration
  maxErrorBody : Nat

def VictoriaMetricsClient.new (baseUrl : String) :
    Except ClientConfigError VictoriaMetricsClient := do
  let (host, port, path) ← parseHttpUrl baseUrl
  .ok ⟨host, port, path, defaultConnectTimeout, defaultReadTimeout, maxErrorBodyBytes⟩

def buildRequest (host : String) (port : UInt16) (path body : String) : List UInt8 :=
  utf8 "POST " ++ utf8 path ++ utf8 " HTTP/1.1\r\nHost: " ++ utf8 host ++
    (if port ≠ 80 then utf8 ":" ++ utf8 (toString port.toNat) else []) ++
    utf8 "\r\nContent-Type: text/plain; version=0.0.4\r\nContent-Length: " ++
    utf8 (toString body.utf8ByteSize) ++ utf8 "\r\nConnection: close\r\n\r\n" ++ utf8 body

/-! ## Texts as bytes -/

theorem utf8_ofList (cs : List Char) :
    utf8 (String.ofList cs) = cs.flatMap String.utf8EncodeChar := by
  simp [utf8, String.toByteArray_ofList, List.utf8Encode]

theorem utf8EncodeChar_ascii {c : Char} (h : c.toNat < 128) :
    String.utf8EncodeChar c = [UInt8.ofNat c.toNat] := by
  rw [String.utf8EncodeChar]
  simp
  intro hlarge
  exact absurd h (by omega)

theorem utf8_ascii {cs : List Char} (h : ∀ c ∈ cs, c.toNat < 128) :
    utf8 (String.ofList cs) = cs.map fun c => UInt8.ofNat c.toNat := by
  rw [utf8_ofList]
  induction cs with
  | nil => rfl
  | cons c cs ih =>
      rw [List.flatMap_cons, List.map_cons, ih fun c hc => h c (List.mem_cons_of_mem _ hc),
        utf8EncodeChar_ascii (h c (List.mem_cons_self ..))]
      rfl

theorem isDigit_toNat {c : Char} (h : c.isDigit = true) : 48 ≤ c.toNat ∧ c.toNat ≤ 57 := by
  simp only [Char.isDigit, Bool.and_eq_true, decide_eq_true_eq] at h
  exact ⟨UInt32.le_iff_toNat_le.mp h.1, UInt32.le_iff_toNat_le.mp h.2⟩

/-- The text of a number are its digits. -/
theorem utf8_toString (n : Nat) : (∀ b ∈ utf8 (toString n), Http.isDigit b = true) ∧
    Http.decimal (utf8 (toString n)) = some n := by
  have hdigits : ∀ c ∈ Nat.toDigits 10 n, 48 ≤ c.toNat ∧ c.toNat ≤ 57 := by
    intro c hc
    exact isDigit_toNat (Nat.isDigit_of_mem_toDigits (by decide) (by decide) hc)
  have hbytes : utf8 (toString n) = (Nat.toDigits 10 n).map fun c => UInt8.ofNat c.toNat := by
    have hlist : toString n = String.ofList (Nat.toDigits 10 n) := rfl
    rw [hlist]
    exact utf8_ascii fun c hc => by have := hdigits c hc; omega
  rw [hbytes]
  constructor
  · intro b hb
    obtain ⟨c, hc, rfl⟩ := List.mem_map.mp hb
    obtain ⟨hlo, hhi⟩ := hdigits c hc
    simp only [Http.isDigit, Bool.and_eq_true, decide_eq_true_eq, UInt8.le_iff_toNat_le,
      UInt8.toNat_ofNat']
    simp
    omega
  · rw [Http.decimal, List.map_map]
    have hback : (Nat.toDigits 10 n).map ((fun b : UInt8 => Char.ofNat b.toNat) ∘
        fun c => UInt8.ofNat c.toNat) = Nat.toDigits 10 n := by
      conv_rhs => rw [← List.map_id (Nat.toDigits 10 n)]
      apply List.map_congr_left
      intro c hc
      obtain ⟨hlo, hhi⟩ := hdigits c hc
      have hsmall : (UInt8.ofNat c.toNat).toNat = c.toNat := by
        rw [UInt8.toNat_ofNat']
        omega
      show Char.ofNat (UInt8.ofNat c.toNat).toNat = c
      rw [hsmall, Char.ofNat_toNat]
    rw [hback, parseDigits_toDigits]
/-! ## The message -/

/-- The host, with the port unless it is 80. -/
def hostField (host : String) (port : UInt16) : List UInt8 :=
  utf8 host ++ if port ≠ 80 then utf8 ":" ++ utf8 (toString port.toNat) else []

/-- The message that a client sends. -/
def VictoriaMetricsClient.message (c : VictoriaMetricsClient) (body : String) : Http.Request where
  method := utf8 "POST"
  target := utf8 c.path
  version := utf8 "HTTP/1.1"
  fields := [⟨utf8 "Host", hostField c.host c.port⟩,
    ⟨utf8 "Content-Type", utf8 "text/plain; version=0.0.4"⟩,
    ⟨utf8 "Content-Length", utf8 (toString (utf8 body).length)⟩,
    ⟨utf8 "Connection", utf8 "close"⟩]
  body := utf8 body

/-- The last steps of the parser. -/
theorem validated {authority : List Char} {given host path : String} {port : UInt16}
    (h : (splitAuthority authority >>= fun r => validateHost r.1 >>= fun _ =>
      validatePath given >>= fun _ => Except.ok (r.1, r.2, given)) = .ok (host, port, path)) :
    isValidHost host = true ∧ isValidPath path = true := by
  obtain ⟨r, -, hrest⟩ := bind_eq_ok.mp h
  obtain ⟨_, hhost, hrest⟩ := bind_eq_ok.mp hrest
  obtain ⟨_, hpath, hrest⟩ := bind_eq_ok.mp hrest
  cases hrest
  unfold validateHost at hhost
  unfold validatePath at hpath
  split_ifs at hhost hpath with hvalid hvalid'
  exact ⟨hvalid, hvalid'⟩

/-- A host and a path that were accepted are valid. -/
theorem parseHttpUrl_valid {url host path : String} {port : UInt16}
    (h : parseHttpUrl url = .ok (host, port, path)) :
    isValidHost host = true ∧ isValidPath path = true := by
  unfold parseHttpUrl at h
  split_ifs at h with hscheme
  dsimp only at h
  split_ifs at h with hquery hslash
  · exact validated h
  · exact validated h

theorem isVchar_digit (b : UInt8) (h : Http.isDigit b = true) : Http.isVchar b = true := by
  simp only [Http.isDigit, Http.isVchar, Bool.and_eq_true, decide_eq_true_eq,
    UInt8.le_iff_toNat_le, UInt8.reduceToNat] at h ⊢
  omega

theorem isVchar_alpha (b : UInt8) (h : Http.isAlpha b = true) : Http.isVchar b = true := by
  simp only [Http.isAlpha, Http.isVchar, Bool.and_eq_true, Bool.or_eq_true, decide_eq_true_eq,
    UInt8.le_iff_toNat_le, UInt8.reduceToNat] at h ⊢
  omega

theorem isVchar_host (b : UInt8) (h : hostByte b = true) : Http.isVchar b = true := by
  rw [hostByte, Bool.or_eq_true, Bool.or_eq_true, List.contains_iff_mem] at h
  rcases h with (halpha | hdigit) | hpunct
  · exact isVchar_alpha b halpha
  · exact isVchar_digit b hdigit
  · simp only [List.mem_cons, List.not_mem_nil, or_false] at hpunct
    rcases hpunct with rfl | rfl | rfl <;> rfl

/-- A visible byte is ASCII. -/
theorem isVchar_lt {b : UInt8} (h : Http.isVchar b = true) : b.toNat < 128 := by
  simp only [Http.isVchar, Bool.and_eq_true, decide_eq_true_eq, UInt8.le_iff_toNat_le,
    UInt8.reduceToNat] at h
  omega

theorem utf8_ne_nil {s : String} (h : s.toList ≠ []) : utf8 s ≠ [] := by
  intro hnil
  rw [← String.ofList_toList (s := s), utf8_ofList] at hnil
  cases hlist : s.toList with
  | nil => exact h hlist
  | cons c cs =>
      rw [hlist, List.flatMap_cons, List.append_eq_nil_iff] at hnil
      exact String.utf8EncodeChar_ne_nil hnil.1

theorem isValidPath_bytes {path : String} (h : isValidPath path = true) :
    utf8 path ≠ [] ∧ ∀ b ∈ utf8 path, Http.isVchar b = true := by
  simp only [isValidPath, Bool.and_eq_true, decide_eq_true_eq, List.all_eq_true] at h
  obtain ⟨hslash, hbytes⟩ := h
  constructor
  · apply utf8_ne_nil
    intro hnil
    rw [hnil] at hslash
    cases hslash
  · intro b hb
    have hpath := hbytes b hb
    simp only [pathByte, Bool.and_eq_true] at hpath
    simpa [Http.isVchar] using hpath.1

/-- The host field has no white space. -/
theorem hostField_bytes {host : String} (port : UInt16) (h : isValidHost host = true) :
    ∀ b ∈ hostField host port, Http.isVchar b = true := by
  simp only [isValidHost, Bool.and_eq_true, decide_eq_true_eq, List.all_eq_true] at h
  intro b hb
  rw [hostField] at hb
  rcases List.mem_append.mp hb with hhost | hport
  · exact isVchar_host b (h.2 b hhost)
  split_ifs at hport
  · rcases List.mem_append.mp hport with hcolon | hdigit
    · obtain rfl := List.mem_singleton.mp hcolon
      decide
    · exact isVchar_digit b ((utf8_toString port.toNat).1 b hdigit)
  · cases hport

theorem utf8_length (s : String) : (utf8 s).length = s.utf8ByteSize := by
  rw [utf8, Array.length_toList]
  rfl

/-- What a client sends is its message. -/
theorem buildRequest_text (c : VictoriaMetricsClient) (body : String) :
    buildRequest c.host c.port c.path body = utf8 "POST" ++ [Http.sp] ++
      (utf8 c.path ++ [Http.sp] ++ (utf8 "HTTP/1.1" ++ (Http.crlf ++
        (((c.message body).fields.flatMap Http.fieldLine) ++ (Http.crlf ++ utf8 body))))) := by
  have hline : utf8 " HTTP/1.1\r\nHost: " =
      [Http.sp] ++ (utf8 "HTTP/1.1" ++ (Http.crlf ++ (utf8 "Host" ++ ([Http.colon] ++
        [Http.sp])))) := by
    rfl
  have htype : utf8 "\r\nContent-Type: text/plain; version=0.0.4\r\nContent-Length: " =
      Http.crlf ++ (utf8 "Content-Type" ++ ([Http.colon] ++ ([Http.sp] ++
        (utf8 "text/plain; version=0.0.4" ++ (Http.crlf ++ (utf8 "Content-Length" ++
          ([Http.colon] ++ [Http.sp]))))))) := by
    rfl
  have hclose : utf8 "\r\nConnection: close\r\n\r\n" =
      Http.crlf ++ (utf8 "Connection" ++ ([Http.colon] ++ ([Http.sp] ++ (utf8 "close" ++
        (Http.crlf ++ Http.crlf))))) := by
    rfl
  have hpost : utf8 "POST " = utf8 "POST" ++ [Http.sp] := by rfl
  rw [buildRequest, hline, htype, hclose, hpost, ← utf8_length]
  simp only [VictoriaMetricsClient.message, List.flatMap_cons, List.flatMap_nil, Http.fieldLine,
    hostField, List.append_assoc, List.append_nil]

/-- The fields of the message are field lines. -/
theorem message_fields {c : VictoriaMetricsClient} (hhost : isValidHost c.host = true)
    (body : String) : ∀ f ∈ (c.message body).fields, Http.IsField f (Http.fieldLine f) := by
  have htoken : ∀ s ∈ ["Host", "Content-Type", "Content-Length", "Connection"],
      utf8 s ≠ [] ∧ ∀ b ∈ utf8 s, Http.isTchar b = true := by
    decide +kernel
  intro f hf
  simp only [VictoriaMetricsClient.message, List.mem_cons, List.not_mem_nil, or_false] at hf
  rcases hf with rfl | rfl | rfl | rfl
  · obtain ⟨hne, hname⟩ := htoken "Host" (by decide)
    exact Http.isField_visible hne hname (hostField_bytes c.port hhost)
  · obtain ⟨hne, hname⟩ := htoken "Content-Type" (by decide)
    exact Http.isField_line hne hname (by decide +kernel) (by decide +kernel)
  · obtain ⟨hne, hname⟩ := htoken "Content-Length" (by decide)
    refine Http.isField_visible hne hname ?_
    intro b hb
    exact isVchar_digit b ((utf8_toString _).1 b hb)
  · obtain ⟨hne, hname⟩ := htoken "Connection" (by decide)
    exact Http.isField_visible hne hname (by decide +kernel)

theorem message_length (c : VictoriaMetricsClient) (body : String) :
    Http.bodyLength (c.message body).fields = some (c.message body).body.length := by
  have hfield : Http.bodyLength (c.message body).fields =
      Http.decimal (utf8 (toString (utf8 body).length)) := by
    rfl
  rw [hfield, (utf8_toString _).2]
  rfl

/-- The message of a client is a request message. -/
theorem message_isRequest {c : VictoriaMetricsClient} (hhost : isValidHost c.host = true)
    (hpath : isValidPath c.path = true) (body : String) :
    Http.IsRequest (c.message body) (buildRequest c.host c.port c.path body) where
  method_ne := show utf8 "POST" ≠ [] by decide +kernel
  method := show ∀ b ∈ utf8 "POST", Http.isTchar b = true by decide +kernel
  target_ne := (isValidPath_bytes hpath).1
  target := (isValidPath_bytes hpath).2
  version := ⟨0x31, 0x31, by decide, by decide, by rfl⟩
  coding := by
    have hnames : ∀ s ∈ ["Host", "Content-Type", "Content-Length", "Connection"],
        (utf8 s).map Http.lower ≠ Http.transferEncoding := by
      decide +kernel
    intro f hf
    simp only [VictoriaMetricsClient.message, List.mem_cons, List.not_mem_nil, or_false] at hf
    rcases hf with rfl | rfl | rfl | rfl
    · exact hnames "Host" (by decide)
    · exact hnames "Content-Type" (by decide)
    · exact hnames "Content-Length" (by decide)
    · exact hnames "Connection" (by decide)
  length := message_length c body
  text := ⟨_, Many.flatMap (message_fields hhost body), buildRequest_text c body⟩

theorem VictoriaMetricsClient.new_valid {url : String} {c : VictoriaMetricsClient}
    (h : VictoriaMetricsClient.new url = .ok c) :
    isValidHost c.host = true ∧ isValidPath c.path = true := by
  obtain ⟨⟨host, port, path⟩, hparse, hc⟩ := bind_eq_ok.mp h
  cases hc
  exact parseHttpUrl_valid hparse

/-- One request, and nothing smuggled: what a client of an accepted URL sends is its message. It
has no other reading, as one message or as more; its request line has two blanks, and its body is
what is behind the first empty line. -/
theorem request_single (url body : String) (c : VictoriaMetricsClient)
    (h : VictoriaMetricsClient.new url = .ok c) :
    Http.IsRequest (c.message body) (buildRequest c.host c.port c.path body) ∧
      (∀ rs, Many Http.IsRequest rs (buildRequest c.host c.port c.path body) →
        rs = [c.message body]) ∧
      ((buildRequest c.host c.port c.path body).takeWhile (· ≠ Http.cr)).count Http.sp = 2 ∧
      Http.afterEmptyLine (buildRequest c.host c.port c.path body) = some (utf8 body) := by
  obtain ⟨hhost, hpath⟩ := VictoriaMetricsClient.new_valid h
  have hrequest := message_isRequest hhost hpath body
  refine ⟨hrequest, fun rs hrs => hrequest.only hrs, ?_, hrequest.body⟩
  rw [hrequest.firstLine]
  exact hrequest.blanks

/-- The request of a client with a port and the default path. -/
theorem hostPort_single :
    Http.IsRequest ((⟨"h.example", 8429, defaultImportPath, defaultConnectTimeout,
        defaultReadTimeout, maxErrorBodyBytes⟩ : VictoriaMetricsClient).message "m 1 2\n")
      (buildRequest "h.example" 8429 defaultImportPath "m 1 2\n") :=
  (request_single "http://h.example:8429" "m 1 2\n" ⟨"h.example", 8429, defaultImportPath,
    defaultConnectTimeout, defaultReadTimeout, maxErrorBodyBytes⟩ (by rfl)).1

end VeSmart.Metrics
