import Mathlib.Data.List.TakeWhile
import VeSmart.Collector.Config
import VeSmart.Metrics.HttpUrl

set_option autoImplicit false

/-! # The endpoint of the transport probe (`victron-cli/src/commands/check_victoriametrics.rs`)

`parse_endpoint` mirrors the rules of the client (`parse_http_url`), and so does the collector's
`validate_metrics_url`. `Accepts` says what they have in common: `validators_agree`. -/

namespace VeSmart.Cli

open VeSmart.Lib VeSmart.Protocol VeSmart.Metrics

/-! ## The command line's copy -/

def isValidHost (host : String) : Bool :=
  host ≠ "" && host.utf8ByteSize ≤ 253 &&
    (utf8 host).all fun b =>
      Http.isAlpha b || Http.isDigit b || [0x2d, 0x2e, 0x5f].contains b

def isValidPath (path : String) : Bool :=
  if path.toList.head? = some '/' then
    (utf8 path).all fun b => (0x21 ≤ b && b ≤ 0x7e) &&
      !([0x20, 0x22, 0x3c, 0x3e, 0x5c, 0x5e, 0x60, 0x7b, 0x7c, 0x7d, 0x23, 0x3f].contains b)
  else false

/-- The host and the port of an authority. -/
def endpointAuthority (url : String) (authority : List Char) :
    Except String (List Char × UInt16) :=
  match rsplitOnce ':' authority with
  | some (host, port) =>
      if host = [] ∨ ':' ∈ host ∨ host.head? = some '[' then
        .error ("unsupported host in URL: " ++ url)
      else
        match (parseU16 port).filter (· ≠ 0) with
        | some p => .ok (host, p)
        | none => .error ("invalid port in URL: " ++ url)
  | none => .ok (authority, 80)

def parseEndpoint (url : String) : Except String (String × UInt16 × String) :=
  let rest := url.toList.drop 7
  let authority := rest.takeWhile (· ≠ '/')
  let path := if '/' ∈ rest then String.ofList (rest.dropWhile (· ≠ '/')) else "/"
  if !"http://".toList.isPrefixOf url.toList then
    .error ("URL must be a plaintext http:// URL (https is not supported): " ++ url)
  else if '?' ∈ rest ∨ '#' ∈ rest then
    .error ("URL must not contain a query or fragment: " ++ url)
  else if authority = [] then .error ("empty host in URL: " ++ url)
  else if '@' ∈ authority then .error ("userinfo is not supported: " ++ url)
  else do
    let (host, port) ← endpointAuthority url authority
    if !isValidHost (.ofList host) then
      .error ("invalid host in URL: " ++ url ++ " (must be a plain IPv4 address or DNS name " ++
        "without whitespace or control characters)")
    else if !isValidPath path then
      .error ("invalid path in URL: " ++ url ++ " (must start with '/' and contain only safe " ++
        "request-line bytes)")
    else .ok (.ofList host, port, path)

/-! ## What is accepted -/

/-- What is behind the scheme. -/
def rest (url : String) : List Char := url.toList.drop 7

/-- The host and the port that an authority names. -/
def hostPort (authority : List Char) : Option (List Char × UInt16) :=
  if authority = [] ∨ '@' ∈ authority then none
  else
    match rsplitOnce ':' authority with
    | none => some (authority, 80)
    | some (host, port) =>
        if host = [] ∨ ':' ∈ host ∨ host.head? = some '[' then none
        else ((parseU16 port).filter (· ≠ 0)).map fun p => (host, p)

/-- The path of a URL, or the one it has by default. -/
def pathOr (default url : String) : String :=
  if '/' ∈ rest url then String.ofList ((rest url).dropWhile (· ≠ '/')) else default

/-- The host, the port and the path that the rules find in a URL, with a default path. -/
def endpoint (default url : String) : Option (String × UInt16 × String) :=
  if "http://".toList.isPrefixOf url.toList = true ∧ ¬ ('?' ∈ rest url ∨ '#' ∈ rest url) then
    ((hostPort ((rest url).takeWhile (· ≠ '/'))).filter fun p =>
      Metrics.isValidHost (.ofList p.1) && Metrics.isValidPath (pathOr default url)).map fun p =>
        (.ofList p.1, p.2, pathOr default url)
  else none

/-! ## Results as options -/

theorem toOption_bind {ε α β : Type} (x : Except ε α) (f : α → Except ε β) :
    (x >>= f).toOption = x.toOption.bind fun a => (f a).toOption := by
  cases x <;> rfl

theorem toOption_error {ε α : Type} (e : ε) : (Except.error e : Except ε α).toOption = none := rfl

theorem toOption_ok {ε α : Type} (a : α) : (Except.ok a : Except ε α).toOption = some a := rfl

theorem toOption_iff {ε α : Type} {x : Except ε α} {a : α} : x = .ok a ↔ x.toOption = some a := by
  cases x with
  | error e =>
      constructor
      · intro h
        cases h
      · intro h
        cases h
  | ok b => rw [toOption_ok, Option.some.injEq, Except.ok.injEq]

theorem filter_map {α β : Type} (x : Option α) (p : α → Bool) (f : α → β) :
    (x.filter p).map f = x.bind fun a => if p a then some (f a) else none := by
  cases x with
  | none => rfl
  | some a =>
      by_cases h : p a = true
      · simp [h]
      · simp [h]

theorem endpoint_none {default url : String} (h : "http://".toList.isPrefixOf url.toList = true →
    '?' ∈ rest url ∨ '#' ∈ rest url) : endpoint default url = none :=
  if_neg fun hboth => hboth.2 (h hboth.1)

theorem endpoint_some {default url : String}
    (hscheme : "http://".toList.isPrefixOf url.toList = true)
    (hplain : ¬ ('?' ∈ rest url ∨ '#' ∈ rest url)) : endpoint default url =
      (hostPort ((rest url).takeWhile (· ≠ '/'))).bind fun p =>
        if Metrics.isValidHost (.ofList p.1) && Metrics.isValidPath (pathOr default url) then
          some (.ofList p.1, p.2, pathOr default url)
        else none := by
  rw [endpoint, if_pos ⟨hscheme, hplain⟩, filter_map]

/-! ## The client -/

/-- The client takes an authority apart as the rules do. -/
theorem splitAuthority_toOption (authority : List Char) :
    (splitAuthority authority).toOption =
      (hostPort authority).map fun p => (String.ofList p.1, p.2) := by
  unfold splitAuthority hostPort
  by_cases hempty : authority = []
  · rw [if_pos hempty, if_pos (Or.inl hempty)]
    rfl
  by_cases huser : '@' ∈ authority
  · rw [if_neg hempty, if_pos huser, if_pos (Or.inr huser)]
    rfl
  rw [if_neg hempty, if_neg huser, if_neg (not_or.mpr ⟨hempty, huser⟩)]
  cases rsplitOnce ':' authority with
  | none => rfl
  | some parts =>
      obtain ⟨host, port⟩ := parts
      dsimp only
      by_cases hnil : host = []
      · rw [if_pos hnil, if_pos (Or.inl hnil)]
        rfl
      by_cases hother : ':' ∈ host ∨ host.head? = some '['
      · rw [if_neg hnil, if_pos hother, if_pos (Or.inr hother)]
        rfl
      rw [if_neg hnil, if_neg hother, if_neg (not_or.mpr ⟨hnil, hother⟩)]
      cases (parseU16 port).filter (· ≠ 0) <;> rfl

/-- The last checks of the client. -/
theorem validate_toOption (host path : String) (port : UInt16) :
    (validateHost host >>= fun _ => validatePath path >>= fun _ =>
      Except.ok (host, port, path)).toOption =
      if Metrics.isValidHost host && Metrics.isValidPath path then some (host, port, path)
      else none := by
  unfold validateHost validatePath
  by_cases hhost : Metrics.isValidHost host = true
  · by_cases hpath : Metrics.isValidPath path = true
    · simp [hhost, hpath, toOption_bind, toOption_ok]
    · simp [hhost, hpath, toOption_bind, toOption_error]
  · simp [hhost, toOption_bind, toOption_error]

theorem parseHttpUrl_toOption (url : String) :
    (parseHttpUrl url).toOption = endpoint defaultImportPath url := by
  unfold parseHttpUrl
  have hrest : url.toList.drop 7 = rest url := rfl
  have hpath : (if '/' ∈ rest url then String.ofList ((rest url).dropWhile (· ≠ '/'))
      else defaultImportPath) = pathOr defaultImportPath url := rfl
  dsimp only
  rw [hrest, hpath]
  by_cases hscheme : "http://".toList.isPrefixOf url.toList = true
  · rw [if_pos hscheme]
    by_cases hquery : '?' ∈ rest url ∨ '#' ∈ rest url
    · rw [if_pos hquery, endpoint_none fun _ => hquery]
      rfl
    · rw [if_neg hquery, endpoint_some hscheme hquery, toOption_bind, splitAuthority_toOption,
        Option.bind_map]
      exact Option.bind_congr fun p _ => validate_toOption _ _ _
  · rw [if_neg hscheme, endpoint_none fun h => absurd h hscheme]
    by_cases htls : "https://".toList.isPrefixOf url.toList = true
    · rw [if_pos htls]
      rfl
    · rw [if_neg htls]
      rfl

/-! ## The command line -/

theorem endpointAuthority_toOption (url : String) {authority : List Char}
    (hempty : authority ≠ []) (huser : '@' ∉ authority) :
    (endpointAuthority url authority).toOption = hostPort authority := by
  unfold endpointAuthority hostPort
  rw [if_neg (not_or.mpr ⟨hempty, huser⟩)]
  cases rsplitOnce ':' authority with
  | none => rfl
  | some parts =>
      obtain ⟨host, port⟩ := parts
      dsimp only
      by_cases hhost : host = [] ∨ ':' ∈ host ∨ host.head? = some '['
      · rw [if_pos hhost, if_pos hhost]
        rfl
      · rw [if_neg hhost, if_neg hhost]
        cases (parseU16 port).filter (· ≠ 0) <;> rfl

theorem isValidPath_eq (path : String) : isValidPath path = Metrics.isValidPath path := by
  unfold isValidPath Metrics.isValidPath
  by_cases hslash : path.toList.head? = some '/'
  · rw [if_pos hslash, decide_eq_true hslash, Bool.true_and]
    rfl
  · rw [if_neg hslash, decide_eq_false hslash, Bool.false_and]

theorem hostPort_none {authority : List Char} (h : authority = [] ∨ '@' ∈ authority) :
    hostPort authority = none := by rw [hostPort, if_pos h]

theorem parseEndpoint_toOption (url : String) :
    (parseEndpoint url).toOption = endpoint "/" url := by
  unfold parseEndpoint
  have hrest : url.toList.drop 7 = rest url := rfl
  have hpath : (if '/' ∈ rest url then String.ofList ((rest url).dropWhile (· ≠ '/'))
      else "/") = pathOr "/" url := rfl
  dsimp only
  rw [hrest, hpath]
  by_cases hscheme : "http://".toList.isPrefixOf url.toList = true
  · rw [hscheme, Bool.not_true, if_neg Bool.false_ne_true]
    by_cases hquery : '?' ∈ rest url ∨ '#' ∈ rest url
    · rw [if_pos hquery, endpoint_none fun _ => hquery]
      rfl
    rw [if_neg hquery, endpoint_some hscheme hquery]
    by_cases hempty : (rest url).takeWhile (· ≠ '/') = []
    · rw [if_pos hempty, hostPort_none (Or.inl hempty)]
      rfl
    by_cases huser : '@' ∈ (rest url).takeWhile (· ≠ '/')
    · rw [if_neg hempty, if_pos huser, hostPort_none (Or.inr huser)]
      rfl
    rw [if_neg hempty, if_neg huser, toOption_bind, endpointAuthority_toOption url hempty huser]
    apply Option.bind_congr
    intro p _
    have hhost : isValidHost (.ofList p.1) = Metrics.isValidHost (.ofList p.1) := rfl
    rw [isValidPath_eq, hhost]
    cases Metrics.isValidHost (.ofList p.1) <;> cases Metrics.isValidPath (pathOr "/" url) <;> rfl
  · rw [Bool.eq_false_of_not_eq_true hscheme, Bool.not_false, if_pos rfl,
      endpoint_none fun h => absurd h hscheme]
    rfl

/-! ## The collector -/

theorem rsplitOnce_eq (c : Char) (text : List Char) :
    Collector.rsplitOnce c text = rsplitOnce c text := by
  unfold Collector.rsplitOnce rsplitOnce
  by_cases hc : c ∈ text
  · have hne : text.reverse.dropWhile (· ≠ c) ≠ [] := by
      rw [Ne, List.dropWhile_eq_nil_iff]
      intro hall
      have := hall c (List.mem_reverse.mpr hc)
      simp at this
    rw [if_pos hc]
    cases hdrop : text.reverse.dropWhile (· ≠ c) with
    | nil => exact absurd hdrop hne
    | cons d before => rfl
  · have hnil : text.reverse.dropWhile (· ≠ c) = [] := by
      rw [List.dropWhile_eq_nil_iff]
      intro d hd
      have : d ≠ c := fun heq => hc (heq ▸ List.mem_reverse.mp hd)
      simpa using this
    rw [if_neg hc, hnil]

/-- Both read a number of 16 bits. -/
theorem u16_value (digits : List Char) : (parseDigits digits).filter (fun n => n ≤ 65535) =
    ((parseDigits digits).bind fun n =>
      if n < 2 ^ 16 then some (UInt16.ofNat n) else none).map UInt16.toNat := by
  cases parseDigits digits with
  | none => rfl
  | some n =>
      by_cases hn : n < 2 ^ 16
      · have hle : n ≤ 65535 := by omega
        have hback : (UInt16.ofNat n).toNat = n := UInt16.toNat_ofNat_of_lt' hn
        simp only [Option.bind_some, if_pos hn, Option.map_some, hback]
        simp [hle]
      · have hgt : ¬ n ≤ 65535 := by omega
        simp only [Option.bind_some, if_neg hn, Option.map_none]
        simp only [Option.filter_some, decide_eq_true_eq, if_neg hgt]

theorem parseU16_eq (port : List Char) :
    Collector.parseU16 port = (parseU16 port).map UInt16.toNat := by
  cases port with
  | nil => exact u16_value []
  | cons c digits =>
      unfold Collector.parseU16 parseU16
      by_cases hplus : c = '+'
      · subst hplus
        exact u16_value digits
      · rw [List.head?_cons, if_neg fun h => hplus (Option.some.inj h)]
        split
        · simp_all
        · exact u16_value (c :: digits)

theorem port_refused (port : List Char) :
    ((Collector.parseU16 port).filter (fun p => p ≠ 0)).isNone =
      ((parseU16 port).filter (· ≠ 0)).isNone := by
  rw [parseU16_eq]
  cases parseU16 port with
  | none => rfl
  | some p =>
      by_cases hp : p = 0
      · subst hp
        rfl
      · have : p.toNat ≠ 0 := fun hzero => hp (UInt16.toNat_inj.mp hzero)
        simp [hp, this]

/-- A character outside of ASCII has a byte that is not ASCII. -/
theorem utf8EncodeChar_high {c : Char} (h : ¬ c.toNat < 128) :
    ∃ b ∈ String.utf8EncodeChar c, 128 ≤ b.toNat := by
  have hlast : 128 ≤ (UInt8.ofNat (c.val.toNat % 0x40 + 0x80)).toNat := by
    rw [UInt8.toNat_ofNat']
    omega
  have hval : ¬ c.val.toNat ≤ 0x7f := fun hle => h (Nat.lt_succ_of_le hle)
  unfold String.utf8EncodeChar
  dsimp only
  rw [if_neg hval]
  split_ifs
  · exact ⟨_, by simp, hlast⟩
  · exact ⟨_, by simp, hlast⟩
  · exact ⟨_, by simp, hlast⟩

/-- Bytes that have to be ASCII are those of characters that have to be. -/
theorem all_utf8 {p : UInt8 → Bool} (hp : ∀ b : UInt8, 128 ≤ b.toNat → p b = false)
    (cs : List Char) : (utf8 (String.ofList cs)).all p =
      cs.all fun c => decide (c.toNat < 128) && p (UInt8.ofNat c.toNat) := by
  rw [utf8_ofList, List.all_flatMap]
  congr 1
  funext c
  by_cases hc : c.toNat < 128
  · rw [utf8EncodeChar_ascii hc, decide_eq_true hc]
    simp
  · obtain ⟨b, hb, hhigh⟩ := utf8EncodeChar_high hc
    rw [decide_eq_false hc, Bool.false_and, List.all_eq_false]
    exact ⟨b, hb, by rw [hp b hhigh]; exact Bool.false_ne_true⟩

/-- What holds of all ASCII characters. -/
theorem forall_ascii {P : Char → Prop} (h : ∀ n : Fin 128, P (Char.ofNat n)) {c : Char}
    (hc : c.toNat < 128) : P c := by
  have := h ⟨c.toNat, hc⟩
  rwa [Char.ofNat_toNat] at this

theorem hostByte_high (b : UInt8) (h : 128 ≤ b.toNat) : hostByte b = false := by
  by_contra hhost
  have := isVchar_lt (isVchar_host b (by simpa using hhost))
  omega

theorem pathByte_high (b : UInt8) (h : 128 ≤ b.toNat) : pathByte b = false := by
  by_contra hpath
  have hvisible : Http.isVchar b = true := by
    rw [Bool.not_eq_false, pathByte, Bool.and_eq_true] at hpath
    exact hpath.1
  have := isVchar_lt hvisible
  omega

/-- A character of a host of the collector. -/
def hostChar (c : Char) : Bool := c.isAlphanum || c = '-' || c = '.' || c = '_'

/-- A character of a path of the collector. -/
def pathChar (c : Char) : Bool :=
  0x21 ≤ c.val && c.val ≤ 0x7e && !(" \"<>\\^`\x7b|\x7d#?".toList.contains c)

theorem hostChar_eq (c : Char) :
    hostChar c = (decide (c.toNat < 128) && hostByte (UInt8.ofNat c.toNat)) := by
  by_cases hc : c.toNat < 128
  · rw [decide_eq_true hc, Bool.true_and]
    exact forall_ascii (P := fun c => hostChar c = hostByte (UInt8.ofNat c.toNat))
      (by decide) hc
  · rw [decide_eq_false hc, Bool.false_and, hostChar]
    have hlarge : ∀ d : Char, d.toNat < 128 → ¬ c = d := fun d hd heq => hc (heq ▸ hd)
    have hbound : ∀ n : UInt32, n.toNat < 128 → ¬ c.val ≤ n := by
      intro n hn hle
      have hle := UInt32.le_iff_toNat_le.mp hle
      exact hc (Nat.lt_of_le_of_lt hle hn)
    have hletter : c.isAlphanum = false := by
      show ((decide (c.val ≥ 'A'.val ∧ c.val ≤ 'Z'.val) ||
        (decide (c.val ≥ 'a'.val) && decide (c.val ≤ 'z'.val))) ||
        (decide (c.val ≥ '0'.val) && decide (c.val ≤ '9'.val))) = false
      simp [hbound]
    simp [hletter, hlarge]

theorem pathChar_eq (c : Char) :
    pathChar c = (decide (c.toNat < 128) && pathByte (UInt8.ofNat c.toNat)) := by
  by_cases hc : c.toNat < 128
  · rw [decide_eq_true hc, Bool.true_and]
    exact forall_ascii (P := fun c => pathChar c = pathByte (UInt8.ofNat c.toNat))
      (by decide) hc
  · have hbound : ¬ c.val ≤ 0x7e := by
      intro hle
      have hle := UInt32.le_iff_toNat_le.mp hle
      exact hc (Nat.lt_of_le_of_lt hle (by decide))
    rw [decide_eq_false hc, Bool.false_and, pathChar, decide_eq_false hbound, Bool.and_false,
      Bool.false_and]

theorem hostBytes (cs : List Char) :
    (utf8 (String.ofList cs)).all hostByte = cs.all hostChar := by
  rw [all_utf8 hostByte_high, funext hostChar_eq]

theorem collector_host (cs : List Char) :
    Collector.isValidHost cs = Metrics.isValidHost (String.ofList cs) := by
  have hchars : cs.all (fun c => c.isAlphanum || c = '-' || c = '.' || c = '_') =
      (utf8 (String.ofList cs)).all hostByte := (hostBytes cs).symm
  have hnil : (String.ofList cs ≠ "") ↔ cs ≠ [] := by
    rw [Ne, Ne, not_iff_not]
    exact String.ofList_eq_empty_iff
  unfold Collector.isValidHost Metrics.isValidHost
  rw [hchars]
  by_cases hall : (utf8 (String.ofList cs)).all hostByte = true
  · have hascii : ∀ c ∈ cs, c.toNat < 128 := by
      rw [hostBytes, List.all_eq_true] at hall
      intro c hc
      have hboth := hall c hc
      rw [hostChar_eq, Bool.and_eq_true, decide_eq_true_eq] at hboth
      exact hboth.1
    have hlength : (String.ofList cs).utf8ByteSize = cs.length := by
      rw [← utf8_length, utf8_ascii hascii, List.length_map]
    rw [hall, hlength]
    simp only [hnil]
  · rw [Bool.eq_false_of_not_eq_true hall, Bool.and_false, Bool.and_false]

theorem collector_path (cs : List Char) :
    Collector.isValidPath cs = Metrics.isValidPath (String.ofList cs) := by
  have hchars : cs.all (fun c => 0x21 ≤ c.val && c.val ≤ 0x7e &&
      !(" \"<>\\^`\x7b|\x7d#?".toList.contains c)) =
        (utf8 (String.ofList cs)).all pathByte := by
    rw [all_utf8 pathByte_high, ← funext pathChar_eq]
    rfl
  unfold Collector.isValidPath Metrics.isValidPath
  rw [hchars, String.toList_ofList]

theorem authorityHost_toOption {authority : List Char} (hempty : authority ≠ [])
    (huser : '@' ∉ authority) :
    (Collector.authorityHost authority).toOption = (hostPort authority).map Prod.fst := by
  unfold Collector.authorityHost hostPort
  rw [if_neg (not_or.mpr ⟨hempty, huser⟩), rsplitOnce_eq]
  cases rsplitOnce ':' authority with
  | none => rfl
  | some parts =>
      obtain ⟨host, port⟩ := parts
      dsimp only
      by_cases hhost : host = [] ∨ ':' ∈ host ∨ host.head? = some '['
      · rw [if_pos hhost, if_pos hhost]
        rfl
      · rw [if_neg hhost, if_neg hhost, port_refused]
        cases (parseU16 port).filter (· ≠ 0) <;> rfl

theorem validateMetricsUrl_toOption (url : String) :
    (Collector.validateMetricsUrl url).toOption =
      (endpoint defaultImportPath url).map fun _ => () := by
  unfold Collector.validateMetricsUrl
  cases hscheme : "http://".toList.isPrefixOf url.toList with
  | false =>
      rw [endpoint_none fun h => absurd (h.symm.trans hscheme) (by decide)]
      rfl
  | true =>
      have hrest : url.toList.drop 7 = rest url := rfl
      have hpath : (if '/' ∈ rest url then (rest url).dropWhile (fun c => c ≠ '/')
          else "/api/v1/import/prometheus".toList) = (pathOr defaultImportPath url).toList := by
        unfold pathOr
        split_ifs
        · rw [String.toList_ofList]
        · rfl
      dsimp only
      unfold Collector.checkAuthority
      dsimp only
      rw [hrest, hpath, collector_path, String.ofList_toList]
      by_cases hquery : '?' ∈ rest url ∨ '#' ∈ rest url
      · rw [if_pos hquery, endpoint_none fun _ => hquery]
        rfl
      rw [if_neg hquery, endpoint_some hscheme hquery]
      by_cases hempty : (rest url).takeWhile (· ≠ '/') = []
      · rw [if_pos hempty, hostPort_none (Or.inl hempty)]
        rfl
      by_cases huser : '@' ∈ (rest url).takeWhile (· ≠ '/')
      · rw [if_neg hempty, if_pos huser, hostPort_none (Or.inr huser)]
        rfl
      rw [if_neg hempty, if_neg huser, toOption_bind, authorityHost_toOption hempty huser,
        Option.bind_map, Option.map_bind]
      apply Option.bind_congr
      intro p _
      dsimp only [Function.comp]
      rw [collector_host]
      cases Metrics.isValidHost (.ofList p.1) <;>
        cases Metrics.isValidPath (pathOr defaultImportPath url) <;> rfl

/-! ## Agreement -/

/-- A default path decides neither whether a URL is accepted nor its host and its port. -/
theorem endpoint_default {a b : String} (ha : Metrics.isValidPath a = true)
    (hb : Metrics.isValidPath b = true) (url : String) :
    (endpoint a url).map (fun r => (r.1, r.2.1)) =
      (endpoint b url).map (fun r => (r.1, r.2.1)) := by
  have hvalid : Metrics.isValidPath (pathOr a url) = Metrics.isValidPath (pathOr b url) := by
    unfold pathOr
    split_ifs
    · rfl
    · rw [ha, hb]
  unfold endpoint
  rw [hvalid]
  split_ifs
  · rw [Option.map_map, Option.map_map]
    rfl
  · rfl

theorem endpoint_path {default url : String} {r : String × UInt16 × String}
    (h : endpoint default url = some r) : r.2.2 = pathOr default url := by
  unfold endpoint at h
  split_ifs at h
  obtain ⟨p, -, rfl⟩ := Option.map_eq_some_iff.mp h
  rfl

/-- The path of the collector and the client, and that of the command line. -/
theorem defaults_valid : Metrics.isValidPath defaultImportPath = true ∧
    Metrics.isValidPath "/" = true := by
  decide

theorem ok_iff_isSome {ε α : Type} {x : Except ε α} : (∃ r, x = .ok r) ↔ x.toOption.isSome := by
  rw [Option.isSome_iff_exists]
  exact exists_congr fun r => toOption_iff

/-- The three validators accept the same URLs, and the two that return their parts return the same
host and port, and the same path where the URL has one. -/
theorem validators_agree (url : String) :
    (Collector.validateMetricsUrl url = .ok () ↔ ∃ r, parseHttpUrl url = .ok r) ∧
      ((∃ r, parseHttpUrl url = .ok r) ↔ ∃ r, parseEndpoint url = .ok r) ∧
      ∀ r r', parseHttpUrl url = .ok r → parseEndpoint url = .ok r' →
        r.1 = r'.1 ∧ r.2.1 = r'.2.1 ∧ ('/' ∈ rest url → r.2.2 = r'.2.2) := by
  have hsame := endpoint_default defaults_valid.1 defaults_valid.2 url
  refine ⟨?_, ?_, ?_⟩
  · rw [toOption_iff, validateMetricsUrl_toOption, ok_iff_isSome, parseHttpUrl_toOption]
    cases endpoint defaultImportPath url <;> simp
  · rw [ok_iff_isSome, ok_iff_isSome, parseHttpUrl_toOption, parseEndpoint_toOption]
    have hsome := congrArg Option.isSome hsame
    rw [Option.isSome_map, Option.isSome_map] at hsome
    rw [hsome]
  · intro r r' hr hr'
    rw [toOption_iff, parseHttpUrl_toOption] at hr
    rw [toOption_iff, parseEndpoint_toOption] at hr'
    rw [hr, hr', Option.map_some, Option.map_some, Option.some.injEq, Prod.mk.injEq] at hsame
    refine ⟨hsame.1, hsame.2, fun hslash => ?_⟩
    rw [endpoint_path hr, endpoint_path hr', pathOr, pathOr, if_pos hslash, if_pos hslash]

end VeSmart.Cli
