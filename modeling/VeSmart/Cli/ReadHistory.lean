import VeSmart.Cli.AnalyzeHistory
import VeSmart.Cli.Endpoint
import VeSmart.Domain.Sample
import VeSmart.Protocol.Minicbor

set_option autoImplicit false

/-! # The path list of a device (`victron-cli/src/commands/read_history.rs`)

The paths that a device offers are numbered by their position in a list. `decode_paths` reads the
list out of a compressed blob: it guesses the encoding of the text, splits it, and keeps the parts
that are paths. Parts that are no paths are dropped before the positions are counted, so a path
behind them is found too early; `positions_kept_iff` says when this does no harm. -/

namespace VeSmart.Cli.ReadHistory

open VeSmart.Protocol VeSmart.Lib VeSmart.Domain
open VeSmart.Metrics (utf8_ofList isVchar_alpha isVchar_digit isVchar_lt)

/-! ## Texts -/

/-- A byte of a path behind the first slash. -/
def isPathByte (b : UInt8) : Bool :=
  Http.isAlpha b || Http.isDigit b || [0x5f, 0x2e, 0x2f, 0x2d].contains b

/-- The bytes are those of a path. -/
def isPath (bytes : List UInt8) : Bool :=
  1 < bytes.length && bytes.head? = some 0x2f && (bytes.drop 1).all isPathByte

def isValidPath (value : String) : Bool := isPath (utf8 value)

/-- `str::split`. -/
def split (p : Char → Bool) (text : String) : List String :=
  (text.toList.splitOnP p).map String.ofList

def isSurrogate (u : UInt16) : Bool := 0xd800 ≤ u && u ≤ 0xdfff

def utf16Unit (u : UInt16) : Char := if isSurrogate u then '\uFFFD' else Char.ofNat u.toNat

/-- Two surrogates that belong together are one character. -/
def utf16Chars : List UInt16 → List Char
  | [] => []
  | [u] => [utf16Unit u]
  | u :: v :: rest =>
      if (0xd800 ≤ u && u ≤ 0xdbff) && (0xdc00 ≤ v && v ≤ 0xdfff) then
        Char.ofNat (0x10000 + (u.toNat - 0xd800) * 0x400 + (v.toNat - 0xdc00)) :: utf16Chars rest
      else utf16Unit u :: utf16Chars (v :: rest)

/-- `String::from_utf16_lossy`. -/
def fromUtf16Lossy (units : List UInt16) : String := String.ofList (utf16Chars units)

def leWord (a b : UInt8) : UInt16 := .ofNat (a.toNat + b.toNat * 256)
def beWord (a b : UInt8) : UInt16 := .ofNat (a.toNat * 256 + b.toNat)

/-- An ASCII character that is visible or white space. -/
def isPrintable (c : Char) : Bool :=
  (0x21 ≤ c.toNat && c.toNat ≤ 0x7e) || [0x20, 0x09, 0x0a, 0x0c, 0x0d].contains c.toNat

def saturatedUsize (n : Nat) : Nat := min n 18446744073709551615

/-- `Iterator::max_by_key`: the last of the elements with the greatest key. -/
def maxByKey {α : Type} (key : α → Nat) (xs : List α) : Option α :=
  xs.foldl (fun best x => match best with
    | none => some x
    | some b => if key b ≤ key x then some x else some b) none

section

variable (findPaths : String → List String)
variable (zlibDecode : List UInt8 → Option (List UInt8))

def pathTextScore (text : String) : Nat :=
  let delimitedPaths := ((split (fun c => c = '\x00' || c = '\n' || c = '\r') text).filter
    fun part => isValidPath (trim part)).length
  let regexPaths := (findPaths text).length
  let printable := (text.toList.filter isPrintable).length
  saturatedUsize (saturatedUsize (saturatedUsize (delimitedPaths * 10000) +
    saturatedUsize (regexPaths * 1000)) + printable)

def utf16Le (data : List UInt8) : String := fromUtf16Lossy (words leWord data)
def utf16Be (data : List UInt8) : String := fromUtf16Lossy (words beWord data)

/-- The reading of the bytes that looks most like a list of paths. -/
def decodePathText (data : List UInt8) : String :=
  (maxByKey (pathTextScore findPaths)
    ((textOf data).toList ++ [utf16Le data, utf16Be data])).getD ""

/-! ## Path lists -/

/-- The paths among the parts, without the white space around them. -/
def survivors (parts : List String) : List String := (parts.map trim).filter isValidPath

/-- The paths of a text: by the first delimiter that yields any, or wherever there is one. -/
def pathsIn (text : String) : List String :=
  match (['\x00', '\n', '\r'].map fun delimiter =>
      survivors (split (· == delimiter) text)).find? (· ≠ []) with
  | some paths => paths
  | none => findPaths text

def splitPaths (data : List UInt8) : List String :=
  pathsIn findPaths (decodePathText findPaths data)

/-- The blob may start with four bytes of length. -/
def inflatePathList (data : List UInt8) : Except String (List UInt8) :=
  match [data.drop 4, data].findSome? fun candidate => (zlibDecode candidate).filter (· ≠ []) with
  | some out => .ok out
  | none => .error "failed to decompress VE.Smart PathList"

/-- The index and the path of a `NewPath` record. -/
def newPathOf : Response → Option (Nat × String)
  | .newPath _ pathIndex path => if 0 ≤ pathIndex then some (pathIndex.toInt.toNat, path) else none
  | _ => none

def compressedOf : Response → Option (List UInt8)
  | .pathList _ compressed => some compressed
  | _ => none

/-- `entry(index).or_insert(path)`. -/
def orInsert (pathsByIndex : List (Nat × String)) (entry : String × Nat) : List (Nat × String) :=
  if (pathsByIndex.lookup entry.2).isSome then pathsByIndex
  else pathsByIndex ++ [(entry.2, entry.1)]

/-- The paths up to the last index; a gap is an empty path. -/
def listed (pathsByIndex : List (Nat × String)) : List String :=
  match (pathsByIndex.map Prod.fst).max? with
  | none => []
  | some last => (List.range (last + 1)).map fun index => (pathsByIndex.lookup index).getD ""

/-- A path that a `NewPath` record names is not replaced; of two such records the later counts. -/
def decodePaths (responses : List Response) : Except String (List String) := do
  let pathsByIndex := (responses.filterMap newPathOf).reverse
  match responses.findSome? compressedOf with
  | none => .ok (listed pathsByIndex)
  | some compressed => do
      let data ← inflatePathList zlibDecode compressed
      .ok (listed ((splitPaths findPaths data).zipIdx.foldl orInsert pathsByIndex))

end

/-! ## Paths are plain texts -/

theorem isVchar_path {b : UInt8} (h : isPathByte b = true) : Http.isVchar b = true := by
  rw [isPathByte, Bool.or_eq_true, Bool.or_eq_true, List.contains_iff_mem] at h
  rcases h with (halpha | hdigit) | hpunct
  · exact isVchar_alpha b halpha
  · exact isVchar_digit b hdigit
  · simp only [List.mem_cons, List.not_mem_nil, or_false] at hpunct
    rcases hpunct with rfl | rfl | rfl | rfl <;> rfl

theorem isPathByte_high (b : UInt8) (h : 128 ≤ b.toNat) : isPathByte b = false := by
  by_contra hpath
  have := isVchar_lt (isVchar_path (by simpa using hpath))
  omega

theorem isPath_bytes {bytes : List UInt8} (h : isPath bytes = true) :
    bytes ≠ [] ∧ bytes.all isPathByte = true := by
  simp only [isPath, Bool.and_eq_true, decide_eq_true_eq] at h
  obtain ⟨⟨hlength, hhead⟩, htail⟩ := h
  cases bytes with
  | nil => simp at hhead
  | cons b rest =>
      rw [List.head?_cons, Option.some_inj] at hhead
      subst hhead
      rw [List.drop_one, List.tail_cons] at htail
      exact ⟨List.cons_ne_nil _ _, by rw [List.all_cons, htail]; decide⟩

/-- The white space below 128 is not visible. -/
theorem not_whiteSpace {c : Char} (hascii : c.toNat < 128)
    (hc : isPathByte (UInt8.ofNat c.toNat) = true) : whiteSpace c = false := by
  have hvisible := isVchar_path hc
  simp only [Http.isVchar, Bool.and_eq_true, decide_eq_true_eq, UInt8.le_iff_toNat_le,
    UInt8.toNat_ofNat', UInt8.reduceToNat] at hvisible
  have hval : c.val.toNat = c.toNat := rfl
  simp only [whiteSpace, Bool.or_eq_false_iff, Bool.and_eq_false_iff, decide_eq_false_iff_not,
    UInt32.le_iff_toNat_le, ← UInt32.toNat_inj, UInt32.reduceToNat, hval]
  omega

theorem dropWhile_none {α : Type} {p : α → Bool} {xs : List α} (h : ∀ x ∈ xs, p x = false) :
    xs.dropWhile p = xs := by
  cases xs with
  | nil => rfl
  | cons x rest => rw [List.dropWhile_cons_of_neg (by simp [h x])]

/-- There is no white space around a path. -/
theorem trim_path {value : String} (h : isValidPath value = true) : trim value = value := by
  obtain ⟨-, hall⟩ := isPath_bytes h
  have hchars := all_utf8 isPathByte_high value.toList
  rw [String.ofList_toList, hall] at hchars
  have hplain : ∀ c ∈ value.toList, whiteSpace c = false := by
    intro c hc
    have hbyte := List.all_eq_true.mp hchars.symm c hc
    rw [Bool.and_eq_true, decide_eq_true_eq] at hbyte
    exact not_whiteSpace hbyte.1 hbyte.2
  rw [trim, dropWhile_none hplain, dropWhile_none (by simpa using hplain), List.reverse_reverse,
    String.ofList_toList]

/-! ## Splitting texts and bytes -/

theorem utf8EncodeChar_zero {c : Char} (h : (0 : UInt8) ∈ String.utf8EncodeChar c) :
    c = '\x00' := by
  have hnat : ∀ n, (0 : UInt8) = UInt8.ofNat n → n % 256 = 0 := by
    intro n hn
    have := congrArg UInt8.toNat hn
    rw [UInt8.toNat_ofNat'] at this
    exact this.symm
  have hsmall : c.val.toNat < 0x110000 := by
    have := c.valid
    omega
  unfold String.utf8EncodeChar at h
  dsimp only at h
  split_ifs at h
  · rw [List.mem_singleton] at h
    have hzero := hnat _ h
    have hval : c.toNat = 0 := by
      have : c.toNat = c.val.toNat := rfl
      omega
    exact Char.toNat_inj.mp hval
  · simp only [List.mem_cons, List.not_mem_nil, or_false] at h
    rcases h with h | h <;> have := hnat _ h <;> omega
  · simp only [List.mem_cons, List.not_mem_nil, or_false] at h
    rcases h with h | h | h <;> have := hnat _ h <;> omega
  · simp only [List.mem_cons, List.not_mem_nil, or_false] at h
    rcases h with h | h | h | h <;> have := hnat _ h <;> omega

/-- A text without the delimiter goes to the first part. -/
theorem splitOn_append_free {α : Type} [BEq α] [LawfulBEq α] {a : α} {xs : List α} (h : a ∉ xs)
    (ys : List α) : (xs ++ ys).splitOn a = (ys.splitOn a).modifyHead (xs ++ ·) := by
  induction xs with
  | nil =>
      rw [List.nil_append]
      cases ys.splitOn a <;> rfl
  | cons x rest ih =>
      obtain ⟨hne, hrest⟩ := not_or.mp (List.mem_cons.not.mp h)
      have hx : (x == a) = false := beq_eq_false_iff_ne.mpr (Ne.symm hne)
      rw [List.cons_append, List.splitOn_cons_eq_if_modifyHead, hx, ih hrest]
      cases ys.splitOn a <;> rfl

theorem splitOn_utf8Chars (cs : List Char) :
    (cs.flatMap String.utf8EncodeChar).splitOn 0 =
      (cs.splitOnP (· == '\x00')).map fun part => part.flatMap String.utf8EncodeChar := by
  induction cs with
  | nil => rfl
  | cons c cs ih =>
      rw [List.flatMap_cons, List.splitOnP_cons_eq_if_modifyHead]
      by_cases hc : c = '\x00'
      · subst hc
        have henc : String.utf8EncodeChar '\x00' = [0] := by decide
        rw [henc, List.singleton_append, List.splitOn_cons_eq_if_modifyHead, ih]
        rfl
      · have hfree : (0 : UInt8) ∉ String.utf8EncodeChar c := fun h => hc (utf8EncodeChar_zero h)
        rw [splitOn_append_free hfree, ih, beq_eq_false_iff_ne.mpr hc]
        cases cs.splitOnP (· == '\x00') <;> rfl

/-- The bytes of a text are split where the text is. -/
theorem splitOn_utf8 (text : String) :
    (utf8 text).splitOn 0 = (split (· == '\x00') text).map utf8 := by
  have hbytes : utf8 text = text.toList.flatMap String.utf8EncodeChar := by
    rw [← utf8_ofList, String.ofList_toList]
  rw [hbytes, splitOn_utf8Chars, split, List.map_map]
  apply List.map_congr_left
  intro part _
  exact (utf8_ofList part).symm

/-! ## The list by index -/

theorem lookup_zipIdx (paths : List String) (k i : Nat) :
    ((paths.zipIdx k).map Prod.swap).lookup (k + i) = paths[i]? := by
  induction paths generalizing k i with
  | nil => rfl
  | cons path rest ih =>
      rw [List.zipIdx_cons, List.map_cons, Prod.swap, List.lookup_cons]
      cases i with
      | zero => simp
      | succ i =>
          have hne : (k + (i + 1) == k) = false := by
            rw [beq_eq_false_iff_ne]
            omega
          have hkey : k + (i + 1) = k + 1 + i := by omega
          rw [hne, List.getElem?_cons_succ, hkey]
          exact ih (k + 1) i

/-- The indexes of a list are new, one after the other. -/
theorem foldl_orInsert (paths : List String) (k : Nat) {m : List (Nat × String)}
    (hm : ∀ entry ∈ m, entry.1 < k) :
    (paths.zipIdx k).foldl orInsert m = m ++ (paths.zipIdx k).map Prod.swap := by
  induction paths generalizing k m with
  | nil => simp
  | cons path rest ih =>
      have hnew : m.lookup k = none := by
        rw [List.lookup_eq_none_iff]
        intro entry hentry
        have := hm entry hentry
        simp only [bne_iff_ne, ne_eq]
        omega
      have hinsert : orInsert m (path, k) = m ++ [(k, path)] := by
        rw [orInsert, hnew]
        rfl
      rw [List.zipIdx_cons, List.foldl_cons, hinsert, ih (k + 1), List.map_cons, List.append_assoc]
      · rfl
      · intro entry hentry
        rcases List.mem_append.mp hentry with hold | hlast
        · have := hm entry hold
          omega
        · rw [List.mem_singleton] at hlast
          subst hlast
          exact Nat.lt_succ_self _

theorem listed_zipIdx (paths : List String) : listed (paths.zipIdx.map Prod.swap) = paths := by
  have hkeys : (paths.zipIdx.map Prod.swap).map Prod.fst = List.range paths.length := by
    have hfst : (Prod.fst ∘ Prod.swap : String × Nat → Nat) = Prod.snd := rfl
    rw [List.map_map, hfst, List.zipIdx_map_snd, List.range_eq_range']
  rw [listed, hkeys]
  cases paths with
  | nil => rfl
  | cons path rest =>
      have hlast : (List.range (path :: rest).length).max? = some rest.length := by
        rw [List.max?_eq_some_iff]
        constructor
        · simp
        · intro n hn
          rw [List.mem_range, List.length_cons] at hn
          omega
      rw [hlast]
      apply List.ext_getElem?
      intro i
      dsimp only
      by_cases hi : i < (path :: rest).length
      · have hlookup := lookup_zipIdx (path :: rest) 0 i
        rw [Nat.zero_add] at hlookup
        have hrange : (List.range (rest.length + 1))[i]? = some i := by
          rw [List.getElem?_range]
          exact hi
        rw [List.getElem?_map, hrange, Option.map_some, hlookup, List.getElem?_eq_getElem hi]
        rfl
      · rw [List.getElem?_eq_none (by simpa using hi), List.getElem?_eq_none (by omega)]

/-! ## What is decoded -/

theorem maxByKey_pair {α : Type} (key : α → Nat) (a b : α) :
    maxByKey key [a, b] = some (if key a ≤ key b then b else a) := by
  by_cases h : key a ≤ key b
  · simp [maxByKey, h]
  · simp [maxByKey, h]

theorem maxByKey_first {α : Type} (key : α → Nat) {a b c : α} (hb : key b < key a)
    (hc : key c < key a) : maxByKey key [a, b, c] = some a := by
  have hnb : ¬ key a ≤ key b := by omega
  have hnc : ¬ key a ≤ key c := by omega
  simp [maxByKey, hnb, hnc]

/-- An element that is not strictly greater than the later ones does not count. -/
theorem maxByKey_later {α : Type} (key : α → Nat) {a b c : α}
    (h : ¬ (key b < key a ∧ key c < key a)) : maxByKey key [a, b, c] = maxByKey key [b, c] := by
  rw [maxByKey_pair]
  by_cases hb : key a ≤ key b
  · by_cases hc : key b ≤ key c
    · simp [maxByKey, hb, hc]
    · simp [maxByKey, hb, hc]
  · have hc : key a ≤ key c := by omega
    have hbc : key b ≤ key c := by omega
    simp [maxByKey, hb, hc, hbc]

section

variable (findPaths : String → List String) (zlibDecode : List UInt8 → Option (List UInt8))

/-- The blob is a compressed form of the bytes, behind four bytes of length or alone. -/
inductive Inflates : List UInt8 → List UInt8 → Prop
  | prefixed {data raw : List UInt8} (h : zlibDecode (data.drop 4) = some raw) : Inflates data raw
  | bare {data raw : List UInt8} (hlonger : zlibDecode (data.drop 4) = none)
      (h : zlibDecode data = some raw) : Inflates data raw

variable {findPaths zlibDecode}

theorem inflate_ok {data raw : List UInt8} (h : Inflates zlibDecode data raw) (hne : raw ≠ []) :
    inflatePathList zlibDecode data = .ok raw := by
  have hkeep : (some raw).filter (fun out => decide (out ≠ [])) = some raw := by simp [hne]
  cases h with
  | prefixed h => rw [inflatePathList, List.findSome?_cons, h, hkeep]
  | bare hlonger h =>
      rw [inflatePathList, List.findSome?_cons, hlonger, Option.filter_none, List.findSome?_cons, h,
        hkeep]

theorem decodePaths_ok {responses : List Response} {data raw : List UInt8}
    (hdata : responses.findSome? compressedOf = some data)
    (hnew : ∀ r ∈ responses, newPathOf r = none)
    (hraw : inflatePathList zlibDecode data = .ok raw) :
    decodePaths findPaths zlibDecode responses = .ok (splitPaths findPaths raw) := by
  have hnone : responses.filterMap newPathOf = [] := List.filterMap_eq_nil_iff.mpr hnew
  have hinsert : (splitPaths findPaths raw).zipIdx.foldl orInsert [] =
      (splitPaths findPaths raw).zipIdx.map Prod.swap := by
    rw [foldl_orInsert (splitPaths findPaths raw) 0 (by simp), List.nil_append]
  simp only [decodePaths, hdata, hnone, hraw, List.reverse_nil, bind, Except.bind]
  rw [hinsert, listed_zipIdx]

/-- The UTF-16 reading that scores higher; the second one at a tie. -/
def utf16Reading (findPaths : String → List String) (data : List UInt8) : String :=
  if pathTextScore findPaths (utf16Le data) ≤ pathTextScore findPaths (utf16Be data) then
    utf16Be data
  else utf16Le data

/-- The bytes are a text, and it looks more like a list of paths than the UTF-16 readings. -/
def ReadAsText (findPaths : String → List String) (data : List UInt8) (text : String) : Prop :=
  textOf data = some text ∧
    pathTextScore findPaths (utf16Le data) < pathTextScore findPaths text ∧
    pathTextScore findPaths (utf16Be data) < pathTextScore findPaths text

theorem decodePathText_text {data : List UInt8} {text : String}
    (h : ReadAsText findPaths data text) : decodePathText findPaths data = text := by
  obtain ⟨htext, hle, hbe⟩ := h
  have hbest := maxByKey_first (pathTextScore findPaths) hle hbe
  rw [decodePathText, htext, Option.toList_some, List.singleton_append, hbest, Option.getD_some]

theorem decodePathText_utf16 {data : List UInt8}
    (h : ¬ ∃ text, ReadAsText findPaths data text) :
    decodePathText findPaths data = utf16Reading findPaths data := by
  have hpair : (maxByKey (pathTextScore findPaths) [utf16Le data, utf16Be data]).getD "" =
      utf16Reading findPaths data := by
    rw [maxByKey_pair, Option.getD_some, utf16Reading]
  rw [decodePathText]
  cases htext : textOf data with
  | none => rw [Option.toList_none, List.nil_append, hpair]
  | some text =>
      rw [Option.toList_some, List.singleton_append, maxByKey_later, hpair]
      rintro ⟨hle, hbe⟩
      exact h ⟨text, htext, hle, hbe⟩

/-! ## Positions -/

/-- The filter drops the part. -/
def isDropped (part : String) : Bool := !isValidPath (trim part)

theorem survivors_append (xs ys : List String) :
    survivors (xs ++ ys) = survivors xs ++ survivors ys := by
  rw [survivors, List.map_append, List.filter_append]
  rfl

theorem survivors_path {part : String} (h : isValidPath part = true) (parts : List String) :
    survivors (part :: parts) = part :: survivors parts := by
  rw [survivors, List.map_cons, trim_path h, List.filter_cons_of_pos h]
  rfl

theorem survivors_length (parts : List String) :
    (survivors parts).length + parts.countP isDropped = parts.length := by
  induction parts with
  | nil => rfl
  | cons part rest ih =>
      rw [survivors] at ih ⊢
      by_cases h : isValidPath (trim part) = true
      · rw [List.map_cons, List.filter_cons_of_pos h,
          List.countP_cons_of_neg (by simp [isDropped, h])]
        simp only [List.length_cons]
        omega
      · rw [List.map_cons, List.filter_cons_of_neg h,
          List.countP_cons_of_pos (by simpa [isDropped] using h)]
        simp only [List.length_cons]
        omega

theorem survivors_eq_nil {parts : List String} :
    survivors parts = [] ↔ ∀ part ∈ parts, isDropped part = true := by
  simp [survivors, isDropped, List.filter_eq_nil_iff]

/-- What stands at a position survives, with so many survivors before it. -/
theorem survivors_getElem? {parts : List String} {i : Nat} {path : String} :
    (survivors parts)[i]? = some path ↔ ∃ (j : Nat) (part : String), parts[j]? = some part ∧
      isDropped part = false ∧ j = i + (parts.take j).countP isDropped ∧ trim part = path := by
  induction parts generalizing i with
  | nil => simp [survivors]
  | cons head rest ih =>
      by_cases h : isDropped head = true
      · have hrest : survivors (head :: rest) = survivors rest :=
          List.filter_cons_of_neg (by simpa [isDropped] using h)
        rw [hrest, ih]
        constructor
        · rintro ⟨j, part, hpart, hpath, hposition, htrim⟩
          refine ⟨j + 1, part, hpart, hpath, ?_, htrim⟩
          rw [List.take_succ_cons, List.countP_cons_of_pos h]
          omega
        · rintro ⟨j, part, hpart, hpath, hposition, htrim⟩
          cases j with
          | zero =>
              cases hpart
              rw [h] at hpath
              cases hpath
          | succ j =>
              rw [List.take_succ_cons, List.countP_cons_of_pos h] at hposition
              exact ⟨j, part, hpart, hpath, by omega, htrim⟩
      · have hrest : survivors (head :: rest) = trim head :: survivors rest :=
          List.filter_cons_of_pos (by simpa [isDropped] using h)
        rw [hrest]
        cases i with
        | zero =>
            rw [List.getElem?_cons_zero, Option.some_inj]
            constructor
            · exact fun htrim => ⟨0, head, rfl, by simpa using h, rfl, htrim⟩
            · rintro ⟨j, part, hpart, hpath, hposition, htrim⟩
              cases j with
              | zero =>
                  cases hpart
                  exact htrim
              | succ j =>
                  rw [List.take_succ_cons, List.countP_cons_of_neg h] at hposition
                  have hle := List.countP_le_length (p := isDropped) (l := rest.take j)
                  rw [List.length_take] at hle
                  omega
        | succ i =>
            rw [List.getElem?_cons_succ, ih]
            constructor
            · rintro ⟨j, part, hpart, hpath, hposition, htrim⟩
              refine ⟨j + 1, part, hpart, hpath, ?_, htrim⟩
              rw [List.take_succ_cons, List.countP_cons_of_neg h]
              omega
            · rintro ⟨j, part, hpart, hpath, hposition, htrim⟩
              cases j with
              | zero =>
                  rw [List.take_zero, List.countP_nil] at hposition
                  omega
              | succ j =>
                  rw [List.take_succ_cons, List.countP_cons_of_neg h] at hposition
                  exact ⟨j, part, hpart, hpath, by omega, htrim⟩

/-- What is found at the position of a path: the path if nothing before it is dropped, and
otherwise what survives that much further on. -/
theorem survivors_at {parts : List String} {i : Nat} {part : String} (hi : parts[i]? = some part)
    (hpath : isValidPath part = true) :
    (survivors parts)[i]? =
      (part :: survivors (parts.drop (i + 1)))[(parts.take i).countP isDropped]? := by
  obtain ⟨hlt, hpart⟩ := List.getElem?_eq_some_iff.mp hi
  have hsplit : parts = parts.take i ++ part :: parts.drop (i + 1) := by
    rw [← hpart, List.cons_getElem_drop_succ, List.take_append_drop]
  have hlength := survivors_length (parts.take i)
  rw [List.length_take, Nat.min_eq_left (le_of_lt hlt)] at hlength
  conv_lhs => rw [hsplit]
  rw [survivors_append, survivors_path hpath, List.getElem?_append_right (by omega)]
  congr 1
  omega

/-- Every path that is shifted is shifted onto an equal one: with `k` entries before it dropped,
the `k`-th of the entries that survive behind it is the same path. -/
def ShiftedOntoEqual (parts : List String) : Prop :=
  ∀ (i : Nat) (part : String), parts[i]? = some part → isValidPath part = true →
    ∀ k, (parts.take i).countP isDropped = k + 1 →
      (survivors (parts.drop (i + 1)))[k]? = some part

theorem survivors_at_iff (parts : List String) :
    (∀ (i : Nat) (part : String), parts[i]? = some part → isValidPath part = true →
      (survivors parts)[i]? = some part) ↔ ShiftedOntoEqual parts := by
  constructor
  · intro h i part hi hpath k hk
    have hat := survivors_at hi hpath
    rw [h i part hi hpath, hk, List.getElem?_cons_succ] at hat
    exact hat.symm
  · intro h i part hi hpath
    rw [survivors_at hi hpath]
    cases hk : (parts.take i).countP isDropped with
    | zero => rfl
    | succ k => exact h i part hi hpath k hk

theorem utf8_injective {a b : String} (h : utf8 a = utf8 b) : a = b := by
  have ha := (textOf_iff (utf8 a) a).mpr rfl
  have hb := (textOf_iff (utf8 a) b).mpr h
  exact Option.some_inj.mp (ha.symm.trans hb)

/-- A text in which some part is a path is split at the first delimiter. -/
theorem pathsIn_survivors {text : String} {part : String}
    (hpart : part ∈ split (· == '\x00') text) (hpath : isValidPath part = true) :
    pathsIn findPaths text = survivors (split (· == '\x00') text) := by
  have hne : survivors (split (· == '\x00') text) ≠ [] := by
    apply List.ne_nil_of_mem (a := part)
    rw [survivors, List.mem_filter, List.mem_map]
    exact ⟨⟨part, hpart, trim_path hpath⟩, hpath⟩
  rw [pathsIn, List.map_cons, List.find?_cons_of_pos (by simpa using hne)]

variable (findPaths zlibDecode)

/-- Every path of the device's list is where the list has it. -/
def KeepsPositions (responses : List Response) (raw : List UInt8) : Prop :=
  ∀ (i : Nat) (entry : List UInt8), (raw.splitOn 0)[i]? = some entry → isPath entry = true →
    ∃ paths path, decodePaths findPaths zlibDecode responses = .ok paths ∧
      paths[i]? = some path ∧ utf8 path = entry

/-- `path` stands at position `i` of the paths of a text: it is the part before which `i` parts
survive, or, when no delimiter yields a path, the `i`-th of those that the search finds. -/
inductive StandsAt (text : String) (i : Nat) (path : String) : Prop where
  | delimited {delimiter : Char} {before after : List Char} {j : Nat} {part : String}
      (hdelimiters : ['\x00', '\n', '\r'] = before ++ delimiter :: after)
      (hbefore : ∀ c ∈ before, ∀ other ∈ split (· == c) text, isDropped other = true)
      (hpart : (split (· == delimiter) text)[j]? = some part) (hpath : isDropped part = false)
      (hposition : j = i + ((split (· == delimiter) text).take j).countP isDropped)
      (htrim : trim part = path) : StandsAt text i path
  | searched
      (hnone : ∀ c ∈ ['\x00', '\n', '\r'], ∀ other ∈ split (· == c) text, isDropped other = true)
      (hfound : (findPaths text)[i]? = some path) : StandsAt text i path

/-- A UTF-16 reading is taken, and happens to have every path of the list at its position. -/
def Coincides (raw : List UInt8) : Prop :=
  (¬ ∃ text, ReadAsText findPaths raw text) ∧
    ∀ (i : Nat) (entry : List UInt8), (raw.splitOn 0)[i]? = some entry → isPath entry = true →
      ∃ path, StandsAt findPaths (utf16Reading findPaths raw) i path ∧ utf8 path = entry

variable {findPaths zlibDecode}

theorem standsAt_iff {text : String} {i : Nat} {path : String} :
    StandsAt findPaths text i path ↔ (pathsIn findPaths text)[i]? = some path := by
  constructor
  · rintro (⟨hdelimiters, hbefore, hpart, hpath, hposition, htrim⟩ | ⟨hnone, hfound⟩)
    · have hat := survivors_getElem?.mpr ⟨_, _, hpart, hpath, hposition, htrim⟩
      rw [pathsIn, hdelimiters, List.map_append, List.map_cons, List.find?_append,
        List.find?_eq_none.mpr (fun paths hpaths => ?_), Option.none_or,
        List.find?_cons_of_pos (by simpa using List.ne_nil_of_mem (List.mem_of_getElem? hat))]
      · exact hat
      · obtain ⟨c, hc, rfl⟩ := List.mem_map.mp hpaths
        simpa using survivors_eq_nil.mpr (hbefore c hc)
    · rw [pathsIn, List.find?_eq_none.mpr (fun paths hpaths => ?_)]
      · exact hfound
      · obtain ⟨c, hc, rfl⟩ := List.mem_map.mp hpaths
        simpa using survivors_eq_nil.mpr (hnone c hc)
  · intro hat
    rw [pathsIn] at hat
    split at hat
    · next paths hfirst =>
        obtain ⟨-, before, after, hsplit, hbefore⟩ := List.find?_eq_some_iff_append.mp hfirst
        obtain ⟨front, back, hdelimiters, rfl, hback⟩ := List.map_eq_append_iff.mp hsplit
        obtain ⟨delimiter, rest, rfl, rfl, -⟩ := List.map_eq_cons_iff.mp hback
        obtain ⟨j, part, hpart, hpath, hposition, htrim⟩ := survivors_getElem?.mp hat
        refine .delimited hdelimiters (fun c hc => ?_) hpart hpath hposition htrim
        have hempty := hbefore _ (List.mem_map_of_mem hc)
        exact survivors_eq_nil.mp (by simpa using hempty)
    · next hnone =>
        refine .searched (fun c hc => ?_) hat
        have hempty := List.find?_eq_none.mp hnone _ (List.mem_map_of_mem hc)
        exact survivors_eq_nil.mp (by simpa using hempty)

theorem text_positions_iff {raw : List UInt8} {text : String}
    (htext : ReadAsText findPaths raw text) {entry : List UInt8}
    (hentry : entry ∈ raw.splitOn 0) (hpath : isPath entry = true) :
    (∀ (i : Nat) (entry : List UInt8), (raw.splitOn 0)[i]? = some entry → isPath entry = true →
      ∃ path, (splitPaths findPaths raw)[i]? = some path ∧ utf8 path = entry) ↔
      ShiftedOntoEqual (split (· == '\x00') text) := by
  have hraw : raw = utf8 text := (textOf_iff raw text).mp htext.1
  have hentries : raw.splitOn 0 = (split (· == '\x00') text).map utf8 := by
    rw [hraw, splitOn_utf8]
  rw [hentries, List.mem_map] at hentry
  obtain ⟨part, hpart, rfl⟩ := hentry
  have hsplit : splitPaths findPaths raw = survivors (split (· == '\x00') text) := by
    rw [splitPaths, decodePathText_text htext, pathsIn_survivors hpart hpath]
  rw [← survivors_at_iff, hsplit, hentries]
  constructor
  · intro h i part hi hvalid
    obtain ⟨path, hat, hsame⟩ := h i (utf8 part) (by rw [List.getElem?_map, hi]; rfl) hvalid
    rw [hat, utf8_injective hsame]
  · intro h i entry hi hvalid
    rw [List.getElem?_map, Option.map_eq_some_iff] at hi
    obtain ⟨part, hi, rfl⟩ := hi
    exact ⟨part, h i part hi hvalid, rfl⟩

/-- **When path indexes keep their position.** -/
theorem positions_kept_iff {responses : List Response} {data raw : List UInt8}
    (hdata : responses.findSome? compressedOf = some data)
    (hnew : ∀ r ∈ responses, newPathOf r = none) (hraw : Inflates zlibDecode data raw) :
    KeepsPositions findPaths zlibDecode responses raw ↔
      (∀ entry ∈ raw.splitOn 0, isPath entry = false) ∨
      (∃ text, ReadAsText findPaths raw text ∧ ShiftedOntoEqual (split (· == '\x00') text)) ∨
      Coincides findPaths raw := by
  by_cases hnone : ∀ entry ∈ raw.splitOn 0, isPath entry = false
  · refine iff_of_true ?_ (.inl hnone)
    intro i entry hi hpath
    rw [hnone entry (List.mem_of_getElem? hi)] at hpath
    cases hpath
  · have hsome : ∃ entry ∈ raw.splitOn 0, isPath entry = true := by
      push Not at hnone
      obtain ⟨entry, hentry, hpath⟩ := hnone
      exact ⟨entry, hentry, by simpa using hpath⟩
    obtain ⟨entry, hentry, hpath⟩ := hsome
    have hne : raw ≠ [] := by
      rintro rfl
      rw [List.splitOn_nil, List.mem_singleton] at hentry
      subst hentry
      exact absurd hpath (by decide)
    have hok : decodePaths findPaths zlibDecode responses = .ok (splitPaths findPaths raw) :=
      decodePaths_ok hdata hnew (inflate_ok hraw hne)
    have hkeeps : KeepsPositions findPaths zlibDecode responses raw ↔
        ∀ (i : Nat) (entry : List UInt8), (raw.splitOn 0)[i]? = some entry → isPath entry = true →
          ∃ path, (splitPaths findPaths raw)[i]? = some path ∧ utf8 path = entry := by
      unfold KeepsPositions
      rw [hok]
      constructor
      · intro h i entry hi hvalid
        obtain ⟨paths, path, hpaths, hat, hsame⟩ := h i entry hi hvalid
        cases hpaths
        exact ⟨path, hat, hsame⟩
      · intro h i entry hi hvalid
        obtain ⟨path, hat, hsame⟩ := h i entry hi hvalid
        exact ⟨_, path, rfl, hat, hsame⟩
    rw [hkeeps]
    by_cases htext : ∃ text, ReadAsText findPaths raw text
    · obtain ⟨text, hread⟩ := htext
      rw [text_positions_iff hread hentry hpath]
      constructor
      · exact fun h => .inr (.inl ⟨text, hread, h⟩)
      · rintro (h | ⟨other, hother, h⟩ | h)
        · exact absurd h hnone
        · have hsame : other = text := Option.some_inj.mp (hother.1.symm.trans hread.1)
          rwa [← hsame]
        · exact absurd ⟨text, hread⟩ h.1
    · rw [splitPaths, decodePathText_utf16 htext]
      simp only [← standsAt_iff]
      constructor
      · exact fun h => .inr (.inr ⟨htext, h⟩)
      · rintro (h | ⟨text, hread, -⟩ | h)
        · exact absurd h hnone
        · exact absurd ⟨text, hread⟩ htext
        · exact h.2

end

/-! ## Two lists -/

/-- A decompressor that knows one blob. -/
def inflateOnly (stream raw : List UInt8) (data : List UInt8) : Option (List UInt8) :=
  if data = stream then some raw else none

/-- A path search that knows one text. -/
def findOnly (text : String) (paths : List String) (other : String) : List String :=
  if other = text then paths else []

/-- An empty entry, then a path. -/
def gapFirst : String := "\x00/Yield/System"

def gapFirstStream : List UInt8 :=
  [0x78, 0x9c, 0x63, 0xd0, 0x8f, 0xcc, 0x4c, 0xcd, 0x49, 0xd1, 0x0f, 0xae, 0x2c, 0x2e, 0x49, 0xcd,
    0x05, 0x00, 0x1f, 0xf5, 0x04, 0xdb]

theorem gapFirst_shifted :
    ¬ KeepsPositions (findOnly gapFirst ["/Yield/System"])
      (inflateOnly gapFirstStream (utf8 gapFirst))
      [.pathList 3 ([0, 0, 0, 14] ++ gapFirstStream)] (utf8 gapFirst) := by
  intro h
  obtain ⟨paths, path, hpaths, hat, -⟩ := h 1 (utf8 "/Yield/System") (by decide)
    (by decide)
  have hfirst : decodePaths (findOnly gapFirst ["/Yield/System"])
      (inflateOnly gapFirstStream (utf8 gapFirst))
      [.pathList 3 ([0, 0, 0, 14] ++ gapFirstStream)] = .ok ["/Yield/System"] := by
    decide
  rw [hfirst] at hpaths
  cases hpaths
  cases hat

/-- Two paths. -/
def yields : String := "/Yield/System\x00/Yield/User"

def yieldsStream : List UInt8 :=
  [0x78, 0x9c, 0xd3, 0x8f, 0xcc, 0x4c, 0xcd, 0x49, 0xd1, 0x0f, 0xae, 0x2c, 0x2e, 0x49, 0xcd, 0x65,
    0xd0, 0x87, 0xf0, 0x42, 0x8b, 0x53, 0x8b, 0x00, 0x70, 0xb0, 0x08, 0xcf]

theorem yields_unshifted : ShiftedOntoEqual (split (· == '\x00') yields) := by
  intro i part _ _ k hk
  have hkept : ∀ part ∈ split (· == '\x00') yields, isDropped part = false := by decide
  have hnone : ((split (· == '\x00') yields).take i).countP isDropped = 0 := by
    rw [List.countP_eq_zero]
    intro part hpart
    rw [hkept part (List.mem_of_mem_take hpart)]
    exact Bool.false_ne_true
  omega

theorem yields_kept :
    KeepsPositions (findOnly yields ["/Yield/System", "/Yield/User"])
      (inflateOnly yieldsStream (utf8 yields))
      [.pathList 3 ([0, 0, 0, 25] ++ yieldsStream)] (utf8 yields) :=
  (positions_kept_iff rfl (by simp [newPathOf]) (.prefixed (by decide))).mpr
    (.inr (.inl ⟨yields, ⟨by decide, by decide +kernel, by decide +kernel⟩,
      yields_unshifted⟩))

end VeSmart.Cli.ReadHistory
