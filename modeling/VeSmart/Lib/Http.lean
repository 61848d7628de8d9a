import VeSmart.Lib.Grammar
import VeSmart.Lib.Int64

set_option autoImplicit false

/-! # HTTP/1.1 requests

The grammar of a request message without a transfer coding: a request line, the field lines, an
empty line and as many bytes as the content length says. It is exact (`isRequest_exact`), so that
no reader that follows it can find other fields in a message or another message behind it. -/

namespace VeSmart.Lib.Http

def sp : UInt8 := 0x20
def colon : UInt8 := 0x3a
def cr : UInt8 := 0x0d
def crlf : List UInt8 := [0x0d, 0x0a]

/-! ## Classes of bytes -/

def isDigit (b : UInt8) : Bool := 0x30 ≤ b && b ≤ 0x39

def isAlpha (b : UInt8) : Bool := (0x41 ≤ b && b ≤ 0x5a) || (0x61 ≤ b && b ≤ 0x7a)

/-- A byte of a token. -/
def isTchar (b : UInt8) : Bool :=
  isDigit b || isAlpha b || [0x21, 0x23, 0x24, 0x25, 0x26, 0x27, 0x2a, 0x2b, 0x2d, 0x2e, 0x5e,
    0x5f, 0x60, 0x7c, 0x7e].contains b

/-- A visible byte of ASCII. -/
def isVchar (b : UInt8) : Bool := 0x21 ≤ b && b ≤ 0x7e

/-- Optional white space. -/
def isSpace (b : UInt8) : Bool := b = 0x20 || b = 0x09

/-- A byte of a field value. -/
def isFieldByte (b : UInt8) : Bool := isVchar b || 0x80 ≤ b || isSpace b

/-- The bytes without the white space at the ends. -/
def trim (s : List UInt8) : List UInt8 :=
  ((s.dropWhile isSpace).reverse.dropWhile isSpace).reverse

/-- The number of decimal digits. -/
def decimal (s : List UInt8) : Option Nat := parseDigits (s.map fun b => Char.ofNat b.toNat)

/-- A letter in lower case. -/
def lower (b : UInt8) : UInt8 := if 0x41 ≤ b ∧ b ≤ 0x5a then b + 0x20 else b

/-! ## Messages -/

structure Field where
  name : List UInt8
  value : List UInt8

structure Request where
  method : List UInt8
  target : List UInt8
  version : List UInt8
  fields : List Field
  body : List UInt8

/-- The name of a field is not case-sensitive. -/
def Field.named (f : Field) (name : List UInt8) : Prop := f.name.map lower = name

instance (f : Field) (name : List UInt8) : Decidable (f.named name) :=
  inferInstanceAs (Decidable (_ = _))

/-- `content-length` in bytes. -/
def contentLength : List UInt8 :=
  [0x63, 0x6f, 0x6e, 0x74, 0x65, 0x6e, 0x74, 0x2d, 0x6c, 0x65, 0x6e, 0x67, 0x74, 0x68]

/-- `transfer-encoding` in bytes. -/
def transferEncoding : List UInt8 :=
  [0x74, 0x72, 0x61, 0x6e, 0x73, 0x66, 0x65, 0x72, 0x2d, 0x65, 0x6e, 0x63, 0x6f, 0x64, 0x69, 0x6e,
    0x67]

/-- The length of the body. A message with two lengths has none. -/
def bodyLength (fields : List Field) : Option Nat :=
  match fields.filter fun f => f.named contentLength with
  | [] => some 0
  | [f] => decimal f.value
  | _ => none

/-- A field line: the value may have white space around it. -/
structure IsField (f : Field) (s : List UInt8) : Prop where
  name_ne : f.name ≠ []
  name : ∀ b ∈ f.name, isTchar b = true
  value : ∀ b ∈ f.value, isFieldByte b = true
  trimmed : trim f.value = f.value
  text : ∃ pre post, (∀ b ∈ pre, isSpace b = true) ∧ (∀ b ∈ post, isSpace b = true) ∧
    s = f.name ++ [colon] ++ (pre ++ f.value ++ post ++ crlf)

/-- `HTTP/` and two digits. -/
def IsVersion (s : List UInt8) : Prop :=
  ∃ major minor, isDigit major = true ∧ isDigit minor = true ∧
    s = [0x48, 0x54, 0x54, 0x50, 0x2f, major, 0x2e, minor]

structure IsRequest (r : Request) (s : List UInt8) : Prop where
  method_ne : r.method ≠ []
  method : ∀ b ∈ r.method, isTchar b = true
  target_ne : r.target ≠ []
  target : ∀ b ∈ r.target, isVchar b = true
  version : IsVersion r.version
  coding : ∀ f ∈ r.fields, ¬ f.named transferEncoding
  length : bodyLength r.fields = some r.body.length
  text : ∃ fields, Many IsField r.fields fields ∧
    s = r.method ++ [sp] ++ (r.target ++ [sp] ++ (r.version ++ (crlf ++ (fields ++ (crlf ++
      r.body)))))

/-! ## White space -/

/-- A trimmed value has no white space at its ends. -/
theorem trim_fixed {value : List UInt8} (h : trim value = value) :
    value.dropWhile isSpace = value ∧ value.reverse.dropWhile isSpace = value.reverse := by
  have hfront := List.dropWhile_suffix isSpace (l := value)
  have hback := List.dropWhile_suffix isSpace (l := (value.dropWhile isSpace).reverse)
  have hlen := congrArg List.length h
  have hle := hfront.length_le
  have hle' := hback.length_le
  rw [trim, List.length_reverse] at hlen
  rw [List.length_reverse] at hle'
  have hfixed : value.dropWhile isSpace = value := hfront.eq_of_length (by omega)
  refine ⟨hfixed, ?_⟩
  rw [hfixed] at hback hlen
  exact hback.eq_of_length (by rw [List.length_reverse, hlen])

/-- White space around a value does not change it. -/
theorem trim_pad {value pre post : List UInt8} (hvalue : trim value = value)
    (hpre : ∀ b ∈ pre, isSpace b = true) (hpost : ∀ b ∈ post, isSpace b = true) :
    trim (pre ++ value ++ post) = value := by
  obtain ⟨hfront, hback⟩ := trim_fixed hvalue
  have hpost' : ∀ b ∈ post.reverse, isSpace b = true := by
    intro b hb
    exact hpost b (List.mem_reverse.mp hb)
  rw [trim, List.append_assoc, List.dropWhile_append_of_pos hpre]
  cases value with
  | nil =>
      have hnone : (post ++ []).dropWhile isSpace = [] := List.dropWhile_append_of_pos hpost
      rw [List.append_nil] at hnone
      rw [List.nil_append, hnone]
      rfl
  | cons b rest =>
      have hb : isSpace b = false := by
        by_contra hspace
        rw [List.dropWhile_cons_of_pos (by simpa using hspace)] at hfront
        have hlen := (List.dropWhile_suffix isSpace (l := rest)).length_le
        rw [hfront, List.length_cons] at hlen
        omega
      rw [List.cons_append, List.dropWhile_cons_of_neg (by simp [hb]), ← List.cons_append,
        List.reverse_append, List.dropWhile_append_of_pos hpost', hback, List.reverse_reverse]

/-! ## The grammar is exact -/

theorem isTchar_colon : isTchar colon = false := by decide

theorem isFieldByte_cr : isFieldByte cr = false := by decide

theorem isSpace_fieldByte {b : UInt8} (h : isSpace b = true) : isFieldByte b = true := by
  simp [isFieldByte, h]

theorem isField_exact : Exact IsField := by
  intro f g s u t v hf hg heq
  obtain ⟨pre, post, hpre, hpost, rfl⟩ := hf.text
  obtain ⟨pre', post', hpre', hpost', rfl⟩ := hg.text
  have hcontent : ∀ {f : Field} {s pre post : List UInt8}, IsField f s →
      (∀ b ∈ pre, isSpace b = true) → (∀ b ∈ post, isSpace b = true) →
      ∀ b ∈ pre ++ f.value ++ post, isFieldByte b = true := by
    intro f s pre post hf hpre hpost b hb
    rcases List.mem_append.mp hb with hb | hb
    · rcases List.mem_append.mp hb with hb | hb
      · exact isSpace_fieldByte (hpre b hb)
      · exact hf.value b hb
    · exact isSpace_fieldByte (hpost b hb)
  -- the name ends at the colon, and what is behind it at the end of the line
  rw [List.append_assoc _ _ t, List.append_assoc _ _ v] at heq
  obtain ⟨hname, hrest⟩ := split_at_stop isTchar_colon hf.name hg.name heq
  have hline : ∀ xs t : List UInt8, xs ++ crlf ++ t = xs ++ [cr] ++ ([0x0a] ++ t) := by
    intro xs t
    simp [crlf, cr]
  rw [hline, hline] at hrest
  obtain ⟨hvalue, -⟩ := split_at_stop isFieldByte_cr (hcontent hf hpre hpost)
    (hcontent hg hpre' hpost') hrest
  have htrim : f.value = g.value := by
    rw [← trim_pad hf.trimmed hpre hpost, hvalue, trim_pad hg.trimmed hpre' hpost']
  obtain ⟨name, value⟩ := f
  obtain ⟨name', value'⟩ := g
  obtain rfl : name = name' := hname
  obtain rfl : value = value' := htrim
  exact ⟨rfl, by rw [hvalue]⟩

/-- A field line does not start like the empty line. -/
theorem isField_avoids : Avoids IsField crlf := by
  intro f s t v hf heq
  obtain ⟨pre, post, -, -, rfl⟩ := hf.text
  cases hname : f.name with
  | nil => exact hf.name_ne hname
  | cons b rest =>
      have hb := hf.name b (by rw [hname]; exact List.mem_cons_self ..)
      rw [hname] at heq
      have hcr : b = cr := (List.cons.inj heq).1
      rw [hcr] at hb
      exact absurd hb (by decide)

theorem IsVersion.length {s : List UInt8} (h : IsVersion s) : s.length = 8 := by
  obtain ⟨major, minor, -, -, rfl⟩ := h
  rfl

/-- A request message has one meaning, and ends where its meaning says. -/
theorem isRequest_exact : Exact IsRequest := by
  intro r q s u t v hr hq heq
  obtain ⟨fields, hfields, rfl⟩ := hr.text
  obtain ⟨fields', hfields', rfl⟩ := hq.text
  -- the request line, part by part
  have hsp : isTchar sp = false := by decide
  have hsp' : isVchar sp = false := by decide
  rw [List.append_assoc _ _ t, List.append_assoc _ _ v] at heq
  obtain ⟨hmethod, hrest⟩ := split_at_stop hsp hr.method hq.method heq
  rw [List.append_assoc _ _ t, List.append_assoc _ _ v] at hrest
  obtain ⟨htarget, hrest⟩ := split_at_stop hsp' hr.target hq.target hrest
  rw [List.append_assoc, List.append_assoc q.version] at hrest
  obtain ⟨hversion, hrest⟩ := List.append_inj hrest
    (hr.version.length.trans hq.version.length.symm)
  rw [List.append_assoc, List.append_assoc crlf] at hrest
  have hlines := List.append_cancel_left hrest
  simp only [List.append_assoc] at hlines
  -- the field lines, up to the empty one
  obtain ⟨hsame, rfl, hbody⟩ := hfields.split isField_exact isField_avoids hfields' hlines
  have hlength : r.body.length = q.body.length := by
    have hlen := hr.length
    rw [hsame, hq.length] at hlen
    exact (Option.some.inj hlen).symm
  obtain ⟨hbytes, -⟩ := List.append_inj hbody hlength
  obtain ⟨method, target, version, fs, body⟩ := r
  obtain ⟨method', target', version', fs', body'⟩ := q
  dsimp only at hmethod htarget hversion hsame hbytes
  subst hmethod htarget hversion hsame hbytes
  exact ⟨rfl, rfl⟩

theorem IsRequest.ne_nil {r : Request} {s : List UInt8} (h : IsRequest r s) : s ≠ [] := by
  obtain ⟨fields, -, rfl⟩ := h.text
  simp

/-- A text that is a request message is that one message: it is no row of others. -/
theorem IsRequest.only {r : Request} {s : List UInt8} (h : IsRequest r s) {rs : List Request}
    (hrs : Many IsRequest rs s) : rs = [r] := by
  have hone : Many IsRequest [r] s := by
    have hcons := Many.cons h .nil
    rwa [List.append_nil] at hcons
  exact hrs.meaning isRequest_exact (fun _ _ hr => hr.ne_nil) hone

/-! ## The empty line -/

/-- The text before the first empty line, with the end of its last line, and the text behind
it. -/
def splitEmptyLine : List UInt8 → Option (List UInt8 × List UInt8)
  | [] => none
  | b :: rest =>
      if (crlf ++ crlf).isPrefixOf (b :: rest) then some (crlf, rest.drop 3)
      else (splitEmptyLine rest).map fun p => (b :: p.1, p.2)

/-- What is behind the first empty line. -/
def afterEmptyLine (s : List UInt8) : Option (List UInt8) := (splitEmptyLine s).map Prod.snd

section

variable {xs s body : List UInt8}

theorem afterEmptyLine_end : afterEmptyLine (crlf ++ (crlf ++ body)) = some body := rfl

theorem afterEmptyLine_cons {b : UInt8} (h : (crlf ++ crlf).isPrefixOf (b :: s) = false) :
    afterEmptyLine (b :: s) = afterEmptyLine s := by
  rw [afterEmptyLine, splitEmptyLine, if_neg (by rw [h]; decide), Option.map_map]
  rfl

/-- Bytes within a line are passed over. -/
theorem afterEmptyLine_line (h : ∀ b ∈ xs, b ≠ cr) :
    afterEmptyLine (xs ++ s) = afterEmptyLine s := by
  induction xs with
  | nil => rfl
  | cons b xs ih =>
      have hb : b ≠ cr := h b (List.mem_cons_self ..)
      have hprefix : (crlf ++ crlf).isPrefixOf (b :: (xs ++ s)) = false := by
        have hne : (cr == b) = false := beq_false_of_ne hb.symm
        show (cr == b && _) = false
        rw [hne, Bool.false_and]
      rw [List.cons_append, afterEmptyLine_cons hprefix]
      exact ih fun b hb => h b (List.mem_cons_of_mem _ hb)

/-- So is the end of a line that another one follows. -/
theorem afterEmptyLine_crlf {b : UInt8} (h : b ≠ cr) :
    afterEmptyLine (crlf ++ b :: s) = afterEmptyLine (b :: s) := by
  have hne : (cr == b) = false := beq_false_of_ne h.symm
  have hfirst : (crlf ++ crlf).isPrefixOf (cr :: 0x0a :: b :: s) = false := by
    show (cr == cr && ((0x0a : UInt8) == 0x0a && (cr == b && _))) = false
    rw [hne, Bool.false_and, Bool.and_false, Bool.and_false]
  show afterEmptyLine (cr :: 0x0a :: b :: s) = _
  rw [afterEmptyLine_cons hfirst, afterEmptyLine_cons rfl]

/-- And so is a whole line. -/
theorem afterEmptyLine_next (hne : xs ≠ []) (h : ∀ b ∈ xs, b ≠ cr) :
    afterEmptyLine (crlf ++ (xs ++ s)) = afterEmptyLine s := by
  have hskip := afterEmptyLine_line (s := s) h
  cases xs with
  | nil => exact absurd rfl hne
  | cons b xs =>
      rw [List.cons_append, afterEmptyLine_crlf (h b (List.mem_cons_self ..))]
      exact hskip

end

theorem ne_cr_of {p : UInt8 → Bool} (h : p cr = false) {b : UInt8} (hb : p b = true) : b ≠ cr := by
  rintro rfl
  rw [h] at hb
  cases hb

/-- The body is what is behind the first empty line. -/
theorem afterEmptyLine_fields {fs : List Field} {fields body : List UInt8}
    (h : Many IsField fs fields) :
    afterEmptyLine (crlf ++ (fields ++ (crlf ++ body))) = some body := by
  induction h with
  | nil => exact afterEmptyLine_end
  | @cons f fs s t hf hrest ih =>
      obtain ⟨pre, post, hpre, hpost, rfl⟩ := hf.text
      have hline : ∀ b ∈ f.name ++ [colon] ++ (pre ++ f.value ++ post), b ≠ cr := by
        intro b hb
        simp only [List.mem_append, List.mem_singleton] at hb
        rcases hb with (hb | rfl) | (hb | hb) | hb
        · exact ne_cr_of (by decide) (hf.name b hb)
        · decide
        · exact ne_cr_of (by decide) (hpre b hb)
        · exact ne_cr_of (by decide) (hf.value b hb)
        · exact ne_cr_of (by decide) (hpost b hb)
      have htext : f.name ++ [colon] ++ (pre ++ f.value ++ post ++ crlf) ++ t ++ (crlf ++ body) =
          f.name ++ [colon] ++ (pre ++ f.value ++ post) ++ (crlf ++ (t ++ (crlf ++ body))) := by
        simp only [List.append_assoc]
      rw [htext, afterEmptyLine_next (by simp) hline]
      exact ih

/-- The request line without its end. -/
def Request.line (r : Request) : List UInt8 := r.method ++ [sp] ++ (r.target ++ [sp] ++ r.version)

section

variable {r : Request} {s : List UInt8}

/-- In a version there is neither the end of a line nor a blank. -/
theorem isVersion_bytes {version : List UInt8} (h : IsVersion version) :
    ∀ b ∈ version, isVchar b = true := by
  have hdigit : ∀ b : UInt8, isDigit b = true → isVchar b = true := by
    intro b hb
    simp only [isDigit, isVchar, Bool.and_eq_true, decide_eq_true_eq, UInt8.le_iff_toNat_le] at hb ⊢
    simp only [UInt8.reduceToNat] at hb ⊢
    omega
  obtain ⟨major, minor, hmajor, hminor, rfl⟩ := h
  intro b hb
  simp only [List.mem_cons, List.not_mem_nil, or_false] at hb
  rcases hb with rfl | rfl | rfl | rfl | rfl | rfl | rfl | rfl
  · decide
  · decide
  · decide
  · decide
  · decide
  · exact hdigit _ hmajor
  · decide
  · exact hdigit _ hminor

theorem IsRequest.line_bytes (h : IsRequest r s) : ∀ b ∈ r.line, b ≠ cr := by
  intro b hb
  simp only [Request.line, List.mem_append, List.mem_singleton] at hb
  rcases hb with (hb | rfl) | (hb | rfl) | hb
  · exact ne_cr_of (by decide) (h.method b hb)
  · decide
  · exact ne_cr_of (by decide) (h.target b hb)
  · decide
  · exact ne_cr_of (by decide) (isVersion_bytes h.version b hb)

theorem IsRequest.line_text (h : IsRequest r s) : ∃ fields, Many IsField r.fields fields ∧
    s = r.line ++ (crlf ++ (fields ++ (crlf ++ r.body))) := by
  obtain ⟨fields, hfields, rfl⟩ := h.text
  refine ⟨fields, hfields, ?_⟩
  simp only [Request.line, List.append_assoc]

theorem IsRequest.body (h : IsRequest r s) : afterEmptyLine s = some r.body := by
  obtain ⟨fields, hfields, rfl⟩ := h.line_text
  rw [afterEmptyLine_line h.line_bytes]
  exact afterEmptyLine_fields hfields

/-- The first line of a message is its request line. -/
theorem IsRequest.firstLine (h : IsRequest r s) : s.takeWhile (· ≠ cr) = r.line := by
  obtain ⟨fields, -, rfl⟩ := h.line_text
  rw [List.takeWhile_append_of_pos fun b hb => by simpa using h.line_bytes b hb]
  simp [crlf, cr]

/-- It has two blanks. -/
theorem IsRequest.blanks (h : IsRequest r s) : r.line.count sp = 2 := by
  have hnone : ∀ {p : UInt8 → Bool} {xs : List UInt8}, p sp = false → (∀ b ∈ xs, p b = true) →
      xs.count sp = 0 := by
    intro p xs hp hxs
    refine List.count_eq_zero.mpr ?_
    intro hmem
    rw [hxs sp hmem] at hp
    cases hp
  simp only [Request.line, List.count_append, hnone (p := isTchar) (by decide) h.method,
    hnone (p := isVchar) (by decide) h.target,
    hnone (p := isVchar) (by decide) (isVersion_bytes h.version)]
  rfl

end

/-! ## Field lines -/

theorem isSpace_of_visible {b : UInt8} (h : isVchar b = true) : isSpace b = false := by
  simp only [isVchar, Bool.and_eq_true, decide_eq_true_eq] at h
  have hlo : 0x21 ≤ b.toNat := UInt8.le_iff_toNat_le.mp h.1
  have hsp : b ≠ 0x20 := by
    rintro rfl
    exact absurd hlo (by decide)
  have htab : b ≠ 0x09 := by
    rintro rfl
    exact absurd hlo (by decide)
  simp [isSpace, hsp, htab]

/-- A value of visible bytes has no white space. -/
theorem trim_visible {value : List UInt8} (h : ∀ b ∈ value, isVchar b = true) :
    trim value = value := by
  have hkeep : ∀ s : List UInt8, (∀ b ∈ s, isVchar b = true) → s.dropWhile isSpace = s := by
    intro s hs
    cases s with
    | nil => rfl
    | cons b s =>
        have hb := isSpace_of_visible (hs b (List.mem_cons_self ..))
        exact List.dropWhile_cons_of_neg (by rw [hb]; decide)
  rw [trim, hkeep value h, hkeep value.reverse fun b hb => h b (List.mem_reverse.mp hb),
    List.reverse_reverse]

/-- The line of a field: a colon and a blank. -/
def fieldLine (f : Field) : List UInt8 := f.name ++ [colon] ++ ([sp] ++ f.value ++ [] ++ crlf)

theorem isField_line {f : Field} (hne : f.name ≠ []) (hname : ∀ b ∈ f.name, isTchar b = true)
    (hvalue : ∀ b ∈ f.value, isFieldByte b = true) (htrim : trim f.value = f.value) :
    IsField f (fieldLine f) where
  name_ne := hne
  name := hname
  value := hvalue
  trimmed := htrim
  text := by
    refine ⟨[sp], [], ?_, by simp, rfl⟩
    intro b hb
    rw [List.mem_singleton.mp hb]
    rfl

theorem isField_visible {f : Field} (hne : f.name ≠ []) (hname : ∀ b ∈ f.name, isTchar b = true)
    (hvalue : ∀ b ∈ f.value, isVchar b = true) : IsField f (fieldLine f) := by
  refine isField_line hne hname ?_ (trim_visible hvalue)
  intro b hb
  simp [isFieldByte, hvalue b hb]

end VeSmart.Lib.Http
