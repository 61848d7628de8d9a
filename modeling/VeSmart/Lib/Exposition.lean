import VeSmart.Lib.Grammar
import VeSmart.Lib.Int64

set_option autoImplicit false

/-! # The text exposition format of metrics

One sample a line: `name{label="value",...} value timestamp`. Label values are quoted, with a
backslash before a backslash or a quote and `\n` for a newline. How a number is written is a
parameter; if no text stands for two numbers, the whole format is exact (`isText_meaning`). -/

namespace VeSmart.Lib.Exposition

variable {V : Type}

structure Sample (V : Type) where
  name : String
  labels : List (String × String)
  value : V
  timestamp : Int
  deriving DecidableEq

/-! ## Names -/

def isNameChar (c : Char) : Bool := c.isAlphanum || c = '_' || c = ':'

def isLabelChar (c : Char) : Bool := c.isAlphanum || c = '_'

/-- A name does not start with a digit. -/
structure IsName (isChar : Char → Bool) (name : List Char) : Prop where
  ne : name ≠ []
  start : ∀ c ∈ name.head?, c.isDigit = false
  chars : ∀ c ∈ name, isChar c = true

theorem IsName.not_mem {isChar : Char → Bool} {name : List Char} {c : Char}
    (h : IsName isChar name) (hc : isChar c = false) : c ∉ name := by
  intro hmem
  have hchar := h.chars c hmem
  rw [hc] at hchar
  exact Bool.false_ne_true hchar

/-! ## Quoted values -/

/-- The characters that need an escape, and the letter behind the backslash. -/
def escapes : List (Char × Char) := [('\\', '\\'), ('"', '"'), ('\n', 'n')]

/-- A character of a quoted value, with its escape if it needs one. -/
inductive IsQuoted : Char → List Char → Prop
  | plain {c : Char} (h : ∀ e ∈ escapes, c ≠ e.1) : IsQuoted c [c]
  | escaped {c e : Char} (h : (c, e) ∈ escapes) : IsQuoted c ['\\', e]

theorem plain_ne_slash {c : Char} (h : ∀ e ∈ escapes, c ≠ e.1) : c ≠ '\\' :=
  h ('\\', '\\') (by decide)

/-- The letter tells which character was meant. -/
theorem escapes_injective {c d e : Char} (hc : (c, e) ∈ escapes) (hd : (d, e) ∈ escapes) :
    c = d := by
  simp only [escapes, List.mem_cons, Prod.mk.injEq, List.not_mem_nil, or_false] at hc hd
  rcases hc with ⟨rfl, rfl⟩ | ⟨rfl, rfl⟩ | ⟨rfl, rfl⟩ <;>
    rcases hd with ⟨rfl, h⟩ | ⟨rfl, h⟩ | ⟨rfl, h⟩ <;> first | rfl | exact absurd h (by decide)

theorem isQuoted_exact : Exact IsQuoted := by
  intro x y s u t v hx hy heq
  cases hx with
  | plain h =>
      cases hy with
      | plain => exact ⟨(List.cons.inj heq).1, by rw [(List.cons.inj heq).1]⟩
      | escaped => exact absurd (List.cons.inj heq).1 (plain_ne_slash h)
  | escaped h =>
      cases hy with
      | plain h' => exact absurd (List.cons.inj heq).1.symm (plain_ne_slash h')
      | escaped h' =>
          have hletter := (List.cons.inj (List.cons.inj heq).2).1
          subst hletter
          exact ⟨escapes_injective h h', rfl⟩

/-- No character of a value is written as a quote: only the closing one is. -/
theorem isQuoted_avoids : Avoids IsQuoted ['"'] := by
  intro c s t v hs heq
  cases hs with
  | plain h => exact h ('"', '"') (by decide) (List.cons.inj heq).1
  | escaped h => exact absurd (List.cons.inj heq).1 (by decide)

/-- No character of a value is written as the end of a line. -/
theorem IsQuoted.no_newline {c : Char} {s : List Char} (h : IsQuoted c s) : '\n' ∉ s := by
  cases h with
  | plain h => simpa using (h ('\n', 'n') (by decide)).symm
  | @escaped e h =>
      have hall : ∀ p ∈ escapes, '\n' ∉ ['\\', p.2] := by decide
      exact hall (c, e) h

/-- A quoted text ends where its first closing quote is. -/
theorem quoted_split {xs ys s u t v : List Char} (hx : Many IsQuoted xs s)
    (hy : Many IsQuoted ys u) (heq : s ++ (['"'] ++ t) = u ++ (['"'] ++ v)) :
    xs = ys ∧ s = u ∧ t = v :=
  hx.split isQuoted_exact isQuoted_avoids hy heq

/-! ## Labels -/

structure IsLabel (l : String × String) (s : List Char) : Prop where
  name : IsName isLabelChar l.1.toList
  text : ∃ w, Many IsQuoted l.2.toList w ∧ s = l.1.toList ++ ['='] ++ (['"'] ++ (w ++ ['"']))

theorem isLabel_exact : Exact IsLabel := by
  intro x y s u t v hx hy heq
  obtain ⟨hname, w, hw, rfl⟩ := hx
  obtain ⟨hname', w', hw', rfl⟩ := hy
  simp only [List.append_assoc] at heq
  rw [← List.append_assoc, ← List.append_assoc y.1.toList] at heq
  obtain ⟨hkey, htail⟩ := split_at_stop (by decide) hname.chars hname'.chars heq
  obtain ⟨hval, htext, -⟩ := quoted_split hw hw' (List.append_cancel_left htail)
  have hxy : x = y := Prod.ext (String.toList_inj.mp hkey) (String.toList_inj.mp hval)
  exact ⟨hxy, by rw [hxy, htext]⟩

/-- A label starts with a character of a name. -/
theorem isLabel_avoids {c : Char} {rest : List Char} (hc : isLabelChar c = false) :
    Avoids IsLabel (c :: rest) := by
  intro l s t v hs heq
  obtain ⟨hname, w, -, rfl⟩ := hs
  obtain ⟨d, ds, hcons⟩ := List.exists_cons_of_ne_nil hname.ne
  rw [hcons] at heq
  have hd : d = c := (List.cons.inj heq).1
  have hchar := hname.chars d (by rw [hcons]; exact List.mem_cons_self ..)
  rw [hd, hc] at hchar
  exact Bool.false_ne_true hchar

theorem comma_avoids : Avoids (After [','] IsLabel) ['}', ' '] := by
  intro l s t v hs heq
  obtain ⟨u, -, rfl⟩ := hs
  exact absurd (List.cons.inj heq).1 (by decide)

/-! ## Lines -/

/-- No text stands for two numbers, and none has a blank in it. -/
structure Numerals (N : V → List Char → Prop) : Prop where
  functional : ∀ x y s, N x s → N y s → x = y
  noBlank : ∀ x s, N x s → ' ' ∉ s

variable {N : V → List Char → Prop}

/-- A line without its end. -/
structure IsLine (N : V → List Char → Prop) (s : Sample V) (text : List Char) : Prop where
  name : IsName isNameChar s.name.toList
  line : ∃ labels value timestamp, SepBy [','] IsLabel s.labels labels ∧ N s.value value ∧
    parseI64 (String.ofList timestamp) = some s.timestamp ∧
    text = s.name.toList ++ ['{'] ++ (labels ++ (['}', ' '] ++ (value ++ [' '] ++ timestamp)))

theorem isLine_functional (hN : Numerals N) (x y : Sample V) (text : List Char)
    (hx : IsLine N x text) (hy : IsLine N y text) : x = y := by
  obtain ⟨hname, labels, value, timestamp, hlabels, hvalue, hstamp, rfl⟩ := hx
  obtain ⟨hname', labels', value', timestamp', hlabels', hvalue', hstamp', heq⟩ := hy
  obtain ⟨hname_eq, hrest⟩ := split_at_stop (by decide) hname.chars hname'.chars heq
  obtain ⟨hlabels_eq, -, hnumbers⟩ :=
    hlabels.split isLabel_exact (isLabel_avoids (by decide)) comma_avoids hlabels' hrest
  obtain ⟨rfl, rfl⟩ :=
    split_at_first (hN.noBlank _ _ hvalue) (hN.noBlank _ _ hvalue') hnumbers
  have hvalue_eq := hN.functional _ _ _ hvalue hvalue'
  have hstamp_eq : x.timestamp = y.timestamp := Option.some.inj (hstamp.symm.trans hstamp')
  cases x
  cases y
  simp_all [String.toList_inj]

/-! ## Texts -/

/-- Samples line by line. -/
def IsText (N : V → List Char → Prop) : List (Sample V) → List Char → Prop :=
  Many (Terminated '\n' (IsLine N))

theorem terminated_ne {s : Sample V} {text : List Char}
    (h : Terminated '\n' (IsLine N) s text) : text ≠ [] := by
  obtain ⟨u, -, -, rfl⟩ := h
  simp

/-- **A text is read in one way.** -/
theorem isText_meaning (hN : Numerals N) {xs ys : List (Sample V)} {text : List Char}
    (hx : IsText N xs text) (hy : IsText N ys text) : xs = ys :=
  Many.meaning (Exact.terminated (isLine_functional hN)) (fun _ _ h => terminated_ne h) hx hy

end VeSmart.Lib.Exposition
