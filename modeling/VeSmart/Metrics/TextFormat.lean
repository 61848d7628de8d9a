import VeSmart.Lib.Exposition
import VeSmart.Lib.Keyed
import VeSmart.Lib.Reader
import VeSmart.Metrics.Metric

set_option autoImplicit false

/-! # Reading the encoded text back (`victron-metrics/src/encode.rs`)

The encoder writes a text of the exposition format, and what a reader finds in it are the latest
points of each series and timestamp, in order. All that is used of the shortest decimal text of a
float is that it is injective and has no blanks (`Display`). -/

namespace VeSmart.Metrics

open VeSmart.Lib VeSmart.Lib.Exposition

/-! ## Points that passed the validation -/

/-- The point was made by its constructor. -/
def MetricPoint.Validated (p : MetricPoint) : Prop :=
  ∃ name labels value timestampMs kind,
    MetricPoint.new name labels value timestampMs kind = .ok p

/-- A class of characters without the digits to start with. -/
theorem isName_of_wellFormed {start other isChar : Char → Bool} {cs : List Char}
    (hdigit : ∀ c, start c = true → c.isDigit = false)
    (hstart : ∀ c, start c = true → isChar c = true)
    (hother : ∀ c, other c = true → isChar c = true) (h : wellFormed start other cs = true) :
    IsName isChar cs := by
  cases cs with
  | nil => cases h
  | cons c cs =>
      simp only [wellFormed, Bool.and_eq_true, List.all_eq_true] at h
      refine ⟨List.cons_ne_nil c cs, ?_, ?_⟩
      · intro d hd
        cases Option.some.inj hd
        exact hdigit c h.1
      · intro d hd
        rcases List.mem_cons.mp hd with rfl | hd'
        · exact hstart d h.1
        · exact hother d (h.2 d hd')

theorem isAlpha_not_digit {c : Char} (h : c.isAlpha = true) : c.isDigit = false := by
  have halpha : c.isAlpha = (decide (65 ≤ c.val ∧ c.val ≤ 90) ||
      (decide (97 ≤ c.val) && decide (c.val ≤ 122))) := rfl
  have hdigit : c.isDigit = (decide (48 ≤ c.val) && decide (c.val ≤ 57)) := rfl
  simp only [halpha, Bool.or_eq_true, Bool.and_eq_true, decide_eq_true_eq,
    UInt32.le_iff_toNat_le, UInt32.reduceToNat] at h
  simp only [hdigit, Bool.and_eq_false_iff, decide_eq_false_iff_not, UInt32.le_iff_toNat_le,
    UInt32.reduceToNat]
  omega

theorem isNameStart_not_digit (c : Char) (h : isNameStart c = true) : c.isDigit = false := by
  simp only [isNameStart, Bool.or_eq_true, decide_eq_true_eq] at h
  rcases h with (h | rfl) | rfl
  · exact isAlpha_not_digit h
  · rfl
  · rfl

theorem isNameStart_char (c : Char) (h : isNameStart c = true) :
    Exposition.isNameChar c = true := by
  simp only [isNameStart, Exposition.isNameChar, Char.isAlphanum, Bool.or_eq_true] at h ⊢
  tauto

theorem isLabelStart_not_digit (c : Char) (h : isLabelStart c = true) : c.isDigit = false := by
  simp only [isLabelStart, Bool.or_eq_true, decide_eq_true_eq] at h
  rcases h with h | rfl
  · exact isAlpha_not_digit h
  · rfl

theorem isLabelStart_char (c : Char) (h : isLabelStart c = true) :
    Exposition.isLabelChar c = true := by
  simp only [isLabelStart, Exposition.isLabelChar, Char.isAlphanum, Bool.or_eq_true] at h ⊢
  tauto

theorem validateMetricName_isName {name : String} (h : validateMetricName name = .ok ()) :
    IsName Exposition.isNameChar name.toList := by
  unfold validateMetricName at h
  split_ifs at h with hempty hlen hwell hreserved
  have hname : wellFormed isNameStart isNameChar name.toList = true := by simpa using hwell
  exact isName_of_wellFormed isNameStart_not_digit isNameStart_char (fun c hc => hc) hname

theorem validateLabelName_isName {name : String} (h : validateLabelName name = .ok ()) :
    IsName Exposition.isLabelChar name.toList := by
  unfold validateLabelName at h
  split_ifs at h with hempty hlen hwell hreserved
  have hname : wellFormed isLabelStart isLabelChar name.toList = true := by simpa using hwell
  exact isName_of_wellFormed isLabelStart_not_digit isLabelStart_char (fun c hc => hc) hname

theorem checkLabels_names {seen : List String} {labels : List (String × String)}
    (h : checkLabels seen labels = .ok ()) :
    ∀ l ∈ labels, IsName Exposition.isLabelChar l.1.toList := by
  induction labels generalizing seen with
  | nil => simp
  | cons l rest ih =>
      obtain ⟨u, hname, h⟩ := bind_eq_ok.mp h
      obtain ⟨u', hvalue, h⟩ := bind_eq_ok.mp h
      split_ifs at h with hseen
      intro l' hl'
      rcases List.mem_cons.mp hl' with rfl | hrest
      · exact validateLabelName_isName hname
      · exact ih h l' hrest

/-- What the validation promises about the names. -/
theorem MetricPoint.Validated.names {p : MetricPoint} (h : p.Validated) :
    IsName Exposition.isNameChar p.name.toList ∧
      ∀ l ∈ p.labels, IsName Exposition.isLabelChar l.1.toList := by
  obtain ⟨name, labels, value, timestampMs, kind, hnew⟩ := h
  unfold MetricPoint.new at hnew
  split_ifs at hnew with hfinite hpositive hcounter
  · obtain ⟨u, -, herror⟩ := bind_eq_ok.mp hnew
    cases herror
  · obtain ⟨u, hname, hrest⟩ := bind_eq_ok.mp hnew
    obtain ⟨sorted, hlabels, hpoint⟩ := bind_eq_ok.mp hrest
    cases hpoint
    unfold validateLabels at hlabels
    split_ifs at hlabels with hmany
    obtain ⟨u', hcheck, hsort⟩ := bind_eq_ok.mp hlabels
    cases hsort
    refine ⟨validateMetricName_isName hname, ?_⟩
    intro l hl
    exact checkLabels_names hcheck l (List.mem_mergeSort.mp hl)

/-! ## Lines -/

/-- The text of a float: injective on the finite ones, without blanks and line ends. -/
structure Display (formatValue : F64 → String) : Prop where
  injective : ∀ x y, x.isFinite = true → y.isFinite = true → formatValue x = formatValue y → x = y
  noBlank : ∀ x, x.isFinite = true → ' ' ∉ (formatValue x).toList
  noNewline : ∀ x, x.isFinite = true → '\n' ∉ (formatValue x).toList

/-- The numerals are the texts of the finite floats. -/
def IsNumeral (formatValue : F64 → String) (x : F64) (s : List Char) : Prop :=
  x.isFinite = true ∧ s = (formatValue x).toList

/-- What a reader sees of a point. -/
def MetricPoint.sample (p : MetricPoint) : Exposition.Sample F64 :=
  ⟨p.name, p.labels, p.value, p.timestampMs.1⟩

/-- The series and the timestamp of a sample. -/
def sampleKey (s : Exposition.Sample F64) : String ×ₗ List (String ×ₗ String) ×ₗ Int :=
  toLex (s.name, toLex (s.labels.map fun l => toLex l, s.timestamp))

section

variable {formatValue : F64 → String}

theorem Display.numerals (h : Display formatValue) : Numerals (IsNumeral formatValue) where
  functional := by
    intro x y s hx hy
    exact h.injective x y hx.1 hy.1 (String.toList_inj.mp (hx.2.symm.trans hy.2))
  noBlank := by
    intro x s hx
    rw [hx.2]
    exact h.noBlank x hx.1

theorem escapeLabelValue_quoted (value : String) :
    Many IsQuoted value.toList (escapeLabelValue value) := by
  refine Many.flatMap ?_
  intro c _
  split_ifs with hslash hquote hline
  · subst hslash
    exact .escaped (by decide)
  · subst hquote
    exact .escaped (by decide)
  · subst hline
    exact .escaped (by decide)
  · refine .plain ?_
    simp only [escapes, List.forall_mem_cons, List.not_mem_nil, false_implies, implies_true,
      and_true]
    exact ⟨hslash, hquote, hline⟩

theorem many_noNewline {cs s : List Char} (h : Many IsQuoted cs s) : '\n' ∉ s := by
  induction h with
  | nil => exact List.not_mem_nil
  | cons h hrest ih =>
      rw [List.mem_append, not_or]
      exact ⟨h.no_newline, ih⟩

theorem writeLabel_isLabel {l : String × String}
    (h : IsName Exposition.isLabelChar l.1.toList) : IsLabel l (writeLabel l) where
  name := h
  text := by
    refine ⟨escapeLabelValue l.2, escapeLabelValue_quoted l.2, ?_⟩
    simp [writeLabel]

/-- The decimal text of a timestamp has no line end. -/
theorem toString_noNewline (n : Int) : '\n' ∉ (toString n).toList := by
  have hdigits : ∀ k : Nat, '\n' ∉ Nat.toDigits 10 k := by
    intro k hmem
    exact absurd (Nat.isDigit_of_mem_toDigits (by decide) (by decide) hmem) (by decide)
  cases n with
  | ofNat n =>
      have htext : (toString (Int.ofNat n)).toList = Nat.toDigits 10 n := Nat.toList_repr
      rw [htext]
      exact hdigits n
  | negSucc n =>
      have htext : (toString (Int.negSucc n)).toList = '-' :: Nat.toDigits 10 (n + 1) := by
        show ("-" ++ Nat.repr (n + 1)).toList = _
        rw [String.toList_append, Nat.toList_repr]
        rfl
      rw [htext, List.mem_cons, not_or]
      exact ⟨by decide, hdigits (n + 1)⟩

/-- A label stays on its line. -/
theorem writeLabel_noNewline {l : String × String}
    (h : IsName Exposition.isLabelChar l.1.toList) : '\n' ∉ writeLabel l := by
  have hname := h.not_mem (c := '\n') (by decide)
  have hvalue := many_noNewline (escapeLabelValue_quoted l.2)
  simp [writeLabel, hname, hvalue]

theorem writeLine_isLine (hdisplay : Display formatValue) {p : MetricPoint} (h : p.Validated) :
    Terminated '\n' (IsLine (IsNumeral formatValue)) p.sample (writeLine formatValue p) := by
  obtain ⟨hname, hlabels⟩ := h.names
  have hname_line := hname.not_mem (c := '\n') (by decide)
  have hlabels_line : '\n' ∉ [','].intercalate (p.labels.map writeLabel) := by
    refine not_mem_intercalate (by decide) ?_
    intro text htext
    obtain ⟨l, hl, rfl⟩ := List.mem_map.mp htext
    exact writeLabel_noNewline (hlabels l hl)
  have hvalue_line := hdisplay.noNewline p.value p.finite
  have hstamp_line : '\n' ∉ p.timestampMs.1.repr.toList := toString_noNewline p.timestampMs.1
  refine ⟨p.name.toList ++ ['{'] ++ ([','].intercalate (p.labels.map writeLabel) ++ (['}', ' '] ++
    ((formatValue p.value).toList ++ [' '] ++ (toString p.timestampMs.1).toList))), ⟨hname, ?_⟩,
    ?_, ?_⟩
  · refine ⟨_, _, _, SepBy.intercalate fun l hl => writeLabel_isLabel (hlabels l hl),
      ⟨p.finite, rfl⟩, ?_, rfl⟩
    rw [String.ofList_toList]
    exact parseI64_toString p.timestampMs.2
  · simp [hname_line, hlabels_line, hvalue_line, hstamp_line]
  · simp [writeLine]

/-! ## The encoder -/

theorem MetricPoint.key_eq_iff {p q : MetricPoint} :
    q.key = p.key ↔ q.name = p.name ∧ q.labels = p.labels ∧ q.timestampMs = p.timestampMs := by
  simp only [MetricPoint.key, EmbeddingLike.apply_eq_iff_eq, Prod.mk.injEq, Subtype.ext_iff]
  rw [List.map_inj_right fun a b h => toLex.injective h]

theorem lastOfRuns_eq (items : List MetricPoint) :
    lastOfRuns items = lastRuns MetricPoint.key items := by
  induction items with
  | nil => rfl
  | cons p rest ih =>
      cases rest with
      | nil => rfl
      | cons q rest =>
          unfold lastOfRuns lastRuns
          rw [ih]

/-- No point is filtered out. -/
theorem filter_points (points : List MetricPoint) :
    points.filter (fun p => p.value.isFinite && 0 < p.timestampMs.1) = points := by
  rw [List.filter_eq_self]
  intro p _
  simp [p.finite, p.positive]

theorem encode_latest (points : List MetricPoint) : encode formatValue points =
    String.ofList ((latest MetricPoint.key points).flatMap (writeLine formatValue)) := by
  unfold encode
  dsimp only
  rw [filter_points, lastOfRuns_eq]
  rfl

theorem lastOfRuns_cons (p q : MetricPoint) (rest : List MetricPoint) :
    lastOfRuns (p :: q :: rest) =
      if p.key = q.key then lastOfRuns (q :: rest) else p :: lastOfRuns (q :: rest) := rfl

/-- A run ends where the inner loop stops. -/
theorem lastOfRuns_runEnd {first last : MetricPoint} (h : last.key = first.key)
    (rest : List MetricPoint) : lastOfRuns (last :: rest) =
      (runEnd first last rest).1 :: lastOfRuns (runEnd first last rest).2 := by
  induction rest generalizing last with
  | nil => rfl
  | cons next rest ih =>
      rw [lastOfRuns_cons, runEnd]
      by_cases hkey : next.key = first.key
      · rw [if_pos (h.trans hkey.symm), if_pos (MetricPoint.key_eq_iff.mp hkey)]
        exact ih hkey
      · rw [if_neg fun heq => hkey (heq.symm.trans h),
          if_neg fun heq => hkey (MetricPoint.key_eq_iff.mpr heq)]

theorem writeRuns_eq (items : List MetricPoint) (out : String) : writeRuns formatValue items out =
    out ++ String.ofList ((lastOfRuns items).flatMap (writeLine formatValue)) := by
  induction items, out using writeRuns.induct formatValue with
  | case1 out => simp [writeRuns, lastOfRuns]
  | case2 first rest out ih =>
      rw [writeRuns, ih, lastOfRuns_runEnd rfl rest, List.flatMap_cons, String.ofList_append,
        String.append_assoc]

/-- **The encoder only appends.** -/
theorem encodeInto_eq (points : List MetricPoint) (out : String) :
    encodeInto formatValue points out = out ++ encode formatValue points := by
  exact writeRuns_eq _ out

/-- A reader finds the latest points, and nothing else. -/
theorem encode_isText (hdisplay : Display formatValue) {points : List MetricPoint}
    (hpoints : ∀ p ∈ points, p.Validated) :
    IsText (IsNumeral formatValue) ((latest MetricPoint.key points).map MetricPoint.sample)
      (encode formatValue points).toList := by
  rw [encode_latest, String.toList_ofList]
  have hmem : ∀ p ∈ latest MetricPoint.key points, p.Validated := by
    intro p hp
    exact hpoints p (lastOf_mem (mem_latest.mp hp)).1
  generalize latest MetricPoint.key points = items at hmem
  induction items with
  | nil => exact .nil
  | cons p rest ih =>
      rw [List.map_cons, List.flatMap_cons]
      exact .cons (writeLine_isLine hdisplay (hmem p (List.mem_cons_self ..)))
        (ih fun q hq => hmem q (List.mem_cons_of_mem _ hq))

/-- **The encoded points are read back**: the text has one reading, in which there is one sample
for each series and timestamp, the last of its points, in increasing order. No label value ends
its line or its quotes; points of different series or timestamps may come in any order, and what
is there before the text stays. -/
theorem encode_roundTrip (hdisplay : Display formatValue) (points : List MetricPoint)
    (hpoints : ∀ p ∈ points, p.Validated) :
    (∃ samples, IsText (IsNumeral formatValue) samples (encode formatValue points).toList ∧
      (∀ other, IsText (IsNumeral formatValue) other (encode formatValue points).toList →
        other = samples) ∧
      samples.Pairwise (fun a b => sampleKey a < sampleKey b) ∧
      ∀ s, s ∈ samples ↔ ∃ p, lastOf MetricPoint.key points p.key = some p ∧ s = p.sample) ∧
    (∀ p ∈ points, ∀ l ∈ p.labels, '\n' ∉ escapeLabelValue l.2 ∧
      ∀ w s t u, Many IsQuoted w s → s ++ (['"'] ++ t) = escapeLabelValue l.2 ++ (['"'] ++ u) →
        w = l.2.toList ∧ s = escapeLabelValue l.2) ∧
    (∀ other, Reordered MetricPoint.key points other →
      encode formatValue other = encode formatValue points) ∧
    (∀ other, other.Perm points → (points.map MetricPoint.key).Nodup →
      encode formatValue other = encode formatValue points) ∧
    ∀ out, encodeInto formatValue points out = out ++ encode formatValue points := by
  have hreorder : ∀ other, Reordered MetricPoint.key points other →
      encode formatValue other = encode formatValue points := by
    intro other h
    rw [encode_latest, encode_latest, latest_congr h]
  refine ⟨⟨(latest MetricPoint.key points).map MetricPoint.sample, ?_, ?_, ?_, ?_⟩, ?_, hreorder,
    ?_, encodeInto_eq points⟩
  · exact encode_isText hdisplay hpoints
  · intro other hother
    exact isText_meaning hdisplay.numerals hother (encode_isText hdisplay hpoints)
  · rw [List.pairwise_map]
    exact latest_sorted MetricPoint.key points
  · intro s
    rw [List.mem_map]
    constructor
    · rintro ⟨p, hp, rfl⟩
      exact ⟨p, mem_latest.mp hp, rfl⟩
    · rintro ⟨p, hp, rfl⟩
      exact ⟨p, mem_latest.mpr hp, rfl⟩
  · intro p _ l _
    refine ⟨many_noNewline (escapeLabelValue_quoted l.2), ?_⟩
    intro w s t u hw heq
    obtain ⟨hvalue, htext, -⟩ := quoted_split hw (escapeLabelValue_quoted l.2) heq
    exact ⟨hvalue, htext⟩
  · intro other hperm hkeys
    exact hreorder other (Reordered.of_perm hkeys hperm.symm)

end

/-! ## A display -/

def intText (n : Int) : List Char :=
  if n < 0 then '-' :: Nat.toDigits 10 n.natAbs else Nat.toDigits 10 n.natAbs

def fractionPart (d : Nat) : List Char := if d = 1 then [] else ['/'] ++ Nat.toDigits 10 d

/-- The whole numbers in decimal, as Rust writes them, and the other numbers as fractions. -/
def fractionText : F64 → String
  | .finite q => String.ofList (intText q.num ++ fractionPart q.den)
  | .negZero => "-0"
  | .infinite negative => if negative then "-inf" else "inf"
  | .nan => "NaN"

theorem toDigits_injective {m n : Nat} (h : Nat.toDigits 10 m = Nat.toDigits 10 n) : m = n := by
  calc m = Nat.ofDigitChars 10 (Nat.toDigits 10 m) 0 := Nat.ofDigitChars_ten_toDigits.symm
    _ = Nat.ofDigitChars 10 (Nat.toDigits 10 n) 0 := by rw [h]
    _ = n := Nat.ofDigitChars_ten_toDigits

theorem toDigits_digit {c : Char} {n : Nat} (h : c ∈ Nat.toDigits 10 n) : c.isDigit = true :=
  Nat.isDigit_of_mem_toDigits (by decide) (by decide) h

theorem not_mem_intText {c : Char} (hdigit : c.isDigit = false) (hminus : c ≠ '-') (n : Int) :
    c ∉ intText n := by
  have hdigits : ∀ k, c ∉ Nat.toDigits 10 k := by
    intro k hmem
    rw [toDigits_digit hmem] at hdigit
    exact Bool.false_ne_true hdigit.symm
  unfold intText
  split_ifs
  · rw [List.mem_cons, not_or]
    exact ⟨hminus, hdigits _⟩
  · exact hdigits _

theorem toDigits_ne_minus (m : Nat) (cs : List Char) : Nat.toDigits 10 m ≠ '-' :: cs := by
  intro h
  have hmem : '-' ∈ Nat.toDigits 10 m := by rw [h]; exact List.mem_cons_self ..
  exact absurd (toDigits_digit hmem) (by decide)

theorem intText_injective {m n : Int} (h : intText m = intText n) : m = n := by
  unfold intText at h
  split_ifs at h with hm hn hn
  · have habs := toDigits_injective (List.cons.inj h).2
    omega
  · exact absurd h.symm (toDigits_ne_minus _ _)
  · exact absurd h (toDigits_ne_minus _ _)
  · have habs := toDigits_injective h
    omega

theorem fractionText_finite (q : ℚ) :
    (fractionText (.finite q)).toList = intText q.num ++ fractionPart q.den :=
  String.toList_ofList

theorem fractionText_negZero : (fractionText .negZero).toList = ['-', '0'] := rfl

/-- A fraction is divided at its stroke. -/
theorem fraction_injective {m n : Int} {d e : Nat}
    (h : intText m ++ fractionPart d = intText n ++ fractionPart e) : m = n ∧ d = e := by
  have hstroke : ∀ k, '/' ∉ intText k := not_mem_intText (by decide) (by decide)
  unfold fractionPart at h
  split_ifs at h with hd he he
  · rw [List.append_nil, List.append_nil] at h
    exact ⟨intText_injective h, hd.trans he.symm⟩
  · rw [List.append_nil] at h
    exact absurd (h ▸ by simp) (hstroke m)
  · rw [List.append_nil] at h
    exact absurd (h ▸ by simp) (hstroke n)
  · rw [← List.append_assoc, ← List.append_assoc] at h
    obtain ⟨hint, hdigits⟩ := split_at_first (hstroke m) (hstroke n) h
    exact ⟨intText_injective hint, toDigits_injective hdigits⟩

/-- No number is written like the negative zero. -/
theorem fraction_ne_negZero (n : Int) (d : Nat) : intText n ++ fractionPart d ≠ ['-', '0'] := by
  intro h
  unfold intText at h
  split_ifs at h with hn
  · obtain ⟨c, cs, hdigits⟩ := List.exists_cons_of_ne_nil
      (Nat.toDigits_ne_nil (b := 10) (n := n.natAbs))
    have htail : c :: (cs ++ fractionPart d) = ['0'] := by
      rw [hdigits] at h
      exact (List.cons.inj h).2
    obtain ⟨rfl, hrest⟩ := List.cons.inj htail
    have hzero : Nat.toDigits 10 n.natAbs = Nat.toDigits 10 0 := by
      rw [hdigits, (List.append_eq_nil_iff.mp hrest).1]
      rfl
    have habs := toDigits_injective hzero
    omega
  · obtain ⟨c, cs, hdigits⟩ := List.exists_cons_of_ne_nil
      (Nat.toDigits_ne_nil (b := 10) (n := n.natAbs))
    rw [hdigits] at h
    exact toDigits_ne_minus n.natAbs cs (by rw [hdigits, (List.cons.inj h).1])

theorem fractionText_display : Display fractionText := by
  have hplain : ∀ c : Char, c.isDigit = false → c ≠ '-' → c ≠ '/' → ∀ x : F64,
      x.isFinite = true → c ∉ (fractionText x).toList := by
    intro c hdigit hminus hstroke x hx
    cases x with
    | nan => cases hx
    | infinite negative => cases hx
    | negZero =>
        have hzero : c ≠ '0' := by
          rintro rfl
          cases hdigit
        simp [fractionText_negZero, hminus, hzero]
    | finite q =>
        rw [fractionText_finite, List.mem_append, not_or]
        refine ⟨not_mem_intText hdigit hminus q.num, ?_⟩
        unfold fractionPart
        split_ifs
        · exact List.not_mem_nil
        · rw [List.mem_append, not_or, List.mem_singleton]
          refine ⟨hstroke, fun hmem => ?_⟩
          rw [toDigits_digit hmem] at hdigit
          cases hdigit
  refine ⟨?_, hplain ' ' (by decide) (by decide) (by decide),
    hplain '\n' (by decide) (by decide) (by decide)⟩
  intro x y hx hy h
  have hlist := congrArg String.toList h
  cases x with
  | nan => cases hx
  | infinite negative => cases hx
  | negZero =>
      cases y with
      | nan => cases hy
      | infinite negative => cases hy
      | negZero => rfl
      | finite q =>
          rw [fractionText_negZero, fractionText_finite] at hlist
          exact absurd hlist.symm (fraction_ne_negZero q.num q.den)
  | finite p =>
      cases y with
      | nan => cases hy
      | infinite negative => cases hy
      | negZero =>
          rw [fractionText_negZero, fractionText_finite] at hlist
          exact absurd hlist (fraction_ne_negZero p.num p.den)
      | finite q =>
          rw [fractionText_finite, fractionText_finite] at hlist
          obtain ⟨hnum, hden⟩ := fraction_injective hlist
          rw [Rat.ext hnum hden]

/-- A sample with every character that needs an escape, made twice with different values. -/
def quotedPoint (value : ℚ) : MetricPoint where
  name := "m"
  labels := [("a", "x\"\\\n")]
  value := .finite value
  timestampMs := ms 5
  finite := rfl
  positive := by decide

theorem quotedPoint_validated (value : ℚ) : (quotedPoint value).Validated := by
  refine ⟨"m", [("a", "x\"\\\n")], .finite value, ms 5, .gauge, ?_⟩
  have hname : validateMetricName "m" = .ok () := by rfl
  have hlabels : checkLabels [] [("a", "x\"\\\n")] = .ok () := by rfl
  have hsorted : validateLabels [("a", "x\"\\\n")] = .ok [("a", "x\"\\\n")] := by
    unfold validateLabels
    rw [hlabels, List.mergeSort_singleton]
    rfl
  exact MetricPoint.new_ok rfl (by decide) hname (by simp) hsorted

theorem quotedPoints_read : ∃ samples, IsText (IsNumeral fractionText) samples
    (encode fractionText [quotedPoint 1, quotedPoint 2]).toList ∧
    ∀ s, s ∈ samples ↔ s = ⟨"m", [("a", "x\"\\\n")], .finite 2, 5⟩ := by
  obtain ⟨⟨samples, htext, -, -, hmem⟩, -⟩ := encode_roundTrip fractionText_display
    [quotedPoint 1, quotedPoint 2] (by
      intro p hp
      simp only [List.mem_cons, List.not_mem_nil, or_false] at hp
      rcases hp with rfl | rfl <;> exact quotedPoint_validated _)
  refine ⟨samples, htext, ?_⟩
  -- both points have one key, and the second one is the last
  have hkey : (quotedPoint 1).key = (quotedPoint 2).key := rfl
  intro s
  rw [hmem]
  constructor
  · rintro ⟨p, hlast, rfl⟩
    rw [lastOf_cons_of_mem p.key (List.mem_singleton_self _) hkey] at hlast
    rw [List.mem_singleton.mp (lastOf_mem hlast).1]
    rfl
  · rintro rfl
    refine ⟨quotedPoint 2, ?_, rfl⟩
    rw [lastOf_cons_of_mem (quotedPoint 2).key (List.mem_singleton_self _) hkey]
    exact lastOf_cons_of_none (by simp)

end VeSmart.Metrics
