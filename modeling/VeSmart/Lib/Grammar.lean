import Mathlib.Tactic

set_option autoImplicit false

/-! # Grammars that are read in one way

A grammar relates values to texts. It is `Exact` if of every text at most one beginning is in it,
and that beginning has one meaning: then what follows never changes how a text is read, and a
sequence of exact parts is read part by part. -/

namespace VeSmart.Lib

section

variable {α β : Type} {G : α → List β → Prop} {x y : α} {s t u v : List β}

def Exact (G : α → List β → Prop) : Prop :=
  ∀ x y s u t v, G x s → G y u → s ++ t = u ++ v → x = y ∧ s = u

/-- The first part of a text, and what it leaves. -/
theorem Exact.split (h : Exact G) (hx : G x s) (hy : G y u) (heq : s ++ t = u ++ v) :
    x = y ∧ s = u ∧ t = v := by
  obtain ⟨hxy, rfl⟩ := h x y s u t v hx hy heq
  exact ⟨hxy, rfl, List.append_cancel_left heq⟩

/-- A whole text has one meaning. -/
theorem Exact.meaning (h : Exact G) (hx : G x s) (hy : G y s) : x = y :=
  (h.split (t := []) (v := []) hx hy rfl).1

/-! ## Up to a stop -/

/-- Symbols of a class, and the stop behind them. -/
def UpTo (p : β → Prop) (stop : β) (xs s : List β) : Prop := (∀ b ∈ xs, p b) ∧ s = xs ++ [stop]

theorem Exact.upTo {p : β → Prop} {stop : β} (h : ¬ p stop) : Exact (UpTo p stop) := by
  intro xs ys s u t v hx hy
  obtain ⟨hxs, rfl⟩ := hx
  obtain ⟨hys, rfl⟩ := hy
  induction xs generalizing ys with
  | nil =>
      cases ys with
      | nil => intro _; exact ⟨rfl, rfl⟩
      | cons b ys =>
          intro heq
          have hb : stop = b := (List.cons.inj heq).1
          subst hb
          exact absurd (hys stop (List.mem_cons_self ..)) h
  | cons a xs ih =>
      cases ys with
      | nil =>
          intro heq
          have ha : a = stop := (List.cons.inj heq).1
          subst ha
          exact absurd (hxs a (List.mem_cons_self ..)) h
      | cons b ys =>
          intro heq
          obtain ⟨rfl, htail⟩ := List.cons.inj heq
          obtain ⟨rfl, -⟩ := ih ys (fun b hb => hxs b (List.mem_cons_of_mem _ hb))
            (fun b hb => hys b (List.mem_cons_of_mem _ hb)) htail
          exact ⟨rfl, rfl⟩

/-- A stop that is not of the class is where the text is divided. -/
theorem split_at_stop {p : β → Bool} {stop : β} (h : p stop = false) {xs ys : List β}
    (hx : ∀ b ∈ xs, p b = true) (hy : ∀ b ∈ ys, p b = true)
    (heq : xs ++ [stop] ++ t = ys ++ [stop] ++ v) : xs = ys ∧ t = v := by
  have hexact : Exact (UpTo (fun b => p b = true) stop) := Exact.upTo (by rw [h]; decide)
  obtain ⟨hxy, -, htv⟩ := hexact.split ⟨hx, rfl⟩ ⟨hy, rfl⟩ heq
  exact ⟨hxy, htv⟩

/-- A text is divided at the first stop. -/
theorem split_at_first {stop : β} {xs ys : List β} (hx : stop ∉ xs) (hy : stop ∉ ys)
    (heq : xs ++ [stop] ++ t = ys ++ [stop] ++ v) : xs = ys ∧ t = v := by
  have hexact : Exact (UpTo (fun b => b ≠ stop) stop) := Exact.upTo (by simp)
  have hne : ∀ zs : List β, stop ∉ zs → UpTo (fun b => b ≠ stop) stop zs (zs ++ [stop]) :=
    fun zs hzs => ⟨fun b hb hstop => hzs (hstop ▸ hb), rfl⟩
  obtain ⟨hxy, -, htv⟩ := hexact.split (hne xs hx) (hne ys hy) heq
  exact ⟨hxy, htv⟩

/-- A text behind which the first stop is. -/
def Terminated (stop : β) (G : α → List β → Prop) (x : α) (s : List β) : Prop :=
  ∃ u, G x u ∧ stop ∉ u ∧ s = u ++ [stop]

/-- Terminated texts are told apart by their stops, so each of them only needs one meaning. -/
theorem Exact.terminated {stop : β} (h : ∀ x y s, G x s → G y s → x = y) :
    Exact (Terminated stop G) := by
  intro x y s u t v hx hy heq
  obtain ⟨s, hx, hs, rfl⟩ := hx
  obtain ⟨u, hy, hu, rfl⟩ := hy
  obtain ⟨rfl, -⟩ := split_at_first hs hu heq
  exact ⟨h x y s hx hy, rfl⟩

/-! ## Repetition -/

/-- A row of texts. -/
inductive Many (G : α → List β → Prop) : List α → List β → Prop
  | nil : Many G [] []
  | cons {x : α} {xs : List α} {s t : List β} (h : G x s) (hrest : Many G xs t) :
      Many G (x :: xs) (s ++ t)

theorem Many.flatMap {text : α → List β} {xs : List α} (h : ∀ x ∈ xs, G x (text x)) :
    Many G xs (xs.flatMap text) := by
  induction xs with
  | nil => exact .nil
  | cons x xs ih =>
      rw [List.flatMap_cons]
      exact .cons (h x (List.mem_cons_self ..)) (ih fun x hx => h x (List.mem_cons_of_mem _ hx))

/-- No text of the grammar starts like `close`. -/
def Avoids (G : α → List β → Prop) (close : List β) : Prop :=
  ∀ x s t v, G x s → s ++ t ≠ close ++ v

/-- A row that is closed by something else than its texts. -/
theorem Many.split (hG : Exact G) {close : List β} (hclose : Avoids G close) {xs ys : List α}
    (hx : Many G xs s) (hy : Many G ys u) (heq : s ++ (close ++ t) = u ++ (close ++ v)) :
    xs = ys ∧ s = u ∧ t = v := by
  induction hx generalizing ys u with
  | nil =>
      cases hy with
      | nil => exact ⟨rfl, rfl, List.append_cancel_left heq⟩
      | cons h hrest =>
          rw [List.nil_append, List.append_assoc] at heq
          exact absurd heq.symm (hclose _ _ _ _ h)
  | cons h hrest ih =>
      cases hy with
      | nil =>
          rw [List.nil_append, List.append_assoc] at heq
          exact absurd heq (hclose _ _ _ _ h)
      | cons h' hrest' =>
          rw [List.append_assoc, List.append_assoc] at heq
          obtain ⟨rfl, rfl, htail⟩ := hG.split h h' heq
          obtain ⟨rfl, rfl, hend⟩ := ih hrest' htail
          exact ⟨rfl, rfl, hend⟩

/-- A row that is the whole text, of texts that are not empty. -/
theorem Many.meaning (hG : Exact G) (hne : ∀ x s, G x s → s ≠ []) {xs ys : List α}
    (hx : Many G xs s) (hy : Many G ys s) : xs = ys := by
  induction hx generalizing ys with
  | nil =>
      generalize hs : ([] : List β) = s at hy
      cases hy with
      | nil => rfl
      | cons h hrest => exact absurd (List.append_eq_nil_iff.mp hs.symm).1 (hne _ _ h)
  | @cons x xs s t h hrest ih =>
      generalize hs : s ++ t = u at hy
      cases hy with
      | nil => exact absurd (List.append_eq_nil_iff.mp hs).1 (hne _ _ h)
      | cons h' hrest' =>
          obtain ⟨rfl, rfl, rfl⟩ := hG.split h h' hs
          rw [ih hrest']

/-! ## Rows with separators -/

/-- A text behind a separator. -/
def After (sep : List β) (G : α → List β → Prop) (x : α) (s : List β) : Prop :=
  ∃ u, G x u ∧ s = sep ++ u

/-- A row of texts with a separator between any two of them. -/
inductive SepBy (sep : List β) (G : α → List β → Prop) : List α → List β → Prop
  | nil : SepBy sep G [] []
  | cons {x : α} {xs : List α} {s t : List β} (h : G x s) (hrest : Many (After sep G) xs t) :
      SepBy sep G (x :: xs) (s ++ t)

theorem Exact.after (hG : Exact G) (sep : List β) : Exact (After sep G) := by
  intro x y s u t v hx hy heq
  obtain ⟨s, hx, rfl⟩ := hx
  obtain ⟨u, hy, rfl⟩ := hy
  rw [List.append_assoc, List.append_assoc] at heq
  obtain ⟨rfl, rfl⟩ := hG _ _ _ _ _ _ hx hy (List.append_cancel_left heq)
  exact ⟨rfl, rfl⟩

theorem SepBy.split (hG : Exact G) {sep close : List β} (hclose : Avoids G close)
    (hsep : Avoids (After sep G) close) {xs ys : List α} (hx : SepBy sep G xs s)
    (hy : SepBy sep G ys u) (heq : s ++ (close ++ t) = u ++ (close ++ v)) :
    xs = ys ∧ s = u ∧ t = v := by
  cases hx with
  | nil =>
      cases hy with
      | nil => exact ⟨rfl, rfl, List.append_cancel_left heq⟩
      | cons h hrest =>
          rw [List.nil_append, List.append_assoc] at heq
          exact absurd heq.symm (hclose _ _ _ _ h)
  | cons h hrest =>
      cases hy with
      | nil =>
          rw [List.nil_append, List.append_assoc] at heq
          exact absurd heq (hclose _ _ _ _ h)
      | cons h' hrest' =>
          rw [List.append_assoc, List.append_assoc] at heq
          obtain ⟨rfl, rfl, htail⟩ := hG.split h h' heq
          obtain ⟨rfl, rfl, hend⟩ := Many.split (hG.after sep) hsep hrest hrest' htail
          exact ⟨rfl, rfl, hend⟩

theorem intercalate_map_cons (text : α → List β) (sep : List β) (x : α) (xs : List α) :
    sep.intercalate ((x :: xs).map text) = text x ++ xs.flatMap fun y => sep ++ text y := by
  induction xs generalizing x with
  | nil => simp
  | cons y ys ih =>
      rw [List.map_cons, List.map_cons, List.intercalate_cons_cons, ← List.map_cons, ih y,
        List.flatMap_cons]
      simp only [List.append_assoc]

theorem not_mem_intercalate {sep : List β} {xs : List (List β)} {b : β} (hsep : b ∉ sep)
    (h : ∀ x ∈ xs, b ∉ x) : b ∉ sep.intercalate xs := by
  cases xs with
  | nil => exact List.not_mem_nil
  | cons x xs =>
      have hcons := intercalate_map_cons id sep x xs
      rw [List.map_id] at hcons
      rw [hcons, List.mem_append, not_or]
      refine ⟨h x (List.mem_cons_self ..), ?_⟩
      simp only [List.mem_flatMap, List.mem_append, id_eq, not_exists, not_and, not_or]
      exact fun y hy => ⟨hsep, h y (List.mem_cons_of_mem _ hy)⟩

theorem SepBy.intercalate {text : α → List β} {sep : List β} {xs : List α}
    (h : ∀ x ∈ xs, G x (text x)) : SepBy sep G xs (sep.intercalate (xs.map text)) := by
  cases xs with
  | nil => exact .nil
  | cons x xs =>
      have hrest : Many (After sep G) xs (xs.flatMap fun y => sep ++ text y) :=
        Many.flatMap fun y hy => ⟨text y, h y (List.mem_cons_of_mem _ hy), rfl⟩
      rw [intercalate_map_cons]
      exact .cons (h x (List.mem_cons_self ..)) hrest

end

end VeSmart.Lib
