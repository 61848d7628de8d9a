import VeSmart.Client.Calls

set_option autoImplicit false

/-! # Sessions whose control writes are watched

The log of a life has the writes that succeed, and `unanswered` counts the control writes that do
not. What is said of the calls whose control writes all succeed is said under `Watch`: it is
promised as long as the count has not grown. -/

namespace VeSmart.Client

open VeSmart.Lib VeSmart.Bluez VeSmart.Protocol

/-- The life has `I`, if every control write has been answered with success since `failed` had not
been. -/
def Watch (failed : Nat) (I : Life → Prop) (l : Life) : Prop :=
  failed ≤ l.unanswered ∧ (l.unanswered = failed → I l)

/-- The count of the control writes without success does not fall. -/
def Rises {α : Type} (x : Call α) : Prop :=
  ∀ n, Triple (fun l => n ≤ l.unanswered) x (fun _ l => n ≤ l.unanswered)
    (fun _ l => n ≤ l.unanswered)

section

variable {α : Type} {I J : Life → Prop} {failed : Nat}

theorem Watch.start {l : Life} (h : I l) : Watch l.unanswered I l := ⟨le_rfl, fun _ => h⟩

theorem Watch.mono (hIJ : ∀ l, I l → J l) {l : Life} (h : Watch failed I l) : Watch failed J l :=
  ⟨h.1, fun hall => hIJ _ (h.2 hall)⟩

/-- A step that refuses nothing. -/
theorem Watch.step {l l' : Life} (h : Watch failed I l) (hsame : l'.unanswered = l.unanswered)
    (hstep : I l → J l') : Watch failed J l' :=
  ⟨hsame ▸ h.1, fun hall => hstep (h.2 (hsame ▸ hall))⟩

theorem KeptAwaiting.watch (h : KeptAwaiting I) : KeptAwaiting (Watch failed I) where
  arrives l n es hs hl := hl.step rfl (h.arrives l n es hs)
  occurs l e es hs he hl := hl.step rfl (h.occurs l e es hs he)
  refuses l hl := by
    refine ⟨Nat.le_succ_of_le hl.1, fun hall => ?_⟩
    have hle := hl.1
    have hgrown : l.unanswered + 1 = failed := hall
    omega

theorem KeptBuffers.watch (h : KeptBuffers I) : KeptBuffers (Watch failed I) where
  toKeptAwaiting := h.toKeptAwaiting.watch
  buffers l p hl := hl.step rfl (h.buffers l p)

theorem kept_rises (n : Nat) : KeptAwaiting fun l => n ≤ l.unanswered where
  arrives _ _ _ _ h := h
  occurs _ _ _ _ _ h := h
  refuses _ h := Nat.le_succ_of_le h

/-- What a call does, it does under watch. -/
theorem Rises.watch {x : Call α} (hrises : Rises x) {P : Life → Prop} {Q : α → Life → Prop}
    {E : Halt → Life → Prop} (h : Triple P x Q E) :
    Triple (Watch failed P) x (fun a => Watch failed (Q a)) (fun e => Watch failed (E e)) := by
  intro l hl
  have hgrows := hrises l.unanswered l le_rfl
  rcases hx : exec x l with ⟨e | a, l'⟩
  · rw [hx] at hgrows
    have hgrows : l.unanswered ≤ l'.unanswered := hgrows
    exact ⟨hl.1.trans hgrows, fun hall => h.error (hl.2 (le_antisymm (hall ▸ hgrows) hl.1)) hx⟩
  · rw [hx] at hgrows
    have hgrows : l.unanswered ≤ l'.unanswered := hgrows
    exact ⟨hl.1.trans hgrows, fun hall => h.ok (hl.2 (le_antisymm (hall ▸ hgrows) hl.1)) hx⟩

theorem watch_session {f : VeSmartBleSession → VeSmartBleSession} {E : Halt → Life → Prop}
    (h : ∀ l, I l → J { l with session := f l.session }) :
    Triple (Watch failed I) (setSession f) (fun _ => Watch failed J) E :=
  Triple.modifyState fun l hl => hl.step rfl (h l)

/-- The rule of a control write: unless it succeeds, nothing is promised any more. -/
theorem writeControl_rule (h : KeptAwaiting I) {bytes : List UInt8}
    (hwrote : ∀ l, I l → J { l with log := l.log ++ [.wrote .control bytes] }) :
    Triple (Watch failed I) (write .control bytes)
      (fun r => Watch failed fun l => r = .ok () ∧ J l)
      (fun _ => Watch failed fun _ => False) := by
  have hrefuse : ∀ {K : Life → Prop} {E : Halt → Life → Prop}, Triple (Watch failed I)
      (refuse .control) (fun _ => Watch failed K) E := by
    intro K E
    refine Triple.modifyState fun l hl => ⟨Nat.le_succ_of_le hl.1, fun hall => ?_⟩
    have hle := hl.1
    have hgrown : l.unanswered + 1 = failed := hall
    omega
  refine Triple.bind h.watch.awaitOpen.attempt fun r => ?_
  rcases r with halt | e | bs
  · exact Triple.bind hrefuse fun _ => Triple.throw fun _ hl => hl
  · exact Triple.bind hrefuse fun _ => Triple.pure fun _ hl => hl
  · refine Triple.bind (Q := fun _ => Watch failed J) ?_ fun _ =>
      Triple.pure fun _ hl => hl.mono fun _ hJ => ⟨rfl, hJ⟩
    exact Triple.modifyState fun l hl => hl.step rfl (hwrote l)

theorem writeControlOrFail_rule (h : KeptAwaiting I) {bytes : List UInt8}
    (hwrote : ∀ l, I l → J { l with log := l.log ++ [.wrote .control bytes] }) :
    Triple (Watch failed I) (do orFail (← write .control bytes)) (fun _ => Watch failed J)
      (fun _ => Watch failed fun _ => False) := by
  refine Triple.bind (writeControl_rule h hwrote) fun r => ?_
  cases r with
  | ok u => exact Triple.pure fun l hl => hl.mono fun _ hJ => hJ.2
  | error e =>
      refine Triple.throw fun l hl => hl.mono fun _ hJ => ?_
      cases hJ.1

end

/-- Every control write of the call succeeds. -/
def ControlWritesSucceed
    (decodeStream : List UInt8 → Except Protocol.ProtocolError (List Item)) (c : SessionCall)
    (l : Life) : Prop :=
  (exec (perform decodeStream c) l).2.unanswered = l.unanswered

instance (decodeStream : List UInt8 → Except Protocol.ProtocolError (List Item))
    (c : SessionCall) (l : Life) : Decidable (ControlWritesSucceed decodeStream c l) :=
  inferInstanceAs (Decidable (_ = _))

end VeSmart.Client
