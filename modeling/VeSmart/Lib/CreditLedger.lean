import Mathlib.Tactic

set_option autoImplicit false

/-! # Credit ledgers

A receiver that has given a sender credit counts the chunks it consumes. As soon as it owes
credit for `threshold` chunks, it gives the credit for all of them back; until then it does
anything else it likes. `Ledger threshold moves owed` says that a history follows this rule. -/

namespace VeSmart.Lib

inductive CreditMove where
  | consumed
  | granted (n : Nat)
  | other
  deriving DecidableEq

def CreditMove.chunks : CreditMove → Nat
  | .consumed => 1
  | .granted _ => 0
  | .other => 0

def CreditMove.credit : CreditMove → Nat
  | .consumed => 0
  | .granted n => n
  | .other => 0

def chunksConsumed (moves : List CreditMove) : Nat := (moves.map CreditMove.chunks).sum

def creditGranted (moves : List CreditMove) : Nat := (moves.map CreditMove.credit).sum

/-- What is owed after a move, if the rule allows it: at the threshold only the credit for all
that is owed. -/
def CreditMove.settle (threshold owed : Nat) : CreditMove → Option Nat
  | .consumed => if owed < threshold then some (owed + 1) else none
  | .granted n => if owed = threshold ∧ n = threshold then some 0 else none
  | .other => if owed < threshold then some owed else none

/-- The history follows the rule, and `owed` chunks have not been credited yet. -/
def Ledger (threshold : Nat) (moves : List CreditMove) (owed : Nat) : Prop :=
  moves.foldlM (CreditMove.settle threshold) 0 = some owed

section

variable {threshold owed owed' : Nat} {moves rest : List CreditMove} {m : CreditMove}

@[simp] theorem chunksConsumed_nil : chunksConsumed [] = 0 := rfl

@[simp] theorem creditGranted_nil : creditGranted [] = 0 := rfl

@[simp] theorem chunksConsumed_cons :
    chunksConsumed (m :: moves) = m.chunks + chunksConsumed moves := by
  simp [chunksConsumed]

@[simp] theorem creditGranted_cons :
    creditGranted (m :: moves) = m.credit + creditGranted moves := by
  simp [creditGranted]

@[simp] theorem chunksConsumed_append :
    chunksConsumed (moves ++ rest) = chunksConsumed moves + chunksConsumed rest := by
  simp [chunksConsumed]

@[simp] theorem creditGranted_append :
    creditGranted (moves ++ rest) = creditGranted moves + creditGranted rest := by
  simp [creditGranted]

theorem CreditMove.settle_consumed (h : owed < threshold) :
    CreditMove.consumed.settle threshold owed = some (owed + 1) := if_pos h

theorem CreditMove.settle_other (h : owed < threshold) :
    CreditMove.other.settle threshold owed = some owed := if_pos h

theorem CreditMove.settle_granted :
    (CreditMove.granted threshold).settle threshold threshold = some 0 := if_pos ⟨rfl, rfl⟩

/-- A move keeps the balance. -/
theorem CreditMove.settle_balance (h : m.settle threshold owed = some owed') :
    owed + m.chunks = m.credit + owed' ∧ owed' ≤ threshold := by
  cases m with
  | consumed =>
      simp only [CreditMove.settle, Option.ite_none_right_eq_some, Option.some.injEq] at h
      simp only [CreditMove.chunks, CreditMove.credit]
      omega
  | granted n =>
      simp only [CreditMove.settle, Option.ite_none_right_eq_some, Option.some.injEq] at h
      simp only [CreditMove.chunks, CreditMove.credit]
      omega
  | other =>
      simp only [CreditMove.settle, Option.ite_none_right_eq_some, Option.some.injEq] at h
      simp only [CreditMove.chunks, CreditMove.credit]
      omega

/-- Moves from any balance: what was owed and what is consumed is granted or still owed. -/
theorem settle_moves (h : moves.foldlM (CreditMove.settle threshold) owed = some owed')
    (howed : owed ≤ threshold) :
    owed + chunksConsumed moves = creditGranted moves + owed' ∧ owed' ≤ threshold := by
  induction moves generalizing owed with
  | nil =>
      have hsame : owed = owed' := Option.some.inj h
      simp only [chunksConsumed_nil, creditGranted_nil]
      omega
  | cons m moves ih =>
      obtain ⟨next, hfirst, hrest⟩ := Option.bind_eq_some_iff.mp h
      have hmove := CreditMove.settle_balance hfirst
      have hmoves := ih hrest hmove.2
      simp only [chunksConsumed_cons, creditGranted_cons]
      omega

theorem Ledger.nil : Ledger threshold [] 0 := rfl

/-- A ledger goes on by an allowed move. -/
theorem Ledger.move (h : Ledger threshold moves owed)
    (hm : m.settle threshold owed = some owed') : Ledger threshold (moves ++ [m]) owed' := by
  simp only [Ledger] at h ⊢
  simp [List.foldlM_append, h, hm]

/-- What is consumed is granted or owed, and no more than the threshold is owed. -/
theorem Ledger.balance (h : Ledger threshold moves owed) :
    chunksConsumed moves = creditGranted moves + owed ∧ owed ≤ threshold := by
  have hmoves := settle_moves h (Nat.zero_le _)
  omega

/-- A ledger up to one of its moves, and what is owed before and after it. -/
theorem Ledger.cut (h : Ledger threshold (moves ++ m :: rest) owed) :
    ∃ before after, Ledger threshold moves before ∧ m.settle threshold before = some after := by
  simp only [Ledger, List.foldlM_append] at h
  obtain ⟨before, hbefore, hmove⟩ := Option.bind_eq_some_iff.mp h
  obtain ⟨after, hafter, -⟩ := Option.bind_eq_some_iff.mp hmove
  exact ⟨before, after, hbefore, hafter⟩

/-- At every point of a ledger less than the threshold is owed, or exactly the threshold, and
the next move credits it. -/
theorem Ledger.settled (h : Ledger threshold (moves ++ m :: rest) owed) :
    (creditGranted moves ≤ chunksConsumed moves ∧
        chunksConsumed moves < creditGranted moves + threshold) ∨
      (chunksConsumed moves = creditGranted moves + threshold ∧ m = .granted threshold) := by
  obtain ⟨before, after, hbefore, hmove⟩ := h.cut
  have hbalance := hbefore.balance
  cases m with
  | consumed =>
      simp only [CreditMove.settle, Option.ite_none_right_eq_some] at hmove
      left
      omega
  | other =>
      simp only [CreditMove.settle, Option.ite_none_right_eq_some] at hmove
      left
      omega
  | granted n =>
      -- credit is given at the threshold only
      simp only [CreditMove.settle, Option.ite_none_right_eq_some] at hmove
      obtain ⟨⟨hfull, rfl⟩, -⟩ := hmove
      right
      exact ⟨by omega, rfl⟩

end

end VeSmart.Lib
