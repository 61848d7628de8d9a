import VeSmart.Client.Credit

set_option autoImplicit false

/-! # The window over whole runs

`window_kept` is the induction over the calls of a session: the books of `Accounts` hold between
any two of them, and the window is read off the ledger. -/

namespace VeSmart.Client

open VeSmart.Lib VeSmart.Bluez VeSmart.Protocol

/-- A life, and where the log of the current link starts. -/
structure LinkedLife where
  life : Life
  linkStart : Nat

/-- What the transport has done on the current link. -/
def LinkedLife.link (r : LinkedLife) : List Entry := r.life.log.drop r.linkStart

def LinkedLife.initial : LinkedLife := ⟨.initial, 0⟩

/-- Where the link starts after an action: a `discover` that opens the transport starts one. -/
def LinkedLife.startAfter (r : LinkedLife) (l : Life) : Action → Nat
  | .call .discover _ =>
      if r.life.session.transport.state.isOpen = false ∧ l.session.transport.state.isOpen = true
      then l.log.length
      else r.linkStart
  | _ => r.linkStart

section

variable (decodeStream : List UInt8 → Except Protocol.ProtocolError (List Item))

def LinkedLife.step (r : LinkedLife) (a : Action) : Option LinkedLife :=
  (Client.step decodeStream r.life a).map fun l => ⟨l, r.startAfter l a⟩

/-- The control writes of every call succeed, and every negotiation grants 0x80 credits. -/
def CreditGiven (r : LinkedLife) : Action → Prop
  | .call c script => ControlWritesSucceed decodeStream c (r.life.facing script) ∧
      ∀ frames, c = .negotiate frames → Grants frames
  | .idle _ => True

/-- What a link must satisfy once the session has negotiated. -/
structure WindowKept (r : LinkedLife) : Prop where
  /-- The window of the device, wherever a call waits. -/
  window : r.life.session.negotiated = true → 0x40 ≤ window r.link ∧ window r.link ≤ 0x80
  /-- Nothing is credited twice, and no more than 0x40 chunks wait for credit; so it is at every
  point since the opening grant, but between the 0x41st chunk and its credit. -/
  credited : r.life.session.negotiated = true → ∃ opening rest, r.link = opening ++ rest ∧
    granted opening = 0x80 ∧ consumed opening = 0 ∧
    granted rest ≤ consumed rest ∧ consumed rest ≤ granted rest + 0x40 ∧
    ∀ p e q, rest = p ++ e :: q → granted p ≤ consumed p ∧ (consumed p ≤ granted p + 0x40 ∨
      consumed p = granted p + 0x41 ∧ e.move = .granted 0x41)
  /-- Before the negotiation of a link nothing is granted or consumed on it. -/
  unused : r.life.session.negotiated = false → r.life.session.transport.state.isOpen = true →
    granted r.link = 0 ∧ consumed r.link = 0
  messages : CreditMessages r.life.log

variable {decodeStream} {r r' : LinkedLife}

theorem accounts_initial : Accounts 0 LinkedLife.initial.life := by
  left
  refine ⟨⟨⟨Nat.le_refl _, fun bytes hmem => ?_⟩, rfl, rfl, rfl⟩, fun _ => ⟨rfl, rfl⟩⟩
  cases hmem

theorem accounts_facing {start : Nat} {l : Life} (h : Accounts start l) (script : List Event) :
    Accounts start (l.facing script) := by
  rcases h with h | h
  · exact Or.inl ⟨h.toUnnegotiated.congr rfl rfl rfl rfl, h.unused⟩
  · exact Or.inr (h.congr rfl rfl rfl rfl)

theorem accounts_arrive {start : Nat} {l : Life} (h : Accounts start l) (n : Notification) :
    Accounts start (l.arrive n) := by
  rcases h with h | h
  · exact Or.inl ⟨h.toUnnegotiated.congr rfl rfl rfl rfl, h.unused⟩
  · exact Or.inr (h.congr rfl rfl rfl rfl)

theorem accounts_idle {start : Nat} {l : Life} (h : Accounts start l)
    (sends : List Notification) : Accounts start (sends.foldl Life.arrive l) := by
  induction sends generalizing l with
  | nil => exact h
  | cons n sends ih => exact ih (accounts_arrive h n)

/-- A `discover` opens a link with nothing on it, or leaves the link as it is. -/
theorem discover_accounts {l : Life} (h : Accounts r.linkStart l)
    (hsame : l.session.transport.state.isOpen = r.life.session.transport.state.isOpen)
    (script : List Event) :
    let l' := (exec (perform decodeStream .discover) l).2
    Accounts (r.startAfter l' (.call .discover script)) l' := by
  intro l'
  have hperform : l' = (exec discover l).2 := exec_then_pure discover (fun _ => none) l
  by_cases hopen : l.session.transport.state.isOpen = true
  · -- there is a link already
    have hkept : l' = { l with session := { l.session with opened := true } } := by
      rw [hperform, discover_open hopen]
    have hstart : r.startAfter l' (.call .discover script) = r.linkStart := by
      rw [LinkedLife.startAfter, if_neg (by simp [← hsame, hopen])]
    rw [hstart, hkept]
    rcases h with h | h
    · exact Or.inl ⟨h.toUnnegotiated.congr rfl rfl rfl rfl, h.unused⟩
    · exact Or.inr (h.congr rfl rfl rfl rfl)
  · have hshut : Unnegotiated r.linkStart l := by
      rcases h with h | h
      · exact h.toUnnegotiated
      · exact absurd h.isOpen hopen
    have hafter : Unnegotiated r.linkStart l' := by
      rw [hperform]
      exact kept_after discover_unnegotiated hshut
    by_cases hopened : l'.session.transport.state.isOpen = true
    · -- the link starts here
      have hstart : r.startAfter l' (.call .discover script) = l'.log.length := by
        rw [LinkedLife.startAfter, if_pos ⟨by simpa [← hsame] using hopen, hopened⟩]
      rw [hstart]
      refine Or.inl ⟨⟨⟨Nat.le_refl _, hafter.messages⟩, hafter.negotiated, hafter.subscribed,
        hafter.counted⟩, fun _ => ?_⟩
      rw [List.drop_length]
      exact ⟨rfl, rfl⟩
    · have hstart : r.startAfter l' (.call .discover script) = r.linkStart := by
        rw [LinkedLife.startAfter, if_neg fun hboth => hopened hboth.2]
      rw [hstart]
      exact Or.inl ⟨hafter, fun h => absurd h hopened⟩

/-- The step of a run: the books hold after every allowed action. -/
theorem accounts_step {a : Action} (h : Accounts r.linkStart r.life)
    (hgiven : CreditGiven decodeStream r a) (hstep : r.step decodeStream a = some r') :
    Accounts r'.linkStart r'.life := by
  cases a with
  | idle sends =>
      cases hstep
      exact accounts_idle h sends
  | call c script =>
      cases hstep
      have hfacing := accounts_facing h script
      by_cases hdiscover : c = .discover
      · subst hdiscover
        exact discover_accounts hfacing rfl script
      · have hstart : ∀ l, r.startAfter l (.call c script) = r.linkStart := by
          intro l
          cases c with
          | discover => exact absurd rfl hdiscover
          | _ => rfl
        show Accounts (r.startAfter _ (.call c script)) (exec (perform decodeStream c) _).2
        rw [hstart]
        obtain ⟨hwrites, hframes⟩ := hgiven
        have hwatched := kept_after (perform_accounts decodeStream hdiscover hframes)
          (Watch.start hfacing)
        exact hwatched.2 hwrites

/-- The books say that the window is kept. -/
theorem Accounts.windowKept (h : Accounts r.linkStart r.life) : WindowKept r := by
  rcases h with h | h
  · have hnot : r.life.session.negotiated ≠ true := by simp [h.negotiated]
    exact ⟨fun hn => absurd hn hnot, fun hn => absurd hn hnot, fun _ => h.unused, h.messages⟩
  · obtain ⟨opening, rest, hlink, hgranted, hconsumed, hledger⟩ := h.ledger
    have hbalance := hledger.balance
    have hcounted := h.counted
    have hrest : consumed rest = granted rest +
        r.life.session.receiveCredit.pendingChunks.toNat := hbalance.1
    have hlink' : r.link = opening ++ rest := hlink
    refine ⟨fun _ => ?_, fun _ => ?_, fun hn => ?_, h.messages⟩
    · rw [hlink', window_append]
      simp only [window]
      omega
    · refine ⟨opening, rest, hlink', hgranted, hconsumed, by omega, by omega, ?_⟩
      rintro p e q rfl
      have hmoves : moves (p ++ e :: q) = moves p ++ e.move :: moves q := by simp [moves]
      rw [hmoves] at hledger
      have hpoint : (granted p ≤ consumed p ∧ consumed p < granted p + 0x41) ∨
          (consumed p = granted p + 0x41 ∧ e.move = .granted 0x41) := hledger.settled
      rcases hpoint with hbelow | ⟨hfull, hgrant⟩
      · exact ⟨hbelow.1, Or.inl (by omega)⟩
      · exact ⟨by omega, Or.inr ⟨hfull, hgrant⟩⟩
    · rw [h.negotiated] at hn
      cases hn

end

/-- **The receive-credit window**: in every run whose control writes succeed and whose
negotiations grant 0x80 credits, the device may always send between 0x40 and 0x80 chunks, every
chunk is credited once, and every credit message is well formed. -/
theorem window_kept (decodeStream : List UInt8 → Except Protocol.ProtocolError (List Item))
    {r : LinkedLife}
    (h : Reaches (LinkedLife.step decodeStream) (CreditGiven decodeStream) .initial r) :
    WindowKept r := by
  have haccounts : Accounts r.linkStart r.life :=
    h.invariant accounts_initial fun _ _ _ hr hgiven hstep => accounts_step hr hgiven hstep
  exact haccounts.windowKept

/-! ## A window used up to its threshold -/

/-- A link is opened and negotiated; then the device sends 0x41 chunks, and a `subscribe` call
drains them. -/
def usedUp : List Action :=
  [.call .discover [.reply (.ok [])],
    .call (.negotiate [[0xfa, 0x80, 0xff], [0xf9, 0x80]])
      [.reply (.ok [0x00, 0x04, 0x00, 0x01, 0xde, 0x4a, 0x00]), .reply (.ok []), .reply (.ok [])],
    .idle (List.replicate 0x41 ⟨.data, [0]⟩),
    .call (.subscribe 4 [0x03, 0x04])
      (.reply (.ok []) :: List.replicate 0x41 (.take .data) ++ [.reply (.ok []), .elapsed])]

/-- All of them are credited, and the window is full again. -/
theorem usedUp_kept : ∃ r, runActions (LinkedLife.step fun _ => .ok []) .initial usedUp = some r ∧
    consumed r.link = 0x41 ∧ granted r.link = 0xc1 ∧ WindowKept r := by
  refine ⟨_, rfl, by decide +kernel, by decide +kernel, window_kept (fun _ => .ok []) ?_⟩
  refine Reaches.of_allowed ?_ (show runActions _ _ usedUp = _ from rfl)
  refine ⟨⟨by decide +kernel, by simp⟩, fun r₁ h₁ => ⟨⟨?_, fun frames h => ?_⟩, fun r₂ h₂ =>
    ⟨trivial, fun r₃ h₃ => ⟨⟨?_, by simp⟩, fun _ _ => trivial⟩⟩⟩⟩
  · cases h₁
    decide +kernel
  · cases h
    decide
  · cases h₁
    cases h₂
    cases h₃
    decide +kernel

end VeSmart.Client
