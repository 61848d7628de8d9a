import VeSmart.Client.Correlation

set_option autoImplicit false

/-! # The answers are fresh

A cycle subscribes and then requests. What the device has sent before the subscribe call began
is stale. The drain of the subscribe call takes such a backlog, but it keeps the last correlated
payload of it as the fallback, and it may end at its budget before the backlog does.
`answers_fresh` says what must hold where the drains end for every answer to be fresh. -/

namespace VeSmart.Client

open VeSmart.Lib VeSmart.Bluez VeSmart.Protocol

/-- A session in its cycle: `began` is how many notifications had been sent when the subscribe
call of the cycle began, once that call has returned. -/
structure CycleLife where
  life : Life
  began : Option Nat

def CycleLife.initial : CycleLife := ⟨.initial, none⟩

section

variable (decodeStream : List UInt8 → Except Protocol.ProtocolError (List Item))

/-- A request belongs to the subscribe call right before it. -/
def beganAfter (s : CycleLife) : Action → Option Nat
  | .call (.subscribe instanceId payload) script =>
      match (exec (subscribe decodeStream instanceId payload) (s.life.facing script)).1 with
      | .ok () => some s.life.sent
      | .error _ => none
  | .call _ _ => none
  | .idle _ => s.began

def CycleLife.step (s : CycleLife) (a : Action) : Option CycleLife :=
  (Client.step decodeStream s.life a).map fun life => ⟨life, beganAfter decodeStream s a⟩

/-- Nothing stale is left to answer with: every last-data notification still queued and the
fallback were sent after the first `b` notifications. -/
structure Drained (b : Nat) (l : Life) : Prop where
  queued : ∀ q, l.session.transport.streams = some q → ∀ source, ∀ d ∈ q source,
    d.notification.source = .lastData → b ≤ d.sent
  fallback : ∀ c, l.session.fallbackValues = some c → b ≤ c.sent

/-- Every subscribe call of a run that returns has drained what was sent before it began. -/
def DrainsAll : CycleLife → List Action → Prop
  | _, [] => True
  | s, a :: as =>
      (∀ instanceId payload script l', a = .call (.subscribe instanceId payload) script →
        exec (subscribe decodeStream instanceId payload) (s.life.facing script) = (.ok (), l') →
        Drained s.life.sent l') ∧
      ∀ s', s.step decodeStream a = some s' → DrainsAll s' as

end

section

variable {decodeStream : List UInt8 → Except Protocol.ProtocolError (List Item)} {b : Nat}

/-! ## What a fresh state keeps -/

/-- Nothing stale is left, nor will anything stale arrive. -/
structure Fresh (b : Nat) (l : Life) : Prop extends Drained b l where
  sent : b ≤ l.sent

theorem Fresh.arrive {l : Life} (h : Fresh b l) (n : Notification) : Fresh b (l.arrive n) where
  queued := by
    intro q hq source d hd hsource
    rcases hstreams : l.session.transport.streams with _ | q₀
    · simp [Life.arrive, hstreams] at hq
    · simp only [Life.arrive, hstreams, Option.map_some, Option.some.injEq] at hq
      subst hq
      by_cases hs : source = n.source
      · simp only [Streams.push, if_pos hs, List.mem_append, List.mem_singleton] at hd
        rcases hd with hd | rfl
        · exact h.queued q₀ hstreams source d hd hsource
        · exact h.sent
      · simp only [Streams.push, if_neg hs] at hd
        exact h.queued q₀ hstreams source d hd hsource
  fallback := h.fallback
  sent := Nat.le_succ_of_le h.sent

theorem taking_fresh (b : Nat) (instanceId : UInt16) :
    KeptTaking (fun l => Fresh b l ∧ l.session.subscribedInstance = some instanceId)
      (fun c => b ≤ c.sent) where
  arrives l n es _ h := by
    have harrived := h.1.arrive n
    exact ⟨⟨⟨harrived.queued, harrived.fallback⟩, harrived.sent⟩, h.2⟩
  occurs _ _ _ _ _ h := ⟨⟨⟨h.1.queued, h.1.fallback⟩, h.1.sent⟩, h.2⟩
  refuses _ h := ⟨⟨⟨h.1.queued, h.1.fallback⟩, h.1.sent⟩, h.2⟩
  writes _ _ _ h := ⟨⟨⟨h.1.queued, h.1.fallback⟩, h.1.sent⟩, h.2⟩
  credits _ _ h := ⟨⟨⟨h.1.queued, h.1.fallback⟩, h.1.sent⟩, h.2⟩
  buffers _ _ h := ⟨⟨⟨h.1.queued, h.1.fallback⟩, h.1.sent⟩, h.2⟩
  takes l q source d rest _ hstreams hq h := by
    have hd : d ∈ q source := by simp [hq]
    refine ⟨⟨⟨⟨fun q' hq' s e he hlast => ?_, h.1.fallback⟩, h.1.sent⟩, h.2⟩, fun hlast _ => ?_⟩
    · cases hq'
      by_cases hs : s = source
      · simp only [if_pos hs] at he
        exact h.1.queued q hstreams source e (hq ▸ List.mem_cons_of_mem d he) hlast
      · simp only [if_neg hs] at he
        exact h.1.queued q hstreams s e he hlast
    · exact h.1.queued q hstreams source d hd hlast

theorem request_fresh (b : Nat) (instanceId : UInt16) :
    KeptRequest decodeStream instanceId
      (fun l => Fresh b l ∧ l.session.subscribedInstance = some instanceId)
      (fun c => b ≤ c.sent) (fun c => b ≤ c.sent) where
  toKeptTaking := taking_fresh b instanceId
  subscribed _ h := h.2
  answers _ h _ := h
  fallback l c h hc := h.1.fallback c hc
  releases _ h := ⟨⟨⟨h.1.queued, by simp⟩, h.1.sent⟩, h.2⟩
  reuses _ _ h := ⟨⟨⟨h.1.queued, h.1.fallback⟩, h.1.sent⟩, h.2⟩

/-! ## Every run -/

/-- The device's count only grows. -/
theorem taking_sent (b : Nat) : KeptTaking (fun l => b ≤ l.sent) (fun _ => True) where
  arrives _ _ _ _ h := Nat.le_succ_of_le h
  occurs _ _ _ _ _ h := h
  refuses _ h := h
  writes _ _ _ h := h
  credits _ _ h := h
  buffers _ _ h := h
  takes _ _ _ _ _ _ _ _ h := ⟨h, fun _ _ => trivial⟩

theorem subscribe_sent (b : Nat) (instanceId : UInt16) (payload : List UInt8) :
    Triple (fun l => b ≤ l.sent) (subscribe decodeStream instanceId payload)
      (fun _ l => b ≤ l.sent) (fun _ l => b ≤ l.sent) := by
  have hdrain : Triple (fun l => b ≤ l.sent) (drainCompletedPayloads decodeStream instanceId)
      (fun _ l => b ≤ l.sent) (fun _ l => b ≤ l.sent) := by
    refine Triple.bind (Q := fun _ l => b ≤ l.sent) (Triple.modifyState fun _ h => h) fun _ => ?_
    exact (taking_sent b).drain decodeStream instanceId fun _ _ h _ _ => h
  unfold subscribe
  refine Triple.getThen fun l hl => ?_
  by_cases hnegotiated : l.session.negotiated = true
  · rw [if_neg (by simp [hnegotiated])]
    refine Triple.getThen fun t ht => ?_
    subst ht
    by_cases hsame : t.session.subscribedInstance = some instanceId
    · rw [if_pos hsame]
      exact hdrain.conseq (fun _ h => h ▸ hl) (fun _ _ h => h) fun _ _ h => h
    · rw [if_neg hsame]
      refine Triple.bind (((taking_sent b).toKept.writeRequest payload).conseq
        (fun _ h => h ▸ hl) (fun _ _ h => h) fun _ _ h => h) fun _ => ?_
      refine Triple.bind hdrain fun _ => ?_
      exact Triple.modifyState fun _ h => h
  · rw [if_pos (by simp [hnegotiated])]
    exact Triple.throw fun _ h => h ▸ hl

/-- The step: within a cycle the state stays fresh. -/
theorem CycleLife.step_fresh {s s' : CycleLife} {a : Action}
    (h : ∀ b, s.began = some b → Fresh b s.life)
    (hdrains : ∀ instanceId payload script l', a = .call (.subscribe instanceId payload) script →
      exec (subscribe decodeStream instanceId payload) (s.life.facing script) = (.ok (), l') →
      Drained s.life.sent l')
    (hstep : s.step decodeStream a = some s') : ∀ b, s'.began = some b → Fresh b s'.life := by
  obtain ⟨l', hlife, rfl⟩ := Option.map_eq_some_iff.mp hstep
  intro b hb
  cases a with
  | idle sends =>
      cases hlife
      have harrive : ∀ (ns : List Notification) (l : Life), Fresh b l →
          Fresh b (ns.foldl Life.arrive l) := by
        intro ns
        induction ns with
        | nil => exact fun _ hl => hl
        | cons n ns ih => exact fun l hl => ih (l.arrive n) (hl.arrive n)
      exact harrive sends s.life (h b hb)
  | call c script =>
      cases c with
      | subscribe instanceId payload =>
          cases hlife
          simp only [beganAfter] at hb
          rw [perform, exec_then_pure]
          rcases hrun : exec (subscribe decodeStream instanceId payload)
            (s.life.facing script) with ⟨r, l'⟩
          cases r with
          | error halt => simp [hrun] at hb
          | ok u =>
              simp only [hrun, Option.some.injEq] at hb
              subst hb
              have hdrained := hdrains instanceId payload script l' rfl hrun
              exact ⟨hdrained, (subscribe_sent _ instanceId payload).ok
                (s := s.life.facing script) (Nat.le_refl s.life.sent) hrun⟩
      | _ => simp [beganAfter] at hb

/-- The run: in every state reached, the state is fresh for the cycle it is in. -/
theorem CycleLife.run_fresh {s s' : CycleLife} {actions : List Action}
    (h : ∀ b, s.began = some b → Fresh b s.life) (hdrains : DrainsAll decodeStream s actions)
    (hrun : runActions (CycleLife.step decodeStream) s actions = some s') :
    ∀ b, s'.began = some b → Fresh b s'.life := by
  induction actions generalizing s with
  | nil =>
      cases hrun
      exact h
  | cons a as ih =>
      obtain ⟨t, ht, hrest⟩ := Option.bind_eq_some_iff.mp hrun
      exact ih (CycleLife.step_fresh h hdrains.1 ht) (hdrains.2 t ht) hrest

/-- **When answers are fresh**: if every subscribe call that returns has drained what was sent
before it began, a request answers with a payload that was completed after it began. -/
theorem answers_fresh (decodeStream : List UInt8 → Except Protocol.ProtocolError (List Item))
    {actions : List Action} (hdrains : DrainsAll decodeStream .initial actions)
    {s : CycleLife} (hrun : runActions (CycleLife.step decodeStream) .initial actions = some s)
    {b : Nat} (hbegan : s.began = some b) (payload : List UInt8) (script : List Event)
    {c : Completed} {l' : Life}
    (hanswer : exec (requestValues decodeStream payload) (s.life.facing script) = (.ok c, l')) :
    b ≤ c.sent := by
  have hfresh : Fresh b s.life :=
    CycleLife.run_fresh (by simp [CycleLife.initial]) hdrains hrun b hbegan
  rcases hsubscribed : s.life.session.subscribedInstance with _ | instanceId
  · simp [requestValues, exec_bind, Life.facing, hsubscribed, fail] at hanswer
  · have hfacing : Fresh b (s.life.facing script) :=
      ⟨⟨hfresh.queued, hfresh.fallback⟩, hfresh.sent⟩
    exact (((request_fresh b instanceId).requestValues payload).ok ⟨hfacing, hsubscribed⟩
      hanswer).2

end

/-! ## A backlog that answers -/

/-- A session is subscribed and then idle, while the device sends a value; the next cycle's
subscribe call drains it. -/
def backlog : List Action :=
  [.call .discover [.reply (.ok [])],
    .call (.negotiate []) [.reply (.ok [0x00, 0x04, 0x00, 0x01, 0xde, 0x4a, 0x00])],
    .call (.subscribe 4 [0x03, 0x04]) [.reply (.ok []), .elapsed],
    .idle [⟨.lastData, [0x08, 0x04, 0x19, 0xed, 0xbb, 0x42, 0xf3, 0x0a]⟩],
    .call (.subscribe 4 [0x03, 0x04]) [.take .lastData, .elapsed]]

/-- The value from before the subscribe call answers a request that times out. -/
theorem backlog_stale : ∃ s b payload script c l',
    runActions (CycleLife.step oneValue) .initial backlog = some s ∧ s.began = some b ∧
      exec (requestValues oneValue payload) (s.life.facing script) = (.ok c, l') ∧
      ¬ b ≤ c.sent :=
  ⟨_, 1, [0], [.reply (.ok []), .elapsed], _, _, rfl, rfl, rfl, by decide⟩

/-- The first cycle alone: nothing has been sent before its subscribe call. -/
def firstCycle : List Action := backlog.take 3

/-- The value that the device sends in answer to a request. -/
def answered : List Event :=
  [.reply (.ok []), .sends ⟨.lastData, [0x08, 0x04, 0x19, 0xed, 0xbb, 0x42, 0xf3, 0x0a]⟩,
    .take .lastData]

theorem firstCycle_drains : DrainsAll oneValue .initial firstCycle := by
  refine ⟨by simp, fun s₁ h₁ => ⟨by simp, fun s₂ h₂ => ⟨fun _ _ _ _ _ _ => ?_, by simp [DrainsAll]⟩⟩⟩
  have hs₁ : CycleLife.step oneValue .initial _ = some s₁ := h₁
  cases hs₁
  cases h₂
  exact ⟨fun _ _ _ _ _ _ => Nat.zero_le _, fun _ _ => Nat.zero_le _⟩

theorem firstCycle_fresh : ∃ s b c l',
    runActions (CycleLife.step oneValue) .initial firstCycle = some s ∧ s.began = some b ∧
      exec (requestValues oneValue [0]) (s.life.facing answered) = (.ok c, l') ∧ b ≤ c.sent :=
  ⟨_, 0, _, _, rfl, rfl, rfl, answers_fresh oneValue firstCycle_drains rfl rfl [0] answered rfl⟩

end VeSmart.Client
