import VeSmart.Client.Correlation
import VeSmart.Client.Frames

set_option autoImplicit false

/-! # A disconnect that is cut off

The service gives a disconnect as long as any other phase. `close` drops the streams at once, but
the transport counts as open until BlueZ has answered; a disconnect that is cut off in between
leaves a transport that is open and has no streams. `cut_disconnect_deafens` is what the session
can do from there on, until it is disconnected again. -/

namespace VeSmart.Client

open VeSmart.Lib VeSmart.Bluez VeSmart.Protocol

/-- An open transport without streams. `heard` are the notifications that have been taken, and a
fallback can only be `stale`. -/
structure Deaf (heard : List Delivered) (stale : Option Completed) (l : Life) : Prop where
  state : l.session.transport.state.isOpen = true
  streams : l.session.transport.streams = none
  taken : taken l = heard
  fallback : ∀ c, l.session.fallbackValues = some c → stale = some c

/-- The calls that do not close the transport. -/
def Action.staysOpen : Action → Bool
  | .call .finishCycle _ => false
  | .call .disconnect _ => false
  | _ => true

section

variable {heard : List Delivered} {stale : Option Completed} {l : Life}

/-! ## What a deaf session keeps -/

theorem taking_deaf (heard : List Delivered) (stale : Option Completed) :
    KeptTaking (Deaf heard stale) (fun _ => False) where
  arrives l n es _ h := by
    have harrived : (l.arrive n).session.transport.streams = none := by
      simp [Life.arrive, h.streams]
    exact ⟨h.state, harrived, h.taken, h.fallback⟩
  occurs _ _ _ _ _ h := ⟨h.state, h.streams, h.taken, h.fallback⟩
  refuses _ h := ⟨h.state, h.streams, h.taken, h.fallback⟩
  writes l target bytes h :=
    ⟨h.state, h.streams, (taken_wrote target bytes).trans h.taken, h.fallback⟩
  credits _ _ h := ⟨h.state, h.streams, h.taken, h.fallback⟩
  buffers _ _ h := ⟨h.state, h.streams, h.taken, h.fallback⟩
  takes l q _ _ _ _ hstreams _ h := by
    rw [h.streams] at hstreams
    cases hstreams

theorem nextNotification_deaf (h : Deaf heard stale l) :
    (exec nextNotification l).1 = .error .panicked := by
  simp [nextNotification, requireOpen, exec_bind, h.state, h.streams]

variable {decodeStream : List UInt8 → Except Protocol.ProtocolError (List Item)}

/-- A request that is answered is answered with the fallback. -/
theorem requestValues_deaf (payload : List UInt8) :
    Triple (Deaf heard stale) (requestValues decodeStream payload)
      (fun c l => Deaf heard stale l ∧ stale = some c) (fun _ => Deaf heard stale) := by
  intro l hl
  rcases hsubscribed : l.session.subscribedInstance with _ | instanceId
  · simpa [requestValues, exec_bind, hsubscribed, fail] using hl
  · have htaking := taking_deaf heard stale
    have hrequest : KeptRequest decodeStream instanceId
        (fun l => Deaf heard stale l ∧ l.session.subscribedInstance = some instanceId)
        (fun _ => False) (fun c => stale = some c) := {
      arrives := fun l n es hscript h => ⟨htaking.arrives l n es hscript h.1, h.2⟩
      occurs := fun l e es hscript he h => ⟨htaking.occurs l e es hscript he h.1, h.2⟩
      refuses := fun l h => ⟨htaking.refuses l h.1, h.2⟩
      writes := fun l target bytes h => ⟨htaking.writes l target bytes h.1, h.2⟩
      credits := fun l c h => ⟨htaking.credits l c h.1, h.2⟩
      buffers := fun l p h => ⟨htaking.buffers l p h.1, h.2⟩
      takes := fun l q source d rest hopen hstreams hq h =>
        have htaken := htaking.takes l q source d rest hopen hstreams hq h.1
        ⟨⟨htaken.1, h.2⟩, htaken.2⟩
      subscribed := fun _ h => h.2
      answers := fun _ h _ => h.elim
      fallback := fun _ c h hc => h.1.fallback c hc
      releases := fun _ h => ⟨⟨h.1.state, h.1.streams, h.1.taken, by simp⟩, h.2⟩
      reuses := fun _ _ h => ⟨⟨h.1.state, h.1.streams, h.1.taken, h.1.fallback⟩, h.2⟩ }
    exact (hrequest.requestValues payload).conseq (fun _ h => h) (fun _ _ h => ⟨h.1.1, h.2⟩)
      (fun _ _ h => h.1) l ⟨hl, hsubscribed⟩

theorem discover_deaf :
    Triple (Deaf heard stale) discover (fun _ => Deaf heard stale) (fun _ => Deaf heard stale) := by
  intro l hl
  simp only [discover, transportOpen, exec_bind, exec_get, hl.state, if_true, exec_pure, orFail,
    setSession, exec_modify]
  exact ⟨hl.state, hl.streams, hl.taken, hl.fallback⟩

theorem connect_deaf :
    Triple (Deaf heard stale) connect (fun _ => Deaf heard stale) (fun _ => Deaf heard stale) := by
  refine Triple.getThen fun l hl => ?_
  have hstart : ∀ s, s = l → Deaf heard stale s := by
    rintro _ rfl
    exact hl
  by_cases hopened : l.session.opened = true
  · rw [if_pos hopened]
    exact Triple.pure hstart
  · rw [if_neg hopened]
    exact Triple.throw hstart

theorem negotiate_deaf (frames : List (List UInt8)) :
    Triple (Deaf heard stale) (negotiate frames) (fun _ => Deaf heard stale)
      (fun _ => Deaf heard stale) := by
  have hkept := (taking_deaf heard stale).toKept
  refine Triple.getThen fun l hl => ?_
  have hstart : ∀ s, s = l → Deaf heard stale s := by
    rintro _ rfl
    exact hl
  by_cases hnegotiated : l.session.negotiated = true
  · rw [if_pos hnegotiated]
    exact Triple.pure hstart
  · rw [if_neg hnegotiated]
    refine Triple.bind (hkept.readControl.conseq hstart (fun _ _ h => h) fun _ _ h => h) fun r => ?_
    refine Triple.bind (orFail_kept r) fun control => ?_
    cases ControlInfo.parse control with
    | none => exact fail_kept _
    | some info =>
        refine Triple.bind (hkept.writeFrames frames) fun _ => ?_
        exact Triple.modifyState fun _ h => ⟨h.state, h.streams, h.taken, h.fallback⟩

theorem subscribe_deaf (instanceId : UInt16) (payload : List UInt8) :
    Triple (Deaf heard stale) (subscribe decodeStream instanceId payload)
      (fun _ => Deaf heard stale) (fun _ => Deaf heard stale) := by
  have htaking := taking_deaf heard stale
  have hdrain : Triple (Deaf heard stale) (drainCompletedPayloads decodeStream instanceId)
      (fun _ => Deaf heard stale) (fun _ => Deaf heard stale) := by
    refine Triple.bind (Q := fun _ => Deaf heard stale) (Triple.modifyState fun _ h =>
      ⟨h.state, h.streams, h.taken, by simp⟩) fun _ => ?_
    exact htaking.drain decodeStream instanceId fun _ _ _ hfalse => hfalse.elim
  refine Triple.getThen fun l hl => ?_
  have hstart : ∀ s, s = l → Deaf heard stale s := by
    rintro _ rfl
    exact hl
  by_cases hnegotiated : l.session.negotiated = true
  · simp only [hnegotiated, Bool.not_true, Bool.false_eq_true, if_false]
    refine Triple.getThen fun l' hl' => ?_
    subst hl'
    by_cases hsame : l'.session.subscribedInstance = some instanceId
    · rw [if_pos hsame]
      exact hdrain.conseq hstart (fun _ _ h => h) fun _ _ h => h
    · rw [if_neg hsame]
      refine Triple.bind ((htaking.toKept.writeRequest payload).conseq hstart (fun _ _ h => h)
        fun _ _ h => h) fun _ => ?_
      refine Triple.bind hdrain fun _ => ?_
      exact Triple.modifyState fun _ h => ⟨h.state, h.streams, h.taken, h.fallback⟩
  · simp only [hnegotiated, Bool.not_false, if_true]
    exact (fail_kept _).conseq hstart (fun _ _ h => h) fun _ _ h => h

/-- The step: a call that does not close the transport leaves it as it is. -/
theorem Deaf.step {a : Action} {l' : Life} (hl : Deaf heard stale l) (ha : a.staysOpen = true)
    (hstep : Client.step decodeStream l a = some l') : Deaf heard stale l' := by
  cases a with
  | idle sends =>
      cases hstep
      clear ha
      induction sends generalizing l with
      | nil => exact hl
      | cons n sends ih =>
          have harrived : (l.arrive n).session.transport.streams = none := by
            simp [Life.arrive, hl.streams]
          exact ih ⟨hl.state, harrived, hl.taken, hl.fallback⟩
  | call c script =>
      cases hstep
      have hfacing : Deaf heard stale (l.facing script) :=
        ⟨hl.state, hl.streams, hl.taken, hl.fallback⟩
      cases c with
      | finishCycle => cases ha
      | disconnect => cases ha
      | requestValues payload =>
          have hcall : Triple (Deaf heard stale) (requestValues decodeStream payload)
              (fun _ => Deaf heard stale) (fun _ => Deaf heard stale) :=
            (requestValues_deaf payload).conseq (fun _ h => h) (fun _ _ h => h.1) fun _ _ h => h
          exact (exec_then_pure _ _ _).symm ▸ kept_after hcall hfacing
      | discover => exact (exec_then_pure _ _ _).symm ▸ kept_after discover_deaf hfacing
      | connect => exact (exec_then_pure _ _ _).symm ▸ kept_after connect_deaf hfacing
      | negotiate frames =>
          exact (exec_then_pure _ _ _).symm ▸ kept_after (negotiate_deaf frames) hfacing
      | subscribe instanceId payload =>
          exact (exec_then_pure _ _ _).symm ▸ kept_after (subscribe_deaf instanceId payload) hfacing

/-! ## The disconnect -/

/-- A disconnect is cut off only while it awaits BlueZ, with the streams gone. -/
theorem disconnect_deaf :
    Triple (fun l => l.session.transport.state.isOpen = true ∧ taken l = heard ∧
        l.session.fallbackValues = stale)
      disconnect (fun _ _ => True) (fun _ => Deaf heard stale) := by
  have hclose : Triple (fun l => l.session.transport.state.isOpen = true ∧ taken l = heard ∧
      l.session.fallbackValues = stale) transportClose (fun _ _ => True)
      (fun _ => Deaf heard stale) := by
    refine Triple.getThen fun l hl => ?_
    refine Triple.bind (Q := fun _ => Deaf heard stale) (Triple.modifyState ?_) fun _ => ?_
    · rintro _ rfl
      exact ⟨hl.1, rfl, hl.2.1, fun c hc => hl.2.2.symm.trans hc⟩
    by_cases hours : (l.session.transport.state.device &&
        l.session.transport.state.connectedByUs) = true
    · simp only [hours, if_true]
      refine Triple.bind (taking_deaf heard stale).toKept.awaitReply fun _ => ?_
      exact Triple.modifyState fun _ _ => trivial
    · simp only [hours, Bool.false_eq_true, if_false]
      exact Triple.modifyState fun _ _ => trivial
  refine Triple.bind hclose fun _ => ?_
  exact Triple.modifyState fun _ _ => trivial

/-- **A disconnect that is cut off leaves a session that is open and hears nothing**: whatever is
called on it before it is disconnected again, no notification is taken, a call that waits for one
panics, and no request is answered but with the fallback from before. -/
theorem cut_disconnect_deafens
    (decodeStream : List UInt8 → Except Protocol.ProtocolError (List Item)) {l l' cut : Life}
    {halt : Halt} {calls : List Action} (hopen : l.session.transport.state.isOpen = true)
    (hcut : exec disconnect l = (.error halt, cut))
    (hcalls : ∀ a ∈ calls, a.staysOpen = true)
    (hrun : runActions (step decodeStream) cut calls = some l') :
    taken l' = taken l ∧ (exec nextNotification l').1 = .error .panicked ∧
      ∀ payload script c, (exec (requestValues decodeStream payload) (l'.facing script)).1 = .ok c →
        l.session.fallbackValues = some c := by
  have hdeaf : Deaf (taken l) l.session.fallbackValues cut :=
    disconnect_deaf.error ⟨hopen, rfl, rfl⟩ hcut
  have hreached : Reaches (step decodeStream) (fun _ a => a.staysOpen = true) cut l' :=
    Reaches.of_run (fun _ => hcalls) hrun
  have hlast : Deaf (taken l) l.session.fallbackValues l' :=
    hreached.invariant hdeaf fun _ _ _ h ha hstep => h.step ha hstep
  refine ⟨hlast.taken, nextNotification_deaf hlast, fun payload script c hanswer => ?_⟩
  have hfacing : Deaf (taken l) l.session.fallbackValues (l'.facing script) :=
    ⟨hlast.state, hlast.streams, hlast.taken, hlast.fallback⟩
  rcases hexec : exec (requestValues decodeStream payload) (l'.facing script) with ⟨r, after⟩
  rw [hexec] at hanswer
  cases hanswer
  exact ((requestValues_deaf payload).ok hfacing hexec).2

/-- A session in use; its disconnect is cut off. -/
def strandedSession : Life where
  session := { openSession with subscribedInstance := some 3 }
  sent := 0
  log := []
  script := []
  unanswered := 0

/-- The next cycle, which finds the transport open. -/
def strandedCycle : List Action :=
  [.call .discover [], .call .connect [], .call (.negotiate []) [], .call (.subscribe 3 []) []]

theorem cut_disconnect_deafens_stranded : ∃ cut l',
    exec disconnect strandedSession = (.error .dropped, cut) ∧
      runActions (step fun _ => .ok []) cut strandedCycle = some l' ∧
      taken l' = taken strandedSession ∧ (exec nextNotification l').1 = .error .panicked ∧
      ∀ payload script c, (exec (requestValues (fun _ => .ok []) payload)
        (l'.facing script)).1 = .ok c → strandedSession.session.fallbackValues = some c := by
  obtain ⟨cut, hcut⟩ : ∃ cut, exec disconnect strandedSession = (.error .dropped, cut) := ⟨_, rfl⟩
  obtain ⟨l', hrun⟩ : ∃ l', runActions (step fun _ => .ok []) cut strandedCycle = some l' := by
    cases hcut
    exact ⟨_, rfl⟩
  exact ⟨cut, l', hcut, hrun, cut_disconnect_deafens _ rfl hcut (by decide) hrun⟩

end

end VeSmart.Client
