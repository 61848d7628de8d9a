import VeSmart.Client.Diagnostic
import VeSmart.Client.Link
import VeSmart.Collector.Protocol

set_option autoImplicit false

/-! # What a diagnostic session writes

The other calls of `victron-client/src/session/diagnostic.rs`, and what they leave on the wire:
the frames of the negotiation, the subscription, and then requests that read. A request whose
write fails is cut off, and a command may go on after it, so what is on the wire are beginnings of
requests (`Fragments`). -/

namespace VeSmart.Client

open VeSmart.Lib VeSmart.Bluez VeSmart.Protocol
open VeSmart.Collector (negotiationWrites)

/-! ## The calls -/

section

variable (m : Minicbor)
variable (decodeStream : List UInt8 → Except Protocol.ProtocolError (List Item))

/-- Only the fixed frames are written. -/
def openReadOnly : Call Unit := do
  discover
  connect
  negotiate negotiationWrites

def subscribeReadOnly (inst : UInt16) : Call Unit :=
  if inst = 0 then fail (.other "instance must be positive")
  else match (Request.subscribe inst).encode m with
    | .error e => fail (mapProtocolError e)
    | .ok payload => subscribe decodeStream inst payload

/-- The value of the property, two bytes on D-Bus; BlueZ may have none. -/
def rssiOf : List UInt8 → Option Int16
  | [low, high] => some (wordLe [low, high]).toInt16
  | _ => none

def rssi : Call (Except Bluez.BleError (Option Int16)) := do
  match ← requireOpen with
  | .error e => pure (.error e)
  | .ok () =>
      match ← awaitReply with
      | .error e => pure (.error e)
      | .ok value => pure (.ok (rssiOf value))

def rssiReadOnly : Call (Option Int16) := do
  orFail (← rssi)

/-- What the disconnect comes to is not asked. -/
def closeReadOnly : Call Unit := do
  match ← attempt disconnect with
  | .ok () => pure ()
  | .error (.failed _) => pure ()
  | .error halt => throw halt

end

/-! ## The law of a link -/

/-- The writes of a request; one that is not encoded is not written. -/
def encodedWrites (m : Minicbor) (request : Request) : List Write :=
  match request.encode m with
  | .ok payload => requestWrites payload
  | .error _ => []

/-- Beginnings of the requests, one after the other. -/
inductive Fragments (m : Minicbor) : List Request → List Write → Prop where
  | nil : Fragments m [] []
  | snoc {requests : List Request} {data part : List Write} (request : Request)
      (h : Fragments m requests data) (hpart : part <+: encodedWrites m request) :
      Fragments m (requests ++ [request]) (data ++ part)

/-- What a diagnostic session of the instance writes on its link, if its requests are such as
`Asks` says. -/
inductive ReadOnly (m : Minicbor) (inst : UInt16) (Asks : Request → Prop) : List Write → Prop where
  | negotiating {link : List Write} (h : link <+: frameWrites negotiationWrites) :
      ReadOnly m inst Asks link
  | subscribing {rest : List Write} (hcredit : OnlyCredit rest)
      (hdata : rest.filter isData <+: encodedWrites m (.subscribe inst)) :
      ReadOnly m inst Asks (frameWrites negotiationWrites ++ rest)
  | subscribed {rest data : List Write} (requests : List Request) (hcredit : OnlyCredit rest)
      (hasks : ∀ r ∈ requests, Asks r) (hfragments : Fragments m requests data)
      (hdata : rest.filter isData = encodedWrites m (.subscribe inst) ++ data) :
      ReadOnly m inst Asks (frameWrites negotiationWrites ++ rest)

/-- The session has been subscribed, and has made requests. -/
def Diagnosing (m : Minicbor) (inst : UInt16) (Asks : Request → Prop) (w : Wire) : Prop :=
  ∃ plan : Service.AcquirePlan, plan.negotiationFrames = negotiationWrites ∧
    ∃ requests data, (∀ r ∈ requests, Asks r) ∧ Fragments m requests data ∧
      Serving plan [] (some inst) (encodedWrites m (.subscribe inst) ++ data) w

/-- The session may be at any stage, but its link is lawful. -/
structure Interrupted (m : Minicbor) (inst : UInt16) (Asks : Request → Prop) (w : Wire) :
    Prop where
  transport : w.Down ∨ w.Up
  law : ReadOnly m inst Asks w.writes

section

variable {m : Minicbor} {inst : UInt16} {Asks : Request → Prop} {w : Wire}
  {plan : Service.AcquirePlan} {before data : List Write} {sub : Option UInt16}

theorem Diagnosing.interrupted (h : Diagnosing m inst Asks w) : Interrupted m inst Asks w := by
  obtain ⟨plan, hframes, requests, data, hasks, hfragments, hserving⟩ := h
  obtain ⟨rest, hwrites, hcredit, hdata⟩ := hserving.writes
  refine ⟨.inr hserving.toUp, ?_⟩
  rw [hwrites, hframes, List.nil_append]
  exact .subscribed requests hcredit hasks hfragments hdata

/-- The plan of a session that asks for nothing else: the law of its link is that of the
subscription. -/
def subscription (payload : List UInt8) : Service.AcquirePlan := ⟨negotiationWrites, payload, []⟩

theorem conversation_subscription (payload : List UInt8) (n : Nat) :
    conversation (subscription payload) n = requestWrites payload := by
  have hempty : requestWrites [] = [] := rfl
  rw [conversation, subscription, hempty]
  simp

theorem Broken.interrupted {payload : List UInt8}
    (hpayload : (Request.subscribe inst).encode m = .ok payload)
    (h : Broken (subscription payload) [] w) : Interrupted m inst Asks w := by
  refine ⟨h.transport, ?_⟩
  obtain ⟨link, hwrites, hlawful⟩ := h.writes
  rw [hwrites, List.nil_append]
  cases hlawful with
  | negotiating h => exact .negotiating h
  | negotiated n hcredit hdata =>
      rw [conversation_subscription] at hdata
      refine .subscribing hcredit ?_
      rwa [encodedWrites, hpayload]

/-! ## The rules of the calls -/

variable (decodeStream : List UInt8 → Except Protocol.ProtocolError (List Item))

theorem Listens.collect {I : Wire → Prop} (h : Listens I) (request : Request) (turns : Nat)
    (collected : List Response) : Calm I (collect decodeStream request turns collected) := by
  induction turns generalizing collected with
  | zero => exact calm_throw (by simp)
  | succ turns ih =>
      rw [Client.collect]
      refine Triple.bind h.nextPayload.attempt fun r => ?_
      rcases r with halt | completed
      · cases halt with
        | failed e =>
            refine Triple.conseq (P := fun l => I l.wire) ?_ (fun _ h => h.1) (fun _ _ h => h)
              fun _ _ h => h
            split
            · split
              · exact calm_fail _
              · exact calm_pure _
            · rename_i halt _ heq
              cases heq
              exact calm_throw (by simp)
            · rename_i heq
              cases heq
        | dropped => exact Triple.throw fun _ h => h
        | panicked => exact Triple.throw fun _ h => h
      · have hpayload : Calm I (collectPayload decodeStream request collected completed) := by
          unfold collectPayload
          split
          · exact calm_fail _
          · exact calm_pure _
        refine Triple.bind hpayload fun collected => ?_
        split
        · exact calm_pure _
        · exact ih collected

end

end VeSmart.Client
