import VeSmart.Client.Rules
import VeSmart.Protocol.Request

set_option autoImplicit false

/-! # Diagnostic requests (`victron-client/src/session/diagnostic.rs`)

`request_read_only` writes one request and collects the matching records of the payloads that
complete, until all that was asked for has arrived. `Answers` says which records those are; the
match table decides it (`responseMatchesRequest_iff`). The turns of the collection depend on the
records so far only, so what it returns is a function of the payloads (`collect_complete`,
`collect_quiet`). -/

namespace VeSmart.Client

open VeSmart.Lib VeSmart.Bluez VeSmart.Protocol

/-! ## The tables -/

def requestInstance : Request → Option UInt16
  | .getDevices => none
  | .subscribe inst => some inst
  | .getValues inst _ => some inst
  | .getPathList inst => some inst
  | .getPathValues inst _ => some inst

def responseMatchesRequest (response : Response) (request : Request) : Bool :=
  match request, response with
  | .getDevices, .deviceList _ => true
  | .getValues inst registers, .value i register _ =>
      i = inst.toUInt64 && registers.contains register
  | .getValues inst registers, .valueResponse i register _ =>
      i = inst.toUInt64 && registers.contains register
  | .getPathList inst, .pathList i _ => i = inst.toUInt64
  | .getPathList inst, .newPath i _ _ => i = inst.toUInt64
  | .getPathValues inst pathIndexes, .pathValue i pathIndex _ =>
      i = inst.toUInt64 && pathIndexes.contains pathIndex
  | .getPathValues inst pathIndexes, .pathResponse i pathIndex _ =>
      i = inst.toUInt64 && pathIndexes.contains pathIndex
  | request, .response i opcode _ =>
      (requestInstance request).all (fun value => i = value.toUInt64) &&
        opcode = request.opcode.asU8.toUInt64
  | _, _ => false

/-- A `Response` record whose code is not OK. -/
def isRejection : Response → Bool
  | .response _ _ code => code ≠ .ok
  | _ => false

def isDeviceList : Response → Bool
  | .deviceList _ => true
  | _ => false

def isPathList : Response → Bool
  | .pathList _ _ => true
  | _ => false

/-- A record with the value of the register, or with the reason why there is none. -/
def isForRegister (wanted : UInt16) : Response → Bool
  | .value _ register _ => register = wanted
  | .valueResponse _ register _ => register = wanted
  | _ => false

def isForPath (wanted : Int64) : Response → Bool
  | .pathValue _ pathIndex _ => pathIndex = wanted
  | .pathResponse _ pathIndex _ => pathIndex = wanted
  | _ => false

def requestIsComplete (request : Request) (responses : List Response) : Bool :=
  if responses.any isRejection then true
  else match request with
    | .getDevices => responses.any isDeviceList
    | .getValues _ registers => registers.all fun wanted => responses.any (isForRegister wanted)
    -- a sequence of `NewPath` records is collected until the quiet period
    | .getPathList _ => responses.any isPathList
    | .getPathValues _ pathIndexes =>
        pathIndexes.all fun wanted => responses.any (isForPath wanted)
    | .subscribe _ => false

/-! ## The request -/

section

variable (m : Minicbor)
variable (decodeStream : List UInt8 → Except Protocol.ProtocolError (List Item))

/-- What `request_read_only` does before it collects. -/
def sendReadOnly (request : Request) : Call Unit := do
  match request with
  | .subscribe _ => fail (.other "use subscribe_read_only for subscription requests")
  | _ => pure ()
  match requestInstance request with
  | some inst =>
      if (← get).session.subscribedInstance = some inst then pure ()
      else fail (.other "request instance is not subscribed")
  | none => pure ()
  clearPending
  match request.encode m with
  | .error e => fail (mapProtocolError e)
  | .ok payload => writeRequest payload

/-- What a completed payload adds to the records collected so far. -/
def collectPayload (request : Request) (collected : List Response) (completed : Completed) :
    Call (List Response) :=
  match Response.parseStream decodeStream completed.payload with
  | .error e => fail (mapProtocolError e)
  | .ok responses =>
      pure (collected ++ responses.filter fun response => responseMatchesRequest response request)

/-- The collection, `turns` payloads at most. The deadline of a payload is the request's or, once
a record has been collected, that of the quiet period: either may elapse at any time. -/
def collect (request : Request) : Nat → List Response → Call (List Response)
  | 0, _ => throw .dropped
  | turns + 1, collected => do
      match ← attempt nextPayload with
      | .error (.failed (.timeout operation)) =>
          if collected = [] then fail (.timeout operation) else pure collected
      | .error halt => throw halt
      | .ok completed => do
          let collected ← collectPayload decodeStream request collected completed
          if requestIsComplete request collected then pure collected
          else collect request turns collected

/-- Every payload takes an event of the script; the timeout is one whose end an `Instant` can
hold. -/
def requestReadOnly (request : Request) : Call (List Response) := do
  sendReadOnly m request
  collect decodeStream request ((← get).script.length + 1) []

end

/-! ## What is collected -/

/-- The records that answer a request: the acknowledgements of its opcode and the records of its
own kind, of its instance and of what it lists. -/
inductive Answers : Request → Response → Prop
  | acknowledged (request : Request) (inst : UInt64) (code : ResponseCode)
      (h : ∀ own, requestInstance request = some own → inst = own.toUInt64) :
      Answers request (.response inst request.opcode.asU8.toUInt64 code)
  | devices (devices) : Answers .getDevices (.deviceList devices)
  | value (inst registers register data) (h : register ∈ registers) :
      Answers (.getValues inst registers) (.value inst.toUInt64 register data)
  | valueResponse (inst registers register code) (h : register ∈ registers) :
      Answers (.getValues inst registers) (.valueResponse inst.toUInt64 register code)
  | pathList (inst compressed) : Answers (.getPathList inst) (.pathList inst.toUInt64 compressed)
  | newPath (inst pathIndex path) :
      Answers (.getPathList inst) (.newPath inst.toUInt64 pathIndex path)
  | pathValue (inst pathIndexes pathIndex value) (h : pathIndex ∈ pathIndexes) :
      Answers (.getPathValues inst pathIndexes) (.pathValue inst.toUInt64 pathIndex value)
  | pathResponse (inst pathIndexes pathIndex code) (h : pathIndex ∈ pathIndexes) :
      Answers (.getPathValues inst pathIndexes) (.pathResponse inst.toUInt64 pathIndex code)

/-- The records have what the request asks for. -/
def Covers : Request → List Response → Prop
  | .getDevices, records => ∃ devices, .deviceList devices ∈ records
  | .getValues inst registers, records => ∀ register ∈ registers,
      (∃ data, .value inst.toUInt64 register data ∈ records) ∨
        ∃ code, .valueResponse inst.toUInt64 register code ∈ records
  | .getPathList inst, records => ∃ compressed, .pathList inst.toUInt64 compressed ∈ records
  | .getPathValues inst pathIndexes, records => ∀ pathIndex ∈ pathIndexes,
      (∃ value, .pathValue inst.toUInt64 pathIndex value ∈ records) ∨
        ∃ code, .pathResponse inst.toUInt64 pathIndex code ∈ records
  | .subscribe _, _ => False

/-- An acknowledgement is matched by its opcode, and by the instance if the request has one. -/
theorem matches_acknowledgement (inst opcode : UInt64) (code : ResponseCode)
    (request : Request) :
    responseMatchesRequest (.response inst opcode code) request =
      ((requestInstance request).all (fun value => inst = value.toUInt64) &&
        opcode = request.opcode.asU8.toUInt64) := by
  cases request <;> rfl

/-- The match table finds exactly the answers. -/
theorem responseMatchesRequest_iff (response : Response) (request : Request) :
    responseMatchesRequest response request = true ↔ Answers request response := by
  constructor
  · intro h
    cases response with
    | deviceList devices =>
        cases request with
        | getDevices => exact .devices devices
        | _ => simp [responseMatchesRequest] at h
    | response inst opcode code =>
        rw [matches_acknowledgement, Bool.and_eq_true, Option.all_eq_true, decide_eq_true_eq] at h
        obtain ⟨hinst, rfl⟩ := h
        exact .acknowledged request inst code fun own hown => by simpa using hinst own hown
    | value i register data =>
        cases request with
        | getValues inst registers =>
            simp only [responseMatchesRequest, Bool.and_eq_true, decide_eq_true_eq,
              List.contains_iff_mem] at h
            obtain ⟨rfl, hin⟩ := h
            exact .value inst registers register data hin
        | _ => simp [responseMatchesRequest] at h
    | valueResponse i register code =>
        cases request with
        | getValues inst registers =>
            simp only [responseMatchesRequest, Bool.and_eq_true, decide_eq_true_eq,
              List.contains_iff_mem] at h
            obtain ⟨rfl, hin⟩ := h
            exact .valueResponse inst registers register code hin
        | _ => simp [responseMatchesRequest] at h
    | pathList i compressed =>
        cases request with
        | getPathList inst =>
            simp only [responseMatchesRequest, decide_eq_true_eq] at h
            exact h ▸ .pathList inst compressed
        | _ => simp [responseMatchesRequest] at h
    | newPath i pathIndex path =>
        cases request with
        | getPathList inst =>
            simp only [responseMatchesRequest, decide_eq_true_eq] at h
            exact h ▸ .newPath inst pathIndex path
        | _ => simp [responseMatchesRequest] at h
    | pathValue i pathIndex value =>
        cases request with
        | getPathValues inst pathIndexes =>
            simp only [responseMatchesRequest, Bool.and_eq_true, decide_eq_true_eq,
              List.contains_iff_mem] at h
            obtain ⟨rfl, hin⟩ := h
            exact .pathValue inst pathIndexes pathIndex value hin
        | _ => simp [responseMatchesRequest] at h
    | pathResponse i pathIndex code =>
        cases request with
        | getPathValues inst pathIndexes =>
            simp only [responseMatchesRequest, Bool.and_eq_true, decide_eq_true_eq,
              List.contains_iff_mem] at h
            obtain ⟨rfl, hin⟩ := h
            exact .pathResponse inst pathIndexes pathIndex code hin
        | _ => simp [responseMatchesRequest] at h
    | unknown opcode => cases request <;> simp [responseMatchesRequest] at h
  · intro h
    cases h with
    | acknowledged _ inst code h =>
        rw [matches_acknowledgement, Bool.and_eq_true, Option.all_eq_true]
        exact ⟨fun own hown => by simpa using h own hown, by simp⟩
    | devices devices => rfl
    | value inst registers register data h => simpa [responseMatchesRequest] using h
    | valueResponse inst registers register code h => simpa [responseMatchesRequest] using h
    | pathList inst compressed => simp [responseMatchesRequest]
    | newPath inst pathIndex path => simp [responseMatchesRequest]
    | pathValue inst pathIndexes pathIndex value h => simpa [responseMatchesRequest] using h
    | pathResponse inst pathIndexes pathIndex code h => simpa [responseMatchesRequest] using h

/-! ## Completeness -/

/-- More records, of any kind, leave a complete collection complete. -/
theorem requestIsComplete_mono {request : Request} {records records' : List Response}
    (hsub : records ⊆ records') (h : requestIsComplete request records = true) :
    requestIsComplete request records' = true := by
  have hany : ∀ p : Response → Bool, records.any p = true → records'.any p = true := by
    intro p hp
    rw [List.any_eq_true] at hp ⊢
    obtain ⟨r, hr, hpr⟩ := hp
    exact ⟨r, hsub hr, hpr⟩
  unfold requestIsComplete at h ⊢
  by_cases hrejected : records.any isRejection = true
  · rw [if_pos (hany _ hrejected)]
  · rw [if_neg hrejected] at h
    by_cases hlater : records'.any isRejection = true
    · rw [if_pos hlater]
    · rw [if_neg hlater]
      cases request with
      | getDevices => exact hany _ h
      | subscribe inst => exact h
      | getPathList inst => exact hany _ h
      | getValues inst registers =>
          rw [List.all_eq_true] at h ⊢
          exact fun register hin => hany _ (h register hin)
      | getPathValues inst pathIndexes =>
          rw [List.all_eq_true] at h ⊢
          exact fun pathIndex hin => hany _ (h pathIndex hin)

/-- A complete collection of answers without a rejection has what the request asks for. -/
theorem covers_of_complete {request : Request} {records : List Response}
    (hanswers : ∀ r ∈ records, Answers request r)
    (h : requestIsComplete request records = true)
    (haccepted : ∀ r ∈ records, isRejection r = false) : Covers request records := by
  have hnone : ¬ records.any isRejection = true := by
    rw [List.any_eq_true]
    rintro ⟨r, hr, hrejected⟩
    rw [haccepted r hr] at hrejected
    cases hrejected
  unfold requestIsComplete at h
  rw [if_neg hnone] at h
  cases request with
  | subscribe inst => cases h
  | getDevices =>
      obtain ⟨r, hr, hlist⟩ := List.any_eq_true.mp h
      cases r with
      | deviceList devices => exact ⟨devices, hr⟩
      | _ => cases hlist
  | getPathList inst =>
      obtain ⟨r, hr, hlist⟩ := List.any_eq_true.mp h
      cases hanswers r hr with
      | pathList inst compressed => exact ⟨compressed, hr⟩
      | _ => cases hlist
  | getValues inst registers =>
      intro register hin
      obtain ⟨r, hr, hfor⟩ := List.any_eq_true.mp (List.all_eq_true.mp h register hin)
      cases hanswers r hr with
      | value inst registers other data _ =>
          rw [isForRegister, decide_eq_true_eq] at hfor
          exact .inl ⟨data, hfor ▸ hr⟩
      | valueResponse inst registers other code _ =>
          rw [isForRegister, decide_eq_true_eq] at hfor
          exact .inr ⟨code, hfor ▸ hr⟩
      | acknowledged => cases hfor
  | getPathValues inst pathIndexes =>
      intro pathIndex hin
      obtain ⟨r, hr, hfor⟩ := List.any_eq_true.mp (List.all_eq_true.mp h pathIndex hin)
      cases hanswers r hr with
      | pathValue inst pathIndexes other value _ =>
          rw [isForPath, decide_eq_true_eq] at hfor
          exact .inl ⟨value, hfor ▸ hr⟩
      | pathResponse inst pathIndexes other code _ =>
          rw [isForPath, decide_eq_true_eq] at hfor
          exact .inr ⟨code, hfor ▸ hr⟩
      | acknowledged => cases hfor

/-! ## The collection -/

section

variable {decodeStream : List UInt8 → Except Protocol.ProtocolError (List Item)}
  {request : Request} {l l₁ l₂ : Life} {payloads : List (List UInt8)}
  {records : List (List Response)} {collected : List Response} {turns : Nat}

/-- The payloads complete one after the other, each before its deadline. -/
inductive Delivers : Life → List (List UInt8) → Life → Prop
  | nil (l : Life) : Delivers l [] l
  | cons {l l₁ l₂ : Life} {completed : Completed} {rest : List (List UInt8)}
      (h : exec nextPayload l = (.ok completed, l₁)) (hrest : Delivers l₁ rest l₂) :
      Delivers l (completed.payload :: rest) l₂

theorem Delivers.length_le (h : Delivers l payloads l₁) :
    l₁.script.length + payloads.length ≤ l.script.length := by
  induction h with
  | nil l => simp
  | cons h _ ih =>
      have := nextPayload_shorter h
      rw [List.length_cons]
      omega

/-- The records of the payloads that answer the request. -/
def answersIn (request : Request) (records : List (List Response)) : List Response :=
  records.flatten.filter fun response => responseMatchesRequest response request

theorem answersIn_cons (first : List Response) (rest : List (List Response)) :
    answersIn request (first :: rest) =
      first.filter (fun response => responseMatchesRequest response request) ++
        answersIn request rest := by
  rw [answersIn, List.flatten_cons, List.filter_append, answersIn]

theorem collected_take_succ (request : Request) (collected first : List Response)
    (rest : List (List Response)) (j : Nat) :
    collected ++ answersIn request ((first :: rest).take (j + 1)) =
      collected ++ answersIn request [first] ++ answersIn request (rest.take j) := by
  rw [List.take_succ_cons, answersIn_cons, answersIn_cons, List.append_assoc, List.append_assoc]
  rfl

/-- One payload. -/
theorem collect_step {completed : Completed} {responses : List Response}
    (hnext : exec nextPayload l = (.ok completed, l₁))
    (hparse : Response.parseStream decodeStream completed.payload = .ok responses) :
    exec (collect decodeStream request (turns + 1) collected) l =
      if requestIsComplete request (collected ++ answersIn request [responses]) then
        (.ok (collected ++ answersIn request [responses]), l₁)
      else exec (collect decodeStream request turns (collected ++ answersIn request [responses]))
        l₁ := by
  have hone : answersIn request [responses] =
      responses.filter fun response => responseMatchesRequest response request := by
    rw [answersIn, List.flatten_singleton]
  have hattempt : exec (attempt nextPayload : Call (Except Halt Completed)) l =
      (.ok (.ok completed), l₁) := by
    rw [exec_attempt, hnext]
  have hpayload : exec (collectPayload decodeStream request collected completed) l₁ =
      (.ok (collected ++ answersIn request [responses]), l₁) := by
    rw [collectPayload, hparse, hone]
    rfl
  rw [collect, exec_bind_ok hattempt]
  dsimp only
  rw [exec_bind_ok hpayload]
  split
  · rfl
  · rfl

/-- A deadline that elapses ends the collection: with what has been collected, if anything. -/
theorem collect_timeout {operation : String}
    (hnext : exec nextPayload l = (.error (.failed (.timeout operation)), l₁)) :
    (exec (collect decodeStream request (turns + 1) collected) l).1 =
      if collected = [] then .error (.failed (.timeout operation)) else .ok collected := by
  have hattempt : exec (attempt nextPayload : Call (Except Halt Completed)) l =
      (.ok (.error (.failed (.timeout operation))), l₁) := by
    rw [exec_attempt, hnext]
  rw [collect, exec_bind_ok hattempt]
  dsimp only
  split
  · rfl
  · rfl

/-- The collection ends with the first payload that completes it. -/
theorem collect_complete (collected : List Response) (h : Delivers l payloads l₂)
    (hparse : payloads.map (Response.parseStream decodeStream) = records.map Except.ok)
    (hturns : payloads.length ≤ turns) {k : Nat} (hpos : 0 < k) (hk : k ≤ records.length)
    (hcomplete : requestIsComplete request (collected ++ answersIn request (records.take k)) = true)
    (hfirst : ∀ j, 0 < j → j < k →
      ¬ requestIsComplete request (collected ++ answersIn request (records.take j)) = true) :
    (exec (collect decodeStream request turns collected) l).1 =
      .ok (collected ++ answersIn request (records.take k)) := by
  induction h generalizing records collected turns k with
  | nil l =>
      have : records.length = 0 := by simpa using (congrArg List.length hparse).symm
      omega
  | @cons l l₁ l₂ completed rest hnext hrest ih =>
      obtain ⟨responses, others, rfl⟩ : ∃ responses others, records = responses :: others := by
        cases records with
        | nil => simp at hparse
        | cons responses others => exact ⟨responses, others, rfl⟩
      obtain ⟨turns, rfl⟩ : ∃ t, turns = t + 1 := ⟨turns - 1, by
        rw [List.length_cons] at hturns
        omega⟩
      obtain ⟨k, rfl⟩ : ∃ j, k = j + 1 := ⟨k - 1, by omega⟩
      rw [List.map_cons, List.map_cons, List.cons.injEq] at hparse
      have hsplit := collected_take_succ request collected responses others
      rw [collect_step hnext hparse.1]
      by_cases hone : requestIsComplete request (collected ++ answersIn request [responses]) = true
      · -- the first payload completes it, so `k` is one
        rw [if_pos hone]
        have hzero : k = 0 := by
          by_contra hne
          exact hfirst 1 (by omega) (by omega) (by simpa using hone)
        subst hzero
        simp
      · rw [if_neg hone, hsplit k]
        have hkpos : 0 < k := by
          by_contra hzero
          have : k = 0 := by omega
          subst this
          exact hone (by simpa using hcomplete)
        refine ih _ hparse.2 (by simpa using hturns) hkpos (by simpa using hk) ?_ ?_
        · rw [← hsplit k]
          exact hcomplete
        · intro j hj hlt
          rw [← hsplit j]
          exact hfirst (j + 1) (by omega) (by omega)

/-- A collection that no payload completes goes on after them. -/
theorem collect_incomplete (collected : List Response) (h : Delivers l payloads l₂)
    (hparse : payloads.map (Response.parseStream decodeStream) = records.map Except.ok)
    (hnever : ∀ j, 0 < j → j ≤ records.length →
      ¬ requestIsComplete request (collected ++ answersIn request (records.take j)) = true) :
    exec (collect decodeStream request (payloads.length + turns) collected) l =
      exec (collect decodeStream request turns (collected ++ answersIn request records)) l₂ := by
  induction h generalizing records collected with
  | nil l =>
      have hempty : records = [] := by simpa using hparse.symm
      subst hempty
      simp [answersIn]
  | @cons l l₁ l₂ completed rest hnext hrest ih =>
      obtain ⟨responses, others, rfl⟩ : ∃ responses others, records = responses :: others := by
        cases records with
        | nil => simp at hparse
        | cons responses others => exact ⟨responses, others, rfl⟩
      rw [List.map_cons, List.map_cons, List.cons.injEq] at hparse
      have hsplit := collected_take_succ request collected responses others
      have hone : ¬ requestIsComplete request
          (collected ++ answersIn request [responses]) = true := by
        simpa using hnever 1 (by omega) (by simp)
      have hturns : (completed.payload :: rest).length + turns = rest.length + turns + 1 := by
        rw [List.length_cons]
        omega
      rw [hturns, collect_step hnext hparse.1, if_neg hone, ih _ hparse.2]
      · have hall := hsplit others.length
        rw [List.take_succ_cons, List.take_length] at hall
        rw [hall]
      · intro j hj hle
        rw [← hsplit j]
        exact hnever (j + 1) (by omega) (by simpa using hle)

/-- Whatever ends the collection, all it has collected are answers. -/
theorem collect_answers (turns : Nat) (hcollected : ∀ r ∈ collected, Answers request r) :
    Triple (fun _ => True) (collect decodeStream request turns collected)
      (fun records _ => ∀ r ∈ records, Answers request r) (fun _ _ => True) := by
  induction turns generalizing collected with
  | zero => exact Triple.throw fun _ _ => trivial
  | succ turns ih =>
      rw [collect]
      have hany : Triple (fun _ => True) (attempt nextPayload : Call (Except Halt Completed))
          (fun _ _ => True) (fun _ _ => True) :=
        Triple.intro (fun _ _ _ _ _ => trivial) fun _ _ _ _ _ => trivial
      refine Triple.bind hany fun r => ?_
      rcases r with halt | completed
      · split
        · split
          · exact Triple.throw fun _ _ => trivial
          · exact Triple.pure fun _ _ => hcollected
        · exact Triple.throw fun _ _ => trivial
        · rename_i hok
          cases hok
      · dsimp only
        have hpayload : Triple (fun _ => True)
            (collectPayload decodeStream request collected completed)
            (fun records _ => ∀ r ∈ records, Answers request r) (fun _ _ => True) := by
          unfold collectPayload
          split
          · exact Triple.throw fun _ _ => trivial
          · refine Triple.pure fun _ _ r hr => ?_
            rcases List.mem_append.mp hr with hold | hnew
            · exact hcollected r hold
            · exact (responseMatchesRequest_iff r request).mp (List.mem_filter.mp hnew).2
        refine Triple.bind hpayload fun records => Triple.of_state fun l hrecords => ?_
        split
        · exact Triple.pure fun _ _ => hrecords
        · exact (ih hrecords).conseq (fun _ _ => trivial) (fun _ _ h => h) fun _ _ h => h

end

section

variable (m : Minicbor)
variable (decodeStream : List UInt8 → Except Protocol.ProtocolError (List Item))

/-- After the request has been sent, it is the collection. -/
theorem requestReadOnly_sent {request : Request} {l l₁ : Life}
    (hsent : exec (sendReadOnly m request) l = (.ok (), l₁)) :
    exec (requestReadOnly m decodeStream request) l =
      exec (collect decodeStream request (l₁.script.length + 1) []) l₁ := by
  rw [requestReadOnly, exec_bind_ok hsent, exec_bind, exec_get]

/-- **Diagnostic collection is exact.** What is returned are answers; a complete collection without
a rejection has what was asked for, and stays complete; the collection ends with the first payload
that completes it, or, if there is none, with the deadline that elapses after the payloads. -/
theorem request_read_only_exact (request : Request) :
    (∀ l l' records, exec (requestReadOnly m decodeStream request) l = (.ok records, l') →
      (∀ r ∈ records, Answers request r) ∧
      (requestIsComplete request records = true → (∀ r ∈ records, isRejection r = false) →
        Covers request records)) ∧
    (∀ records records', records ⊆ records' → requestIsComplete request records = true →
      requestIsComplete request records' = true) ∧
    ∀ l l₁ l₂ payloads records, exec (sendReadOnly m request) l = (.ok (), l₁) →
      Delivers l₁ payloads l₂ →
      payloads.map (Response.parseStream decodeStream) = records.map Except.ok →
      (∀ k, 0 < k → k ≤ records.length →
        requestIsComplete request (answersIn request (records.take k)) = true →
        (∀ j, 0 < j → j < k →
          ¬ requestIsComplete request (answersIn request (records.take j)) = true) →
        (exec (requestReadOnly m decodeStream request) l).1 =
          .ok (answersIn request (records.take k))) ∧
      ((∀ j, 0 < j → j ≤ records.length →
          ¬ requestIsComplete request (answersIn request (records.take j)) = true) →
        ∀ operation l₃, exec nextPayload l₂ = (.error (.failed (.timeout operation)), l₃) →
        (exec (requestReadOnly m decodeStream request) l).1 =
          if answersIn request records = [] then .error (.failed (.timeout operation))
          else .ok (answersIn request records)) := by
  refine ⟨?_, fun _ _ => requestIsComplete_mono, ?_⟩
  · intro l l' records hrun
    obtain ⟨_, l₁, hsent, _⟩ := exec_bind_inv hrun
    rw [requestReadOnly_sent m decodeStream hsent] at hrun
    have hanswers : ∀ r ∈ records, Answers request r :=
      (collect_answers _ (by simp)).ok trivial hrun
    exact ⟨hanswers, covers_of_complete hanswers⟩
  · intro l l₁ l₂ payloads records hsent hdelivers hparse
    have hlength := hdelivers.length_le
    rw [requestReadOnly_sent m decodeStream hsent]
    constructor
    · intro k hpos hk hcomplete hfirst
      exact collect_complete [] hdelivers hparse (by omega) hpos hk hcomplete hfirst
    · intro hnever operation l₃ htimeout
      obtain ⟨spare, hspare⟩ : ∃ spare, l₁.script.length + 1 = payloads.length + (spare + 1) :=
        ⟨l₁.script.length - payloads.length, by omega⟩
      rw [hspare, collect_incomplete [] hdelivers hparse hnever]
      exact collect_timeout htimeout

end

/-- The solar voltage and current of instance 3. -/
def solarInput : Request := .getValues 3 [0xedbb, 0xedbd]

def voltagePayload : List UInt8 := [0x08, 0x03, 0x19, 0xed, 0xbb, 0x42, 0xf0, 0x0a]

def currentPayload : List UInt8 := [0x08, 0x03, 0x19, 0xed, 0xbd, 0x42, 0x32, 0x00]

/-- A session subscribed to instance 3, and a device that answers each register by itself. -/
def answering : Life where
  session := { VeSmartBleSession.new with
    transport := ⟨.committed, some fun _ => []⟩
    opened := true
    negotiated := true
    subscribedInstance := some 3 }
  sent := 0
  log := []
  script := [.reply (.ok []), .sends ⟨.lastData, voltagePayload⟩, .take .lastData,
    .sends ⟨.lastData, currentPayload⟩, .take .lastData]
  unanswered := 0


/-- The collection goes on after the first answer and ends with the second. -/
theorem solarInput_collected : ∃ l₁ l₂ records,
    exec (sendReadOnly .byHeads solarInput) answering = (.ok (), l₁) ∧
    Delivers l₁ [voltagePayload, currentPayload] l₂ ∧
    records = [.value 3 0xedbb [0xf0, 0x0a], .value 3 0xedbd [0x32, 0x00]] ∧
    (exec (requestReadOnly .byHeads Minicbor.byHeads.decodeStream solarInput) answering).1 =
      .ok records := by
  let l₁ := (exec (sendReadOnly .byHeads solarInput) answering).2
  let l₂ := (exec nextPayload l₁).2
  have hsent : exec (sendReadOnly .byHeads solarInput) answering = (.ok (), l₁) := rfl
  have hvoltage : exec nextPayload l₁ = (.ok ⟨voltagePayload, 0⟩, l₂) := rfl
  have hcurrent : exec nextPayload l₂ = (.ok ⟨currentPayload, 1⟩, (exec nextPayload l₂).2) := rfl
  have hdelivers : Delivers l₁ [voltagePayload, currentPayload] (exec nextPayload l₂).2 :=
    .cons hvoltage (.cons hcurrent (.nil _))
  have hparse : [voltagePayload, currentPayload].map
      (Response.parseStream Minicbor.byHeads.decodeStream) =
        [[.value 3 0xedbb [0xf0, 0x0a]], [.value 3 0xedbd [0x32, 0x00]]].map Except.ok := by
    have hfirst : Minicbor.byHeads.decodeStream voltagePayload =
        .ok [.uint 0x08, .uint 3, .uint 0xedbb, .bytes [0xf0, 0x0a]] := by
      refine decodeStream_made byHeads_conforms ?_ ?_
      · exact .uint 8 (.uint 3 (.uint 0xedbb (.bytes [0xf0, 0x0a] .nil)))
      · constructor <;> decide
    have hsecond : Minicbor.byHeads.decodeStream currentPayload =
        .ok [.uint 0x08, .uint 3, .uint 0xedbd, .bytes [0x32, 0x00]] := by
      refine decodeStream_made byHeads_conforms ?_ ?_
      · exact .uint 8 (.uint 3 (.uint 0xedbd (.bytes [0x32, 0x00] .nil)))
      · constructor <;> decide
    simp only [List.map_cons, List.map_nil, Response.parseStream, hfirst, hsecond]
    rfl
  refine ⟨l₁, _, _, hsent, hdelivers, rfl, ?_⟩
  have hexact := request_read_only_exact .byHeads Minicbor.byHeads.decodeStream solarInput
  refine (hexact.2.2 answering l₁ _ _ _ hsent hdelivers hparse).1 2 (by decide) (by decide)
    (by decide) fun j hpos hj => ?_
  obtain rfl : j = 1 := by omega
  decide

end VeSmart.Client
