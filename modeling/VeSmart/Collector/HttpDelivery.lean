import VeSmart.Collector.Deliveries
import VeSmart.Metrics.Failures
import VeSmart.Protocol.Minicbor

set_option autoImplicit false

/-! # Delivery over HTTP (`victron-collector/src/adapters/delivery.rs`)

The adapter imports a payload and tells the service how that went. The service only asks whether
the error is to be retried; `deliver_explained` says what the answer means for the exchange with
the server, and `http_ledger` what it means for the batches in the spool. -/

namespace VeSmart.Collector

open VeSmart.Lib VeSmart.Domain VeSmart.Metrics VeSmart.Service
open VeSmart.Protocol (utf8 textOf textOf_iff)
open VeSmart.Storage (Db SpoolRow Bumped deliveredTotal droppedTotal)

/-- The text of an error of the configuration. -/
def displayConfigError (debug : String → String) : ClientConfigError → String
  | .unsupportedScheme s => "unsupported scheme " ++ debug s ++
      ": only http:// is compiled in (no TLS for the internal endpoint)"
  | .missingHost => "URL has no host"
  | .invalidPort p => "invalid port " ++ debug p
  | .unsupportedHost h => "unsupported host " ++ debug h ++ " (IPv6/brackets not supported)"
  | .invalidHost h => "invalid host " ++ debug h ++
      ": must be a plain IPv4 address or DNS name without userinfo, whitespace, or control " ++
      "characters"
  | .invalidPath p => "invalid path " ++ debug p ++
      ": must start with '/' and contain only safe request-line bytes (no control characters, " ++
      "whitespace, or reserved delimiters)"
  | .queryOrFragment u => "URL " ++ debug u ++
      " contains a query or fragment; the import client never sends one"

/-- A client whose error bodies fit into the sizes of the target. -/
structure VictoriaMetricsDelivery (rt : Metrics.Runtime) where
  client : VictoriaMetricsClient
  limit : client.maxErrorBody < rt.usizeMax

theorem new_maxErrorBody {url : String} {c : VictoriaMetricsClient}
    (h : VictoriaMetricsClient.new url = .ok c) : c.maxErrorBody = maxErrorBodyBytes := by
  unfold VictoriaMetricsClient.new at h
  rcases hurl : parseHttpUrl url with e | ⟨host, port, path⟩
  · rw [hurl] at h
    cases h
  · rw [hurl] at h
    cases h
    rfl

def VictoriaMetricsDelivery.new (rt : Metrics.Runtime) (hsize : maxErrorBodyBytes < rt.usizeMax)
    (url : String) (requestTimeout : Duration) :
    Except DeliveryError (VictoriaMetricsDelivery rt) :=
  match hclient : VictoriaMetricsClient.new url with
  | .error e => .error (.rejected (displayConfigError rt.debug e))
  | .ok c => .ok ⟨{ c with connectTimeout := requestTimeout, readTimeout := requestTimeout },
      (new_maxErrorBody hclient).symm ▸ hsize⟩

def mapFailure (failure : ImportFailure) : DeliveryError :=
  match failure.category, failure.status with
  | .network, _ => .transport failure.message
  | .timeout, _ => .timeout
  | .malformedResponse, _ => .malformedResponse failure.message
  | .http, some status => .http status
  | .http, none => .rejected failure.message

namespace VictoriaMetricsDelivery

variable {rt : Metrics.Runtime}

theorem import_isSome (d : VictoriaMetricsDelivery rt) (peer : Peer) (body : String) :
    (d.client.importBatch rt peer body).isSome = true := by
  obtain ⟨outcome, houtcome, -⟩ := @importBatch_ends rt d.client peer body d.limit
  rw [houtcome]
  rfl

/-- `deliver`; reading a response does not panic. -/
def deliver (d : VictoriaMetricsDelivery rt) (payload : List UInt8) (peer : Peer) :
    Except DeliveryError Unit :=
  match textOf payload with
  | none => .error (.rejected "metrics payload is not UTF-8")
  | some body =>
      match (d.client.importBatch rt peer body).get (d.import_isSome peer body) with
      | .success => .ok ()
      | .retryable failure => .error (mapFailure failure)
      | .permanent failure => .error (mapFailure failure)

/-! ## What an answer means -/

/-- What the result of a delivery says of the payload and of the exchange. -/
inductive Ends (d : VictoriaMetricsDelivery rt) (payload : List UInt8) (peer : Peer) :
    Except DeliveryError Unit → Prop where
  | accepted {body : String} {raw : RawResponse} (hpayload : payload = utf8 body)
      (hread : Responded rt d.client peer body raw) (hstatus : AcceptedStatus raw.status) :
      Ends d payload peer (.ok ())
  | kept {body : String} {e : DeliveryError} (hpayload : payload = utf8 body)
      (hread : ∀ raw, Responded rt d.client peer body raw → BusyStatus raw.status)
      (hretry : e.retryable = true) : Ends d payload peer (.error e)
  | refused {body : String} {raw : RawResponse} {e : DeliveryError} (hpayload : payload = utf8 body)
      (hread : Responded rt d.client peer body raw) (haccepted : ¬ AcceptedStatus raw.status)
      (hbusy : ¬ BusyStatus raw.status) (hretry : e.retryable = false) :
      Ends d payload peer (.error e)
  | garbled {e : DeliveryError} (hpayload : ∀ body, payload ≠ utf8 body)
      (hretry : e.retryable = false) : Ends d payload peer (.error e)

theorem retryable_http {status : UInt16} :
    (DeliveryError.http status).retryable = true ↔ BusyStatus status := by
  simp [DeliveryError.retryable, BusyStatus, or_assoc]

theorem retryable_mapFailure {failure : ImportFailure} (h : failure.category ≠ .http) :
    (mapFailure failure).retryable = true := by
  obtain ⟨category, status, message⟩ := failure
  cases category with
  | http => exact absurd rfl h
  | network => rfl
  | timeout => rfl
  | malformedResponse => rfl

theorem responded_unique {c : VictoriaMetricsClient} {peer : Peer} {body : String}
    {raw raw' : RawResponse} (h : Responded rt c peer body raw)
    (h' : Responded rt c peer body raw') : raw = raw' := by
  obtain ⟨r, hr⟩ := h.read
  obtain ⟨r', hr'⟩ := h'.read
  cases hr.symm.trans hr'
  rfl

/-- A delivery is told as what it was. -/
theorem deliver_explained (d : VictoriaMetricsDelivery rt) (payload : List UInt8) (peer : Peer) :
    d.Ends payload peer (d.deliver payload peer) := by
  unfold deliver
  rcases htext : textOf payload with _ | body
  · refine .garbled (fun body hpayload => ?_) rfl
    rw [(textOf_iff payload body).mpr hpayload] at htext
    cases htext
  · have hpayload := (textOf_iff payload body).mp htext
    obtain ⟨outcome, houtcome, hends⟩ := @importBatch_ends rt d.client peer body d.limit
    simp only [houtcome, Option.get_some]
    cases hends with
    | accepted hread hstatus => exact .accepted hpayload hread hstatus
    | busy hread hstatus =>
        refine .kept hpayload (fun raw' hread' => ?_) (retryable_http.mpr hstatus)
        rwa [← responded_unique hread hread']
    | refused hread haccepted hbusy =>
        refine .refused hpayload hread haccepted hbusy ?_
        exact Bool.eq_false_iff.mpr fun hretry => hbusy (retryable_http.mp hretry)
    | broken hcategory hread =>
        exact .kept hpayload (fun raw hraw => absurd hraw (hread raw))
          (retryable_mapFailure hcategory)

end VictoriaMetricsDelivery

/-! ## The spool behind it -/

section

variable {ω : Type} {rt : Metrics.Runtime}

/-- The collector `k`, delivering over HTTP to the peers that its environment brings. -/
def overHttp (d : VictoriaMetricsDelivery rt) (peer : ω → Peer × ω)
    (k : Service.Collector ω SqliteWorld) : Service.Collector ω SqliteWorld :=
  { k with ports := { k.ports with
      deliver := fun payload env => (d.deliver payload (peer env).1, (peer env).2) } }

/-- Why the delivery of `payload` to `peer` ends with the batch removed: the answer of this very
peer, or the attempts being spent. The counters are `kv` before and `kv'` after it. -/
inductive Reason (d : VictoriaMetricsDelivery rt) (peer : Peer) (payload : List UInt8)
    (spent : Prop) (kv kv' : String → Option Storage.KvRow) : Prop where
  | accepted {body : String} {raw : RawResponse} (hpayload : payload = utf8 body)
      (hread : Responded rt d.client peer body raw) (hstatus : AcceptedStatus raw.status)
      (hcount : Bumped kv kv' deliveredTotal)
  | refused {body : String} {raw : RawResponse} (hpayload : payload = utf8 body)
      (hread : Responded rt d.client peer body raw) (haccepted : ¬ AcceptedStatus raw.status)
      (hbusy : ¬ BusyStatus raw.status) (hcount : Bumped kv kv' droppedTotal)
  | garbled (hpayload : ∀ body, payload ≠ utf8 body) (hcount : Bumped kv kv' droppedTotal)
  | spent {body : String} (hpayload : payload = utf8 body)
      (hread : ∀ raw, Responded rt d.client peer body raw → BusyStatus raw.status)
      (hlast : spent) (hcount : Bumped kv kv' droppedTotal)

/-- The batch leaves the spool from `m` to `m'`: its delivery has been answered, and the peer that
the delivery met is the reason. -/
def Leaves (d : VictoriaMetricsDelivery rt) (peer : ω → Peer × ω)
    (k : Service.Collector ω SqliteWorld) (s : SqliteStorage) (m m' : Met ω SqliteWorld)
    (row : SpoolRow) : Prop :=
  ∃ env claim, m.met = some env ∧
    m.life.point = .answered claim (d.deliver row.payload (peer env).1) ∧
    (claim.id.toNat : Int) = row.id ∧ claim.payload = row.payload ∧
    Reason d (peer env).1 row.payload (LastAttempt k s row) m.life.store.db.kv
      m'.life.store.db.kv

/-- The batch is in the spool, with its payload. -/
def StillQueued (row : SpoolRow) (m : Met ω SqliteWorld) : Prop :=
  ∃ r ∈ m.life.store.db.spool.rows, r.id = row.id ∧ r.payload = row.payload

/-- What becomes of a batch along the states of a run: it stays, or it leaves for a reason and is
never there again. -/
inductive BatchFate (d : VictoriaMetricsDelivery rt) (peer : ω → Peer × ω)
    (k : Service.Collector ω SqliteWorld) (s : SqliteStorage) (row : SpoolRow) :
    List (Met ω SqliteWorld) → Prop where
  | stays {run : List (Met ω SqliteWorld)} (hqueued : ∀ m ∈ run, StillQueued row m) :
      BatchFate d peer k s row run
  | leaves {before after : List (Met ω SqliteWorld)} {m m' : Met ω SqliteWorld} {r : SpoolRow}
      (hqueued : ∀ q ∈ before, StillQueued row q) (hrow : r ∈ m.life.store.db.spool.rows)
      (hid : r.id = row.id) (hpayload : r.payload = row.payload)
      (hleaves : Leaves d peer k s m m' r)
      (hgone : ∀ q ∈ m' :: after, ∀ r' ∈ q.life.store.db.spool.rows, r'.id ≠ row.id) :
      BatchFate d peer k s row (before ++ m :: m' :: after)

variable {d : VictoriaMetricsDelivery rt} {peer : ω → Peer × ω}
variable {k : Service.Collector ω SqliteWorld} {s : SqliteStorage} {m m' : Met ω SqliteWorld}

/-- An answered row was answered by the peer that its delivery met. -/
theorem Answered.met {row : SpoolRow} {result : Except DeliveryError Unit}
    (h : Answered (overHttp d peer k) m.life row result)
    (hmet : m.Truthful (overHttp d peer k)) :
    ∃ env claim, m.met = some env ∧ m.life.point = .answered claim result ∧
      (claim.id.toNat : Int) = row.id ∧ claim.payload = row.payload ∧
      result = d.deliver row.payload (peer env).1 := by
  obtain ⟨claim, hpoint, hid, hpayload, -, -⟩ := h
  obtain ⟨env, henv, hresult⟩ := hmet claim result hpoint
  exact ⟨env, claim, henv, hpoint, hid, hpayload, hpayload ▸ hresult⟩

/-- The step: a batch that leaves the spool leaves it for one of the reasons. -/
theorem Settled.leaves (h : Settled (overHttp d peer k) s m.life m'.life)
    (hmet : m.Truthful (overHttp d peer k)) {row : SpoolRow}
    (hrow : row ∈ m.life.store.db.spool.rows)
    (hgone : ∀ r ∈ m'.life.store.db.spool.rows, r.id ≠ row.id) : Leaves d peer k s m m' row := by
  rcases h.removed row hrow hgone with ⟨hcount, hanswered⟩ | ⟨hcount, e, hanswered, hwhy⟩
  · obtain ⟨env, claim, henv, hpoint, hid, hpayload, hresult⟩ := hanswered.met hmet
    refine ⟨env, claim, henv, hresult ▸ hpoint, hid, hpayload, ?_⟩
    have hends := d.deliver_explained row.payload (peer env).1
    rw [← hresult] at hends
    cases hends with
    | accepted hpayload hread hstatus => exact .accepted hpayload hread hstatus hcount
  · obtain ⟨env, claim, henv, hpoint, hid, hpayload, hresult⟩ := hanswered.met hmet
    refine ⟨env, claim, henv, hresult ▸ hpoint, hid, hpayload, ?_⟩
    have hends := d.deliver_explained row.payload (peer env).1
    rw [← hresult] at hends
    cases hends with
    | kept hpayload hread hkept =>
        have hlast : LastAttempt k s row := by
          rcases hwhy with hretry | hlast
          · rw [hretry] at hkept
            cases hkept
          · exact hlast
        exact .spent hpayload hread hlast hcount
    | refused hpayload hread haccepted hbusy hrefused =>
        exact .refused hpayload hread haccepted hbusy hcount
    | garbled hpayload hrefused => exact .garbled hpayload hcount

theorem BatchFate.cons {row : SpoolRow} {run : List (Met ω SqliteWorld)}
    (h : BatchFate d peer k s row run) (hqueued : StillQueued row m) :
    BatchFate d peer k s row (m :: run) := by
  cases h with
  | stays hrun =>
      refine .stays fun q hq => ?_
      rcases List.mem_cons.mp hq with rfl | hq
      · exact hqueued
      · exact hrun q hq
  | @leaves before after m₁ m₂ r hbefore hrow hid hpayload hleaves hgone =>
      show BatchFate d peer k s row ((m :: before) ++ m₁ :: m₂ :: after)
      refine .leaves (fun q hq => ?_) hrow hid hpayload hleaves hgone
      rcases List.mem_cons.mp hq with rfl | hq
      · exact hqueued
      · exact hbefore q hq

/-- The run, by induction on its states: a batch stays in the spool until it has a reason to
leave, and its id is not used again. -/
theorem Books.fate (hstorage : k.ports.storage = s.port) {row : SpoolRow}
    {later : List (Met ω SqliteWorld)} (hbooks : Books (overHttp d peer k) s m.life)
    (hmet : m.Truthful (overHttp d peer k)) (hqueued : StillQueued row m)
    (hlater : (m :: later).IsChain (MetStep (overHttp d peer k))) :
    BatchFate d peer k s row (m :: later) := by
  have hport : (overHttp d peer k).ports.storage = s.port := hstorage
  induction later generalizing m with
  | nil => exact .stays fun q hq => List.mem_singleton.mp hq ▸ hqueued
  | cons m' later ih =>
      obtain ⟨hstep, hrest⟩ := List.isChain_cons_cons.mp hlater
      have hsettled := hbooks.settled hport hstep.lifeStep
      have hbooks' := hbooks.step hport hstep.lifeStep
      obtain ⟨r, hr, hid, hpayload⟩ := id hqueued
      by_cases hstays : ∃ r' ∈ m'.life.store.db.spool.rows, r'.id = r.id
      · obtain ⟨r', hr', hsame⟩ := hstays
        have hqueued' : StillQueued row m' :=
          ⟨r', hr', hsame.trans hid, (hsettled.payload r hr r' hr' hsame).trans hpayload⟩
        exact (ih hbooks' hstep.truthful hqueued' hrest).cons hqueued
      · have hgone : ∀ r' ∈ m'.life.store.db.spool.rows, r'.id ≠ r.id :=
          fun r' hr' hsame => hstays ⟨r', hr', hsame⟩
        have hissued := (issued_invariant s.config.1 r.id).life hport hstep.lifeStep
          ⟨hbooks.sound, m.life.store.db.spool.ids_le_seq r hr⟩
        have hretired : Retired row.id m'.life.store.db := hid ▸ ⟨hissued.2, hgone⟩
        have hafter := hrest.induction
          (fun q => SpoolSound s.config.1 q.life.store.db ∧ Retired row.id q.life.store.db) _
          (fun _ _ hnext h => (Retired.invariant _ _).life hport hnext.lifeStep h)
          fun _ => ⟨hbooks'.sound, hretired⟩
        show BatchFate d peer k s row ([] ++ m :: m' :: later)
        exact .leaves (fun _ hq => nomatch hq) hr hid hpayload (hsettled.leaves hmet hr hgone)
          fun q hq => (hafter q hq).2.gone

/-- **No batch is lost on the way to the server.** In every run of the service over a fresh SQLite
spool, with crashes and restarts, a batch that is queued at some time stays queued with its payload,
until one step of the run removes it for good: its delivery has been answered, and the server that
it met answered with a 2xx status to the end, or refused it, or its attempts were spent. -/
theorem http_ledger (d : VictoriaMetricsDelivery rt) (peer : ω → Peer × ω)
    (k : Service.Collector ω SqliteWorld) (s : SqliteStorage)
    (hstorage : k.ports.storage = s.port) (calls : List CallEnv) (m : Met ω SqliteWorld)
    (later : List (Met ω SqliteWorld))
    (hrun : Relation.ReflTransGen (MetStep (overHttp d peer k))
      ⟨.start ⟨Db.empty, calls⟩, none⟩ m)
    (hlater : (m :: later).IsChain (MetStep (overHttp d peer k))) :
    ∀ row ∈ m.life.store.db.spool.rows, BatchFate d peer k s row (m :: later) := by
  intro row hrow
  have hport : (overHttp d peer k).ports.storage = s.port := hstorage
  have hstart : Books (overHttp d peer k) s (.start ⟨Db.empty, calls⟩) :=
    Books.start (SpoolSound.empty s.config.1)
  have hlives : Relation.ReflTransGen (LifeStep (overHttp d peer k))
      (.start ⟨Db.empty, calls⟩) m.life :=
    hrun.lift Met.life fun _ _ h => h.lifeStep
  have hmet : m.Truthful (overHttp d peer k) := by
    cases hrun with
    | refl => exact fun _ _ hpoint => nomatch hpoint
    | tail _ hstep => exact hstep.truthful
  exact (hstart.run hport hlives).fate hstorage hmet ⟨row, hrow, rfl, rfl⟩ hlater

end

/-- A client of a server that cannot be reached. -/
def unreachedClient : VictoriaMetricsDelivery target64 := ⟨defaultClient, by decide⟩

def noServer (env : Sample) : Peer × Sample :=
  (⟨.timedOut, fun _ => .done, fun _ => [], false⟩, env)

def unreached : Service.Collector Sample SqliteWorld := overHttp unreachedClient noServer scripted

def unreachedCycle : CycleContext Sample SqliteWorld :=
  .new (sunny 1000000000) ⟨Db.empty, []⟩

/-- The batch of a cycle has a fate in the drains after it, which do not reach the server. -/
theorem unreached_ledger : ∃ m later row,
    Relation.ReflTransGen (MetStep unreached) ⟨.start ⟨Db.empty, []⟩, none⟩ m ∧
    (m :: later).IsChain (MetStep unreached) ∧ row ∈ m.life.store.db.spool.rows ∧
    BatchFate unreachedClient noServer scripted scriptedStorage row (m :: later) := by
  obtain ⟨l, hrun, hstore, htally, hpoint⟩ := SpoolProgram.cycle.lives (k := unreached)
    (c := unreachedCycle) ⟨.start ⟨Db.empty, []⟩, .refl, rfl, rfl, rfl⟩
  have hqueued : l.store.db.spool.rows ≠ [] := by
    rw [hstore]
    decide +kernel
  obtain ⟨row, hrow⟩ := List.exists_mem_of_ne_nil _ hqueued
  obtain ⟨l', hdrain, -⟩ :=
    (SpoolProgram.drain 3).lives ⟨l, .refl, hstore, htally, hpoint⟩
  obtain ⟨met, hnoted⟩ := lives_noted hrun none
  obtain ⟨met', hnoted'⟩ := lives_noted hdrain met
  obtain ⟨later, hlater, -⟩ := List.exists_isChain_cons_of_relationReflTransGen hnoted'
  exact ⟨⟨l, met⟩, later, row, hnoted, hlater, hrow, http_ledger unreachedClient noServer scripted
    scriptedStorage rfl [] ⟨l, met⟩ later hnoted hlater row hrow⟩

end VeSmart.Collector
