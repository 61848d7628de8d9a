import VeSmart.Service.Durable

set_option autoImplicit false

/-! # The commit of a cycle

A cycle calls `commit_acquisition` at most once. `CycleWrites` says with what, and on which
storage: everything else that it does to the storage are reads and spool operations. Over a
storage with the commit contract, `DurableStep` is what this means for energy and identity. -/

namespace VeSmart.Service

open VeSmart.Lib VeSmart.Domain

section

variable {ω σ : Type}

/-- A storage operation other than a commit. -/
inductive StoreStep (port : StoragePort σ) (store : σ) : σ → Prop
  | read {store' : σ} (h : ReadStep port store store') : StoreStep port store store'
  | spool {store' : σ} (h : SpoolCallStep port store store') : StoreStep port store store'

def Event.isCommit : Event σ → Bool
  | .commit _ _ _ => true
  | _ => false

/-- No commit was called between the two contexts. -/
structure Unwritten (k : Collector ω σ) (start c : CycleContext ω σ) : Prop where
  store : Relation.ReflTransGen (StoreStep k.ports.storage) start.store c.store
  trace : ∃ events, c.trace = start.trace ++ events ∧ ∀ e ∈ events, e.isCommit = false

variable {k : Collector ω σ} {start mid c : CycleContext ω σ}

theorem Unwritten.of_events {events : List (Event σ)}
    (hstore : Relation.ReflTransGen (StoreStep k.ports.storage) start.store c.store)
    (htrace : c.trace = start.trace ++ events) (hevents : ∀ e ∈ events, e.isCommit = false) :
    Unwritten k start c :=
  ⟨hstore, events, htrace, hevents⟩

theorem Unwritten.trans (h₁ : Unwritten k start mid) (h₂ : Unwritten k mid c) :
    Unwritten k start c := by
  obtain ⟨first, hfirst, hnone₁⟩ := h₁.trace
  obtain ⟨second, hsecond, hnone₂⟩ := h₂.trace
  refine ⟨h₁.store.trans h₂.store, first ++ second, ?_, ?_⟩
  · calc c.trace = mid.trace ++ second := hsecond
      _ = start.trace ++ (first ++ second) := by rw [hfirst, List.append_assoc]
  · intro e he
    rcases List.mem_append.mp he with hmem | hmem
    · exact hnone₁ e hmem
    · exact hnone₂ e hmem

theorem Event.isCommit_of_inert {e : Event σ} (h : e.quiet = true) : e.isCommit = false := by
  cases e with
  | commit energy commit result => cases h
  | _ => rfl

/-- Nothing at all was done to the storage. -/
theorem Unwritten.of_store (hstore : c.store = start.store)
    (htrace : ∃ events, c.trace = start.trace ++ events ∧ ∀ e ∈ events, e.isCommit = false) :
    Unwritten k start c :=
  ⟨by rw [hstore], htrace⟩

theorem Reached.unwritten {p : CyclePhase} (h : Reached start p c) : Unwritten k start c := by
  obtain ⟨events, htrace, hquiet⟩ := h.trace
  exact .of_store h.store ⟨events, htrace, fun e he => Event.isCommit_of_inert (hquiet e he)⟩

theorem Released.unwritten {ok : Bool} (h : Released start ok c) : Unwritten k start c := by
  refine .of_store h.store ⟨_, h.trace, ?_⟩
  cases ok <;> simp [Event.isCommit]

theorem TornDown.unwritten {p : CyclePhase} (h : TornDown start p c) : Unwritten k start c := by
  obtain ⟨entered, hentered, htrace⟩ := h.trace
  refine .of_store h.store ⟨entered ++ [.ble .disconnect, .phase p start.store], ?_, ?_⟩
  · rw [htrace, List.append_assoc]
  · rcases hentered with rfl | rfl <;> simp [Event.isCommit]

theorem SpoolWork.unwritten (h : SpoolWork k start c) : Unwritten k start c := by
  obtain ⟨events, htrace, hevents⟩ := h.trace
  refine .of_events (h.store.lift id fun _ _ => .spool) htrace ?_
  intro e he
  rcases hevents e he with rfl | ⟨payload, rfl⟩ <;> rfl

theorem Delivering.unwritten {duplicate : Bool} (h : Delivering k duplicate start c) :
    Unwritten k start c := by
  unfold Delivering at h
  split at h
  · obtain ⟨-, hstore, -, htrace⟩ := h
    exact .of_store hstore ⟨[], by simp [htrace], by simp⟩
  · obtain ⟨n, env, hwork⟩ := h
    have hentered : Unwritten k start { start with
        env := env, state := ⟨.delivering, n⟩,
        trace := start.trace ++ [.phase .delivering start.store] } :=
      .of_store rfl ⟨_, rfl, by simp [Event.isCommit]⟩
    exact hentered.trans hwork.unwritten

/-- A pass over the spool calls no commit and leaves the machine where it is. -/
theorem drainSpool_unwritten {ε : Type} (fuel : Nat) (delivered : UInt32) (start : CycleContext ω σ)
    (E : ε → CycleContext ω σ → Prop) :
    Triple (fun c => c = start) (drainSpool k fuel delivered)
      (fun _ c => Unwritten k start c ∧ c.state = start.state) E := by
  have hinv : SpoolInvariant k fun c => Unwritten k start c ∧ c.state = start.state := by
    have hevent : ∀ c (e : Event σ), e.isCommit = false →
        Unwritten k start c ∧ c.state = start.state →
        Unwritten k start { c with trace := c.trace ++ [e] } ∧ c.state = start.state := by
      intro c e he ⟨hc, hstate⟩
      exact ⟨hc.trans (.of_store rfl ⟨[e], rfl, by simpa using he⟩), hstate⟩
    refine ⟨?_, ?_, ?_, ?_, ?_, ?_⟩
    · intro c env ⟨hc, hstate⟩
      exact ⟨⟨hc.store, hc.trace⟩, hstate⟩
    · intro c store ⟨hc, hstate⟩ hstep
      exact ⟨⟨hc.store.tail (.spool hstep), hc.trace⟩, hstate⟩
    · intro c ok ⟨hc, hstate⟩
      exact ⟨⟨hc.store, hc.trace⟩, hstate⟩
    · intro c ⟨hc, hstate⟩
      exact ⟨⟨hc.store, hc.trace⟩, hstate⟩
    · intro c hc
      exact hevent c _ rfl hc
    · intro c payload hc
      exact hevent c _ rfl hc
  exact (hinv.drainSpool fuel delivered).conseq
    (fun c hc => by rw [hc]; exact ⟨⟨.refl, [], by simp, by simp⟩, rfl⟩)
    (fun _ _ h => h) (fun _ _ h => h)

/-! ## The one call -/

/-- The call of `commit_acquisition` in a cycle from `start`: the energy state is read, energy is
resolved, the batch is rendered, and `before` is `start`'s storage after reads only. -/
structure CommitIssued (k : Collector ω σ) (start : CycleContext ω σ) (sample : Sample)
    (prev : Option EnergyState) (payload : List UInt8) (before : σ)
    (result : Except StorageError AcquisitionCommitOutcome) (after : σ) : Prop where
  anchor : (k.ports.storage.energyState start.store).1 = .ok prev
  reads : Relation.ReflTransGen (ReadStep k.ports.storage) start.store before
  rendered : ∃ health, Rendered k sample (k.energy.apply prev sample) health payload
  call : k.ports.storage.commitAcquisition
    (acquisitionCommit k sample prev (k.energy.apply prev sample) payload) before = (result, after)

/-- **What a cycle does to the storage**: no commit at all, or exactly one. -/
inductive CycleWrites (k : Collector ω σ) (start : CycleContext ω σ) : CycleContext ω σ → Prop
  | none {c : CycleContext ω σ} (h : Unwritten k start c) : CycleWrites k start c
  | once {sample : Sample} {prev : Option EnergyState} {payload : List UInt8} {before after : σ}
      {result : Except StorageError AcquisitionCommitOutcome} {mid c : CycleContext ω σ}
      {earlier : List (Event σ)}
      (hcall : CommitIssued k start sample prev payload before result after)
      (hearlier : ∀ e ∈ earlier, e.isCommit = false) (hstore : mid.store = after)
      (htrace : mid.trace = start.trace ++ (earlier ++ [.commit (k.energy.apply prev sample)
        (acquisitionCommit k sample prev (k.energy.apply prev sample) payload) result]))
      (hrest : Unwritten k mid c) : CycleWrites k start c

theorem CycleWrites.trans (h₁ : CycleWrites k start mid) (h₂ : Unwritten k mid c) :
    CycleWrites k start c := by
  cases h₁ with
  | none h => exact .none (h.trans h₂)
  | once hcall hearlier hstore htrace hrest =>
      exact .once hcall hearlier hstore htrace (hrest.trans h₂)

theorem PersistStep.writes {sample : Sample}
    {r : Except (CyclePhase × CycleError) (EnergyOutcome × Bool)}
    (hmid : Reached start .collecting mid) (h : PersistStep k sample mid r c) :
    CycleWrites k start c := by
  obtain ⟨events, hevents, hquiet⟩ := hmid.trace
  have hnone : ∀ e ∈ events ++ [.phase .persisting mid.store], e.isCommit = false := by
    intro e he
    rcases List.mem_append.mp he with hmem | hmem
    · exact Event.isCommit_of_inert (hquiet e hmem)
    · rw [List.mem_singleton.mp hmem]
      rfl
  have hmidTrace : mid.trace ++ [.phase .persisting mid.store] =
      start.trace ++ (events ++ [.phase .persisting mid.store]) := by
    rw [hevents, List.append_assoc]
  cases h with
  | refused _ _ _ _ _ hstore htrace =>
      rw [hmid.store] at hstore
      exact .none (.of_events (hstore.lift id fun _ _ => .read)
        (htrace.trans hmidTrace) hnone)
  | duplicate prev success _ _ _ _ _ _ hstore htrace =>
      refine .none (.of_events ?_ (htrace.trans hmidTrace) hnone)
      rw [hstore, hmid.store]
      exact (Relation.ReflTransGen.single (.read .energyState)).tail (.read .lastSuccess)
  | commit prev success now now' spool payload env _ _ hprev _ _ before hspool hpayload result
      after hcall _ _ hstore htrace =>
      have hread : Relation.ReflTransGen (ReadStep k.ports.storage) start.store before := by
        have hlast : ReadStep k.ports.storage
            (k.ports.storage.lastSuccess (k.ports.storage.energyState mid.store).2).2 _ :=
          .spoolHealth now
        rw [hspool] at hlast
        rw [← hmid.store]
        exact ((Relation.ReflTransGen.single .energyState).tail .lastSuccess).tail hlast
      refine .once ⟨hmid.store ▸ hprev, hread, ⟨mid.health, spool, now', env, hpayload⟩,
        hcall⟩ hnone hstore ?_ ⟨.refl, [], by simp, by simp⟩
      calc c.trace = (mid.trace ++ [.phase .persisting mid.store]) ++ [.commit _ _ result] := by
            rw [htrace, List.append_assoc]
            rfl
        _ = _ := by rw [hmidTrace, List.append_assoc]

theorem CycleSteps.writes {r : Except (CyclePhase × CycleError) Step}
    (h : CycleSteps k start r c) : CycleWrites k start c := by
  cases h with
  | stopped _ _ _ _ _ hreached => exact .none hreached.unwritten
  | refused _ _ _ _ _ hmid hpersist => exact hpersist.writes hmid
  | interrupted _ _ _ _ late _ hmid hpersist =>
      exact (hpersist.writes hmid).trans ⟨.refl, [], by simp, by simp⟩
  | unreleased _ _ _ _ _ _ _ _ hmid hpersist hdeliver hreleased =>
      exact ((hpersist.writes hmid).trans hdeliver.unwritten).trans hreleased.unwritten
  | done _ _ _ _ _ _ _ _ hmid hpersist hdeliver hreleased =>
      exact ((hpersist.writes hmid).trans hdeliver.unwritten).trans hreleased.unwritten

theorem CycleRun.writes {outcome : CycleOutcome} (h : CycleRun k start outcome c) :
    CycleWrites k start c := by
  cases h with
  | success _ _ hwalk => exact hwalk.writes
  | failure _ _ stop _ hwalk hdown =>
      have hrest := hdown.unwritten (k := k)
      exact hwalk.writes.trans ⟨hrest.store, hrest.trace⟩
  | shutdown _ _ _ _ hwalk hdown => exact hwalk.writes.trans hdown.unwritten

/-- A commit event of a cycle is its one call. -/
theorem CycleWrites.commit_event (h : CycleWrites k start c)
    (hstart : ∀ e ∈ start.trace, e.isCommit = false) {energy : EnergyOutcome}
    {issued : AcquisitionCommit} {result : Except StorageError AcquisitionCommitOutcome}
    (hmem : .commit energy issued result ∈ c.trace) :
    ∃ sample prev payload before after,
      CommitIssued k start sample prev payload before result after ∧
      issued = acquisitionCommit k sample prev (k.energy.apply prev sample) payload := by
  have hfound : ∀ events : List (Event σ), (∀ e ∈ events, e.isCommit = false) →
      Event.commit energy issued result ∉ events := by
    intro events hnone hin
    cases hnone _ hin
  cases h with
  | none h =>
      obtain ⟨events, htrace, hnone⟩ := h.trace
      rw [htrace] at hmem
      rcases List.mem_append.mp hmem with hin | hin
      · exact absurd hin (hfound _ hstart)
      · exact absurd hin (hfound _ hnone)
  | @once sample prev payload before after result' mid c earlier hcall hearlier hstore htrace
      hrest =>
      obtain ⟨events, hevents, hnone⟩ := hrest.trace
      simp only [hevents, htrace, List.mem_append, List.mem_singleton] at hmem
      rcases hmem with (hin | hin | hone) | hin
      · exact absurd hin (hfound _ hstart)
      · exact absurd hin (hfound _ hearlier)
      · cases hone
        exact ⟨sample, prev, payload, before, after, hcall, rfl⟩
      · exact absurd hin (hfound _ hnone)

/-! ## What it means for energy and identity -/

/-- A cycle whose commit returned `Committed`. -/
structure CommittedCycle where
  energy : EnergyOutcome
  commit : AcquisitionCommit

def Event.committedCycle? : Event σ → Option CommittedCycle
  | .commit energy issued (.ok .committed) => some ⟨energy, issued⟩
  | _ => none

def committedCycles (events : List (Event σ)) : List CommittedCycle :=
  events.filterMap Event.committedCycle?

@[simp] theorem committedCycles_append (xs ys : List (Event σ)) :
    committedCycles (xs ++ ys) = committedCycles xs ++ committedCycles ys :=
  List.filterMap_append

theorem committedCycles_none {events : List (Event σ)} (h : ∀ e ∈ events, e.isCommit = false) :
    committedCycles events = [] := by
  rw [committedCycles, List.filterMap_eq_nil_iff]
  intro e he
  have hnone := h e he
  cases e with
  | commit energy commit result => cases hnone
  | _ => rfl

theorem Event.committedCycle?_inert {e : Event σ} (h : e.inert) : e.committedCycle? = none := by
  cases e with
  | commit energy issued result =>
      rcases result with err | _ | _
      · rfl
      · cases h.1
      · rfl
  | _ => rfl

theorem Unwritten.committed (h : Unwritten k start c) :
    committedCycles c.trace = committedCycles start.trace := by
  obtain ⟨events, htrace, hnone⟩ := h.trace
  rw [htrace, committedCycles_append, committedCycles_none hnone, List.append_nil]

/-- What a cycle does to energy and identity: nothing, or one commit of the energy that the
policy resolves from the stored state. -/
inductive DurableStep (k : Collector ω σ) (view : σ → Durable) (start c : CycleContext ω σ) :
    Prop
  | none (henergy : (view c.store).energy = (view start.store).energy)
      (hidentity : (view c.store).lastSuccessMs = (view start.store).lastSuccessMs)
      (htrace : committedCycles c.trace = committedCycles start.trace)
  | once (sample : Sample) (payload : List UInt8) (stored : StoredEnergy)
      (hnewer : ∀ ms ∈ (view start.store).lastSuccessMs, ms < sample.observedAt.asMillis)
      (henergy : (view c.store).energy = some stored)
      (hholds : stored.Holds (cycleEnergy k view start.store sample).nextState)
      (hidentity : (view c.store).lastSuccessMs = some sample.observedAt.asMillis)
      (htrace : committedCycles c.trace = committedCycles start.trace ++
        [⟨cycleEnergy k view start.store sample, cycleCommit k view start.store sample payload⟩])

theorem CommitContract.storeSteps {port : StoragePort σ} {device : DeviceId} {view : σ → Durable}
    (h : CommitContract port device view) {s s' : σ}
    (hsteps : Relation.ReflTransGen (StoreStep port) s s') :
    (view s').energy = (view s).energy ∧ (view s').lastSuccessMs = (view s).lastSuccessMs := by
  induction hsteps with
  | refl => exact ⟨rfl, rfl⟩
  | tail _ hstep ih =>
      cases hstep with
      | read hread => rwa [h.read _ _ hread]
      | spool hspool =>
          obtain ⟨henergy, hidentity⟩ := h.spool _ _ hspool
          exact ⟨henergy.trans ih.1, hidentity.trans ih.2⟩

theorem CycleWrites.durable {view : σ → Durable}
    (hc : CommitContract k.ports.storage k.device.device view) (h : CycleWrites k start c) :
    DurableStep k view start c := by
  cases h with
  | none h =>
      obtain ⟨henergy, hidentity⟩ := hc.storeSteps h.store
      exact .none henergy hidentity h.committed
  | @once sample prev payload before after result mid c earlier hcall hearlier hstore htrace hrest =>
      have hbefore : view before = view start.store := hc.reads hcall.reads
      have hprev := hc.energyState _ _ hcall.anchor
      obtain ⟨henergy, hidentity⟩ := hc.storeSteps hrest.store
      rw [hstore] at henergy hidentity
      have hcommitted : committedCycles c.trace = committedCycles start.trace ++
          committedCycles [Event.commit (σ := σ) (k.energy.apply prev sample)
            (acquisitionCommit k sample prev (k.energy.apply prev sample) payload) result] := by
        rw [hrest.committed, htrace, committedCycles_append, committedCycles_append,
          committedCycles_none hearlier, List.nil_append]
      rcases result with e | _ | _
      · have hsame := hc.error _ _ _ _ hcall.call
        rw [hsame, hbefore] at henergy hidentity
        exact .none henergy hidentity (hcommitted.trans (List.append_nil _))
      · have hone := hc.committed _ _ _ rfl hcall.call
        rw [hbefore] at hone
        obtain ⟨stored, hstored, hholds⟩ := hone.energy
        subst hprev
        exact .once sample payload stored hone.newer (henergy.trans hstored) hholds
          (hidentity.trans hone.identity) hcommitted
      · obtain ⟨hsame, -⟩ := hc.already _ _ _ rfl hcall.call
        rw [hsame, hbefore] at henergy hidentity
        exact .none henergy hidentity (hcommitted.trans (List.append_nil _))

/-- A durable step after work that calls no commit. -/
theorem DurableStep.after {view : σ → Durable}
    (hc : CommitContract k.ports.storage k.device.device view) (h₁ : Unwritten k start mid)
    (h₂ : DurableStep k view mid c) : DurableStep k view start c := by
  obtain ⟨henergy, hidentity⟩ := hc.storeSteps h₁.store
  have hsame : ∀ sample, cycleEnergy k view mid.store sample =
      cycleEnergy k view start.store sample := by
    intro sample
    rw [cycleEnergy, henergy]
    rfl
  cases h₂ with
  | none henergy' hidentity' htrace =>
      exact .none (henergy'.trans henergy) (hidentity'.trans hidentity)
        (htrace.trans h₁.committed)
  | once sample payload stored hnewer hstored hholds hidentity' htrace =>
      have hcommit : cycleCommit k view mid.store sample payload =
          cycleCommit k view start.store sample payload := by
        rw [cycleCommit, henergy, hsame]
        rfl
      rw [hsame, hcommit, h₁.committed] at htrace
      exact .once sample payload stored (hidentity ▸ hnewer) hstored (hsame sample ▸ hholds)
        hidentity' htrace

end

end VeSmart.Service
