import VeSmart.Collector.Provenance

set_option autoImplicit false

/-! # Processes on one database

A site is a database with the processes that have run on it, one after the other, each of them
stopped or killed at some point. `delivered_tells` says of every site that starts with a fresh
database that the metrics server is told nothing but what the device has answered. -/

namespace VeSmart.Collector

open VeSmart.Lib VeSmart.Domain VeSmart.Protocol VeSmart.Metrics VeSmart.Service
open VeSmart.Storage (Db)

section

variable {ω : Type} {m : Minicbor} {formatValue : F64 → String} {debug : String → String}
  {k : Service.Collector ω SqliteWorld} {s : SqliteStorage}

/-! ## Processes -/

/-- The rest of the loop, with the drains of each iteration: it stops where an iteration does, and
is killed after the last one. -/
def iterations (k : Service.Collector ω SqliteWorld) :
    List Nat → Runner ω SqliteWorld → Runner ω SqliteWorld
  | [], r => r
  | drains :: rest, r =>
      match exec (Service.iteration k drains) r with
      | (.ok .next, r') => iterations k rest r'
      | (_, r') => r'

/-- A process of the installed collector, with what its surroundings will do. -/
structure Process (ω : Type) (m : Minicbor) (formatValue : F64 → String)
    (debug : String → String) where
  collector : Service.Collector ω SqliteWorld
  storage : SqliteStorage
  installed : Installed m formatValue debug storage collector
  env : ω
  calls : List CallEnv
  drains : List Nat

def Process.run (p : Process ω m formatValue debug) (d : Db) : Runner ω SqliteWorld :=
  iterations p.collector p.drains (.new p.env ⟨d, p.calls⟩)

/-- The answers of the cycles so far. -/
def answers (k : Service.Collector ω SqliteWorld) (r : Runner ω SqliteWorld) : List Answer :=
  r.records.filterMap fun rec => answer? k rec.entry

/-- A database, and what its processes have been answered and have delivered. -/
structure Site where
  db : Db
  answers : List Answer
  delivered : List (List UInt8)

namespace Site

def fresh : Site := ⟨Db.empty, [], []⟩

/-- One more process. -/
def after (site : Site) (p : Process ω m formatValue debug) : Site where
  db := (p.run site.db).ctx.store.db
  answers := site.answers ++ Collector.answers p.collector (p.run site.db)
  delivered := site.delivered ++ (p.run site.db).ctx.deliveries

def of (ps : List (Process ω m formatValue debug)) : Site := ps.foldl after fresh

/-- The text tells what some answer says. -/
def Told (site : Site) (formatValue : F64 → String) (payload : List UInt8) : Prop :=
  ∃ a ∈ site.answers, Tells formatValue a payload

/-- What is stored and what has been delivered tells what the device has answered. -/
structure Truthful (site : Site) (formatValue : F64 → String) : Prop where
  stored : ∀ payload, Spooled site.db payload → site.Told formatValue payload
  delivered : ∀ payload ∈ site.delivered, site.Told formatValue payload

end Site

/-- What holds of a process between two iterations. -/
structure Serving (k : Service.Collector ω SqliteWorld) (s : SqliteStorage)
    (earlier : List UInt8 → Prop) (r : Runner ω SqliteWorld) : Prop where
  accounts : GapAccounts k s r
  legal : ∀ rec ∈ r.records, rec.Legal k
  traceable : Throughout (Traceable (fun w => Spooled w.db) earlier none) r
  numbered : Throughout (fun c => Numbered c.store.db) r

variable {earlier : List UInt8 → Prop} {r : Runner ω SqliteWorld}

theorem Serving.iteration (h : Serving k s earlier r) (hk : Installed m formatValue debug s k)
    (hrests : r.ctx.state.current.resting = true) (drains : Nat) :
    ∃ flow r', exec (Service.iteration k drains) r = (.ok flow, r') ∧ Serving k s earlier r' ∧
      (flow = .next → r'.ctx.state.current.resting = true) := by
  have hat : RunnerAt k (fun p => p.resting = true) r := ⟨h.legal, hrests⟩
  have hcontract : PayloadContract k.ports.storage fun w => Spooled w.db := by
    rw [hk.storage]
    exact s.payloads
  have htraceable := (hcontract.traceable earlier).iteration drains
  have hnumbered := (numberedInvariant k hk.storage).iteration drains
  rcases hexec : exec (Service.iteration k drains) r with ⟨e | flow, r'⟩
  · exact ((iteration_rule drains).error hat hexec).elim
  obtain ⟨hlegal, hflow⟩ := (iteration_rule drains).ok hat hexec
  refine ⟨flow, r', rfl, ⟨iteration_gapAccounts hk.storage hk.device hat h.accounts hexec, hlegal,
    htraceable.ok h.traceable hexec, hnumbered.ok h.numbered hexec⟩, ?_⟩
  rintro rfl
  exact hflow

/-- By induction on the iterations. -/
theorem Serving.iterations (hk : Installed m formatValue debug s k) (drains : List Nat) :
    ∀ {r : Runner ω SqliteWorld}, Serving k s earlier r → r.ctx.state.current.resting = true →
      Serving k s earlier (iterations k drains r) := by
  induction drains with
  | nil => exact fun h _ => h
  | cons n rest ih =>
      intro r h hrests
      obtain ⟨flow, r', hexec, hserving, hnext⟩ := h.iteration hk hrests n
      unfold Collector.iterations
      rw [hexec]
      cases flow with
      | next => exact ih hserving (hnext rfl)
      | stop => exact hserving
      | unfinished => exact hserving

/-- A process that has been started on a numbered spool. -/
theorem Serving.new (hk : Installed m formatValue debug s k) (env : ω) {w : SqliteWorld}
    (hstored : ∀ payload, Spooled w.db payload → earlier payload) (hnumbered : Numbered w.db) :
    Serving k s earlier (.new env w) where
  accounts := (Looped.start env w).gapAccounts hk.storage hk.device
  legal := by simp [Runner.new]
  traceable := ⟨.start env hstored, by simp [Runner.new]⟩
  numbered := ⟨hnumbered, by simp [Runner.new]⟩

/-- What has a source in a process is from before it, or tells what an answer of it says. -/
theorem Serving.sourced (hm : m.Conforms) (hdisplay : Display formatValue)
    (hk : Installed m formatValue debug s k) (h : Serving k s earlier r) {payload : List UInt8}
    (hp : Sourced earlier r.ctx.trace payload) :
    earlier payload ∨ ∃ a ∈ answers k r, Tells formatValue a payload := by
  rcases hp with hearlier | ⟨cycle, hcycle, rfl⟩
  · exact .inl hearlier
  rw [← h.accounts.truth.payloads] at hcycle
  obtain ⟨p, hp, rfl⟩ := List.mem_map.mp hcycle
  obtain ⟨rec, hrec, hp⟩ := List.mem_filterMap.mp hp
  obtain ⟨a, hanswer, htells⟩ := committed_tells hm hdisplay hk (h.legal rec hrec).entered
    (h.numbered.2 rec hrec).1 hp
  exact .inr ⟨a, List.mem_filterMap.mpr ⟨rec, hrec, hanswer⟩, htells⟩

/-- The step of a site: one process. -/
theorem Site.Truthful.after (hm : m.Conforms) (hdisplay : Display formatValue) {site : Site}
    (h : site.Truthful formatValue) (hnumbered : Numbered site.db)
    (p : Process ω m formatValue debug) :
    (site.after p).Truthful formatValue ∧ Numbered (site.after p).db := by
  have hserving : Serving p.collector p.storage (site.Told formatValue) (p.run site.db) :=
    Serving.iterations p.installed p.drains (.new p.installed p.env h.stored hnumbered) rfl
  have htold : ∀ payload, Sourced (site.Told formatValue) (p.run site.db).ctx.trace payload →
      (site.after p).Told formatValue payload := by
    intro payload hsourced
    rcases hserving.sourced hm hdisplay p.installed hsourced with ⟨a, ha, htells⟩ | ⟨a, ha, htells⟩
    · exact ⟨a, List.mem_append_left _ ha, htells⟩
    · exact ⟨a, List.mem_append_right _ ha, htells⟩
  refine ⟨⟨fun payload hp => htold _ (hserving.traceable.1.stored payload hp), ?_⟩,
    hserving.numbered.1⟩
  intro payload hp
  rcases List.mem_append.mp hp with hbefore | hnow
  · obtain ⟨a, ha, htells⟩ := h.delivered payload hbefore
    exact ⟨a, List.mem_append_left _ ha, htells⟩
  · exact htold _ (hserving.traceable.1.delivered payload hnow)

/-- **Nothing is delivered that the device has not said.** -/
theorem delivered_tells (hm : m.Conforms) (hdisplay : Display formatValue)
    (ps : List (Process ω m formatValue debug)) : (Site.of ps).Truthful formatValue := by
  have hrun : ∀ {site : Site}, site.Truthful formatValue → Numbered site.db →
      (ps.foldl Site.after site).Truthful formatValue := by
    induction ps with
    | nil => exact fun h _ => h
    | cons p rest ih =>
        intro site h hnumbered
        obtain ⟨htruthful, hnext⟩ := h.after hm hdisplay hnumbered p
        exact ih htruthful hnext
  refine hrun ⟨?_, by simp [Site.fresh]⟩ Numbered.empty
  rintro payload ⟨id, hmem⟩
  cases hmem

end

/-! ## A solar charger at 28 V -/

/-- Ports of a device that answers each request with its solar voltage, at the first second. -/
def chargerPorts : CyclePorts Unit SqliteWorld where
  ble := {
    discover := fun _ env => (some (.ok ()), env)
    connect := fun _ env => (some (.ok ()), env)
    negotiate := fun _ _ env => (some (.ok ()), env)
    subscribe := fun _ _ _ env => (some (.ok ()), env)
    requestValues := fun _ _ _ env =>
      (some (.ok [0x08, 0x03, 0x19, 0xed, 0xbb, 0x42, 0xf0, 0x0a]), env)
    finishCycle := fun _ env => (some (.ok ()), env)
    disconnect := fun _ env => (some (.ok ()), env) }
  protocol := veSmartProtocol .byHeads solarCharger fun env => (⟨1000000000⟩, env)
  storage := scriptedStorage.port
  deliver := fun _ env => (.ok (), env)
  render := fun ctx env => ((prometheusRenderer fractionText id).render ctx, env)
  now := fun env => (⟨1000000000⟩, env)
  shutdownRequested := fun env => (false, env)
  wait := fun _ env => env

def charger : Process Unit .byHeads fractionText id where
  collector := {
    config := .default
    device := ⟨solarCharger, 3⟩
    resolves := scripted.resolves
    ports := chargerPorts
    energy := ⟨ServiceConfig.default.maximumEnergyGap⟩
    backoff := fun _ => 0
    interval := fun _ => .active }
  storage := scriptedStorage
  installed := {
    protocol := ⟨_, rfl⟩
    storage := rfl
    device := rfl
    renders := fun _ _ => rfl
    clock := fun _ => (by decide : InI64 (1000000000 / nanosPerSec)) }
  env := ()
  calls := []
  drains := [3, 3]


/-- Two cycles of the charger on a fresh database. -/
theorem charger_told : (Site.of [charger]).Truthful fractionText :=
  delivered_tells byHeads_conforms fractionText_display [charger]

end VeSmart.Collector
