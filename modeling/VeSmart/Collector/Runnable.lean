import VeSmart.Cli.Endpoint
import VeSmart.Collector.DeviceName

set_option autoImplicit false

/-! # What is accepted can be run (`victron-collector/src/main.rs`)

`run_daemon` hands the values that it derives from a validated configuration to components that
check them once more: the device id, the transport, the storage and the client of the metrics
server. `accepted_runnable_iff` says which of the configurations that `Config.validate` accepts
come through. -/

namespace VeSmart.Collector

open VeSmart.Lib VeSmart.Domain VeSmart.Metrics

/-- Every value that the daemon derives is accepted: the name makes a device id, the storage, the
transport and the client take their configurations, and `spool_claim_next` does not find the claim
TTL to differ from the lease. An attempt to connect has a deadline, when the monotonic clock stands
at `now`. -/
structure Runnable (now : Duration) (cfg : Config) : Prop where
  device : ∃ device, DeviceId.new cfg.device.name = .ok device
  storage : (storageConfig cfg cfg.toService).validate = .ok ()
  transport : ∃ config, bleConfig cfg cfg.toService = .ok config ∧ config.validate = .ok () ∧
    InstantHolds now config.connectTimeout
  delivery : ∃ client, VictoriaMetricsClient.new cfg.victoriaMetrics.url = .ok client
  claim : ∀ claimMs, durationToMs cfg.toService.spoolClaimTtl = .ok claimMs →
    claimMs = (storageConfig cfg cfg.toService).spoolInflightMs.1

/-- The limits that `Config.validate` does not check. -/
structure Config.Checked (now : Duration) (cfg : Config) : Prop where
  name : cfg.device.name.utf8ByteSize ≤ maxDeviceIdLen
  batches : (cfg.storage.maximumSpoolBatches.toNat : Int) ≤ i64Max
  age : cfg.storage.maximumSpoolAgeDays ≠ 0
  aliasNonempty : trim cfg.device.bluezAlias ≠ ""
  aliasBounded : (trim cfg.device.bluezAlias).length ≤ Bluez.maxAliasLen
  timeouts : cfg.poll.responseTimeoutSeconds < cfg.poll.phaseTimeoutSeconds
  deadline : InstantHolds now (.fromSecs (cfg.poll.phaseTimeoutSeconds.toNat -
    cfg.poll.responseTimeoutSeconds.toNat))

section

variable {cfg : Config}

/-- A valid service configuration has a name that only its length can keep from being an id. -/
theorem deviceId_validate (h : cfg.toService.validate = .ok ()) :
    (∃ device, DeviceId.new cfg.device.name = .ok device) ↔
      cfg.device.name.utf8ByteSize ≤ maxDeviceIdLen := by
  obtain ⟨hempty, hchars⟩ := name_of_validate h
  exact deviceId_iff hempty hchars

/-- The client reads a URL as `validate_metrics_url` does. -/
theorem client_validate {url : String} (h : validateMetricsUrl url = .ok ()) :
    ∃ client, VictoriaMetricsClient.new url = .ok client := by
  have hendpoint := Cli.toOption_iff.mp h
  rw [Cli.validateMetricsUrl_toOption] at hendpoint
  obtain ⟨parts, hparts, -⟩ := Option.map_eq_some_iff.mp hendpoint
  have hparsed : parseHttpUrl url = .ok parts :=
    Cli.toOption_iff.mpr (by rw [Cli.parseHttpUrl_toOption, hparts])
  exact ⟨_, by rw [VictoriaMetricsClient.new, hparsed]; rfl⟩

/-- The storage accepts its configuration when the two limits of the spool are in range. -/
theorem storageConfig_validate (hbatches : cfg.storage.maximumSpoolBatches ≠ 0)
    (h : cfg.toService.Bounds) :
    (storageConfig cfg cfg.toService).validate = .ok () ↔
      (cfg.storage.maximumSpoolBatches.toNat : Int) ≤ i64Max ∧
        cfg.storage.maximumSpoolAgeDays ≠ 0 := by
  have httl : 0 < (durationMs cfg.toService.spoolClaimTtl).1 := by
    have hsecs := fromSecs_pos.mp h.ttl_pos
    rw [durationMs, clampMs_pos, Config.toService, asMillis_fromSecs]
    omega
  have hgap : 0 < (durationMs cfg.toService.maximumEnergyGap).1 := by
    have hsecs : ¬ cfg.poll.maximumEnergyGapSeconds.toNat < 1 := by
      rw [← fromSecs_lt]
      exact not_lt.mpr h.gap_ge
    rw [durationMs, clampMs_pos, Config.toService, asMillis_fromSecs]
    omega
  have hage : 0 < (daysMs cfg.storage.maximumSpoolAgeDays).1 ↔
      cfg.storage.maximumSpoolAgeDays ≠ 0 := by
    rw [daysMs, clampMs_pos, ne_eq, ← UInt64.toNat_inj]
    simp only [u64Max, UInt64.toNat_zero]
    omega
  have hattempts : cfg.poll.spoolMaxAttempts ≠ 0 := h.attempts_pos
  constructor
  · intro hvalid
    have hbounds := Storage.StorageConfig.bounds_of_validate hvalid
    exact ⟨hbounds.batches_le, hage.mp hbounds.age_pos⟩
  · rintro ⟨hle, hdays⟩
    have hpos := hage.mpr hdays
    have hdelays : ¬ ((durationMs cfg.toService.spoolClaimTtl).1 ≤ 0 ∨ (30000 : Int) ≤ 0 ∨
        (1800000 : Int) ≤ 0) := by omega
    have hceiling : ¬ (1800000 : Int) < 30000 := by decide
    have hpower : ¬ (!Storage.StorageConfig.conservative.energyMinPowerWatts.isFinite ||
        Storage.StorageConfig.conservative.energyMaxPowerWatts.any (Storage.badUpperBound
          Storage.StorageConfig.conservative.energyMinPowerWatts)) = true := by decide
    simp only [Storage.StorageConfig.validate, except_check_ok]
    exact ⟨hattempts, hdelays, hceiling, hbatches, not_lt.mpr hle, not_le.mpr hpos,
      not_le.mpr hgap, hpower, trivial⟩

/-- The transport accepts its configuration when the alias is usable and a connection attempt has
any time at all, and attempts it when there is an `Instant` at which that time is over. -/
theorem bleConfig_validate (h : cfg.toService.Bounds) (now : Duration) :
    (∃ config, bleConfig cfg cfg.toService = .ok config ∧ config.validate = .ok () ∧
        InstantHolds now config.connectTimeout) ↔
      (trim cfg.device.bluezAlias ≠ "" ∧
        (trim cfg.device.bluezAlias).length ≤ Bluez.maxAliasLen) ∧
        cfg.poll.responseTimeoutSeconds < cfg.poll.phaseTimeoutSeconds ∧
        InstantHolds now (.fromSecs (cfg.poll.phaseTimeoutSeconds.toNat -
          cfg.poll.responseTimeoutSeconds.toNat)) := by
  have hconnect : 0 < cfg.toService.phaseTimeout - cfg.toService.responseTimeout ↔
      cfg.poll.responseTimeoutSeconds < cfg.poll.phaseTimeoutSeconds :=
    calc 0 < cfg.toService.phaseTimeout - cfg.toService.responseTimeout
        ↔ cfg.toService.responseTimeout < cfg.toService.phaseTimeout := Nat.sub_pos_iff_lt
      _ ↔ cfg.poll.responseTimeoutSeconds.toNat < cfg.poll.phaseTimeoutSeconds.toNat := fromSecs_lt
      _ ↔ cfg.poll.responseTimeoutSeconds < cfg.poll.phaseTimeoutSeconds :=
          UInt64.lt_iff_toNat_lt.symm
  have hphase : 0 < cfg.toService.phaseTimeout := lt_of_lt_of_le h.response_pos h.response_le_phase
  have hdeadline : cfg.toService.phaseTimeout - cfg.toService.responseTimeout =
      .fromSecs (cfg.poll.phaseTimeoutSeconds.toNat - cfg.poll.responseTimeoutSeconds.toNat) :=
    (Nat.sub_mul _ _ _).symm
  rw [← Bluez.DeviceSelector.validate_alias, ← hconnect, ← hdeadline]
  unfold bleConfig Bluez.DeviceSelector.new
  cases hselector : Bluez.DeviceSelector.validate ⟨some cfg.device.bluezAlias, none⟩ with
  | error e => simp [bind, Except.bind, hselector]
  | ok u =>
      simp only [bind, Except.bind, hselector, pure, Except.pure, Except.ok.injEq, exists_eq_left',
        Bluez.Session.TransportConfig.validate_ok, true_and]
      constructor
      · rintro ⟨⟨hpos, -⟩, hholds⟩
        exact ⟨hpos, hholds⟩
      · rintro ⟨hpos, hholds⟩
        exact ⟨⟨hpos, hphase, h.response_pos, h.response_pos, by decide⟩, hholds⟩

/-- The claim TTL is converted to the lease, unless it does not fit. -/
theorem durationToMs_ttl (h : cfg.toService.Bounds) :
    durationToMs cfg.toService.spoolClaimTtl =
      if cfg.poll.spoolClaimTtlSeconds.toNat * 1000 ≤ i64Max then
        .ok (storageConfig cfg cfg.toService).spoolInflightMs.1
      else .error (.schema "claim TTL must fit in positive milliseconds") := by
  have hsecs := fromSecs_pos.mp h.ttl_pos
  have hmillis : cfg.toService.spoolClaimTtl.asMillis =
      cfg.poll.spoolClaimTtlSeconds.toNat * 1000 := asMillis_fromSecs _
  have hlease : (storageConfig cfg cfg.toService).spoolInflightMs.1 =
      min ((cfg.poll.spoolClaimTtlSeconds.toNat * 1000 : Nat) : Int) i64Max := by
    rw [← hmillis]
    rfl
  rw [durationToMs, hmillis, hlease]
  by_cases hfits : ((cfg.poll.spoolClaimTtlSeconds.toNat * 1000 : Nat) : Int) ≤ i64Max
  · have hpos : 0 < cfg.poll.spoolClaimTtlSeconds.toNat * 1000 := by omega
    rw [if_pos ⟨hpos, hfits⟩, if_pos (by push_cast at hfits ⊢; exact hfits), min_eq_left hfits]
  · rw [if_neg fun hboth => hfits hboth.2, if_neg (by push_cast at hfits ⊢; exact hfits)]

end

/-- **When an accepted configuration can be run**: exactly when it also meets the limits that
`Config.validate` leaves to the components and to the clock. The claim TTL is never found to
differ from the lease; it is converted unless it does not fit into milliseconds at all. -/
theorem accepted_runnable_iff (now : Duration) (cfg : Config) (h : cfg.validate = .ok ()) :
    (Runnable now cfg ↔ cfg.Checked now) ∧
      (durationToMs cfg.toService.spoolClaimTtl =
          .ok (storageConfig cfg cfg.toService).spoolInflightMs.1 ↔
        cfg.poll.spoolClaimTtlSeconds.toNat * 1000 ≤ i64Max) := by
  obtain ⟨hbatches, hservice⟩ := Config.validate_ok h
  have hbounds := Service.ServiceConfig.bounds_of_validate hservice
  have hdevice := deviceId_validate hservice
  have hstorage := storageConfig_validate hbatches hbounds
  have htransport := bleConfig_validate hbounds now
  have httl := durationToMs_ttl hbounds
  refine ⟨⟨?_, ?_⟩, ?_⟩
  · intro hrun
    obtain ⟨hle, hage⟩ := hstorage.mp hrun.storage
    obtain ⟨⟨hne, hlen⟩, htimeouts, hdeadline⟩ := htransport.mp hrun.transport
    exact ⟨hdevice.mp hrun.device, hle, hage, hne, hlen, htimeouts, hdeadline⟩
  · intro hchecked
    refine ⟨hdevice.mpr hchecked.name, hstorage.mpr ⟨hchecked.batches, hchecked.age⟩,
      htransport.mpr ⟨⟨hchecked.aliasNonempty, hchecked.aliasBounded⟩, hchecked.timeouts,
        hchecked.deadline⟩, client_validate (Config.validate_url h), ?_⟩
    intro claimMs hclaim
    rw [httl] at hclaim
    split at hclaim
    · exact (Except.ok.inj hclaim).symm
    · cases hclaim
  · rw [httl]
    split
    · exact iff_of_true rfl ‹_›
    · exact iff_of_false (by intro h; cases h) ‹_›

/-- The plan can be run on a machine that has just started. -/
theorem planned_runnable : Runnable 0 (planned 12) :=
  (accepted_runnable_iff 0 (planned 12) (by decide)).1.mpr
    ⟨by decide, by decide, by decide, by decide, by decide, by decide, by decide⟩

/-- Equal timeouts are accepted, and leave no time to connect. -/
theorem equalTimeouts_notRunnable :
    (planned 8).validate = .ok () ∧ ¬ ∃ now, Runnable now (planned 8) := by
  refine ⟨by decide, ?_⟩
  rintro ⟨now, h⟩
  have hvalid : (planned 8).validate = .ok () := by decide
  have hbounds :=
    Service.ServiceConfig.bounds_of_validate (Config.validate_ok hvalid).2
  exact absurd ((bleConfig_validate hbounds now).mp h.transport).2.1 (by decide)

end VeSmart.Collector
