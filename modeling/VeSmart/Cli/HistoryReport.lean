import VeSmart.Cli.Diagnostics

set_option autoImplicit false

/-! # What `read-history` reports (`victron-cli/src/commands/read_history.rs`)

The paths of a device are numbered, and its values come by number and in batches. `history_told`
says what a report means: which number stands for a path, and which of the answers is its value. -/

namespace VeSmart.Cli.ReadHistory

open VeSmart.Lib VeSmart.Client VeSmart.Protocol

/-! ## Paths and their indexes -/

/-- The last position of a path in the list of the device. -/
def LastAt (paths : List String) (path : String) (i : Nat) : Prop :=
  paths[i]? = some path ∧ ∀ j, i < j → paths[j]? ≠ some path

/-- The index that stands for a wanted path: its own, or else that of what follows
`/History/Daily`. -/
inductive Locates (paths : List String) : String → Int64 → Prop where
  | own {path : String} {i : Nat} (h : LastAt paths path i) : Locates paths path (.ofNat i)
  | relative {rest : String} {i : Nat} (habsent : dailyPath ++ rest ∉ paths)
      (h : LastAt paths rest i) : Locates paths (dailyPath ++ rest) (.ofNat i)

/-- The value of the last record of the index. -/
def lastValue (records : List Response) (index : Int64) : Option Item :=
  ((records.filterMap pathValueOf).filter fun value => value.1 = index).getLast?.map Prod.snd

/-- A table of the wanted paths in order, each with its index and the value that is reported for
it, and of those without an index. -/
structure PathTable (paths wanted : List String) (records : List Response) (rows : List PathRow)
    (missing : List String) : Prop where
  sorted : rows.Pairwise fun a b => a.path < b.path
  located : ∀ row ∈ rows, row.path ∈ wanted ∧ Locates paths row.path row.pathIndex
  valued : ∀ row ∈ rows, row.value = lastValue records row.pathIndex
  unlocated : ∀ path ∈ missing, path ∈ wanted ∧ ∀ index, ¬ Locates paths path index
  complete : ∀ path ∈ wanted, path ∈ missing ∨ ∃ row ∈ rows, row.path = path

theorem indexByPath_some {paths : List String} {path : String} {index : Int64}
    (h : indexByPath paths path = some index) :
    ∃ i, index = .ofNat i ∧ LastAt paths path i := by
  obtain ⟨⟨found, i⟩, hlast, rfl⟩ := Option.map_eq_some_iff.mp h
  obtain ⟨hmem, hfound⟩ := lastOf_mem hlast
  have hfound : found = path := hfound
  subst hfound
  refine ⟨i, rfl, List.mk_mem_zipIdx_iff_getElem?.mp hmem, ?_⟩
  intro j hij hj
  -- the positions grow along the list, so the last entry has the greatest
  obtain ⟨before, hsplit⟩ := List.getLast?_eq_some_iff.mp hlast
  have hsorted : paths.zipIdx.Pairwise fun a b => a.2 < b.2 := by
    rw [← List.pairwise_map, List.zipIdx_map_snd]
    exact List.pairwise_lt_range' 1
  have hfiltered := hsorted.filter fun entry => decide (entry.1 = found)
  rw [hsplit] at hfiltered
  have hin : (found, j) ∈ paths.zipIdx.filter fun entry => decide (entry.1 = found) :=
    List.mem_filter.mpr ⟨List.mk_mem_zipIdx_iff_getElem?.mpr hj, by simp⟩
  rw [hsplit] at hin
  rcases List.mem_append.mp hin with hbefore | hself
  · have hlt := (List.pairwise_append.mp hfiltered).2.2 _ hbefore _ (List.mem_singleton_self _)
    have hlt : j < i := hlt
    omega
  · have heq := List.mem_singleton.mp hself
    simp only [Prod.mk.injEq, true_and] at heq
    omega

theorem indexByPath_none {paths : List String} {path : String}
    (h : indexByPath paths path = none) : path ∉ paths := by
  intro hpath
  obtain ⟨i, hi⟩ := List.mem_iff_getElem?.mp hpath
  have hlast : lastOf Prod.fst paths.zipIdx path = none := Option.map_eq_none_iff.mp h
  have hin : (path, i) ∈ paths.zipIdx.filter fun entry => decide (entry.1 = path) :=
    List.mem_filter.mpr ⟨List.mk_mem_zipIdx_iff_getElem?.mpr hi, by simp⟩
  rw [List.getLast?_eq_none_iff.mp hlast] at hin
  exact List.not_mem_nil hin

theorem LastAt.mem {paths : List String} {path : String} {i : Nat} (h : LastAt paths path i) :
    path ∈ paths := List.mem_iff_getElem?.mpr ⟨i, h.1⟩

theorem relativePath_some {path rest : String} (h : relativePath path = some rest) :
    path = dailyPath ++ rest := by
  unfold relativePath at h
  split at h
  · rename_i hprefix
    obtain ⟨tail, htail⟩ := hprefix
    obtain rfl := Option.some.inj h
    apply String.toList_injective
    rw [← htail]
    simp
  · simp at h

theorem relativePath_append (rest : String) : relativePath (dailyPath ++ rest) = some rest := by
  have hprefix : dailyPath.toList <+: (dailyPath ++ rest).toList := by simp
  rw [relativePath, if_pos hprefix]
  simp

theorem resolve_some {paths : List String} {path : String} {index : Int64}
    (h : resolve paths path = some index) : Locates paths path index := by
  unfold resolve at h
  cases hown : indexByPath paths path with
  | some own =>
      rw [hown] at h
      obtain rfl : own = index := Option.some.inj h
      obtain ⟨i, rfl, hlast⟩ := indexByPath_some hown
      exact .own hlast
  | none =>
      rw [hown, Option.none_or] at h
      obtain ⟨rest, hrest, hindex⟩ := Option.bind_eq_some_iff.mp h
      obtain rfl := relativePath_some hrest
      obtain ⟨i, rfl, hlast⟩ := indexByPath_some hindex
      exact .relative (indexByPath_none hown) hlast

theorem resolve_none {paths : List String} {path : String} (h : resolve paths path = none)
    (index : Int64) : ¬ Locates paths path index := by
  obtain ⟨hown, hrelative⟩ := Option.or_eq_none_iff.mp h
  intro hlocates
  cases hlocates with
  | own hlast => exact indexByPath_none hown hlast.mem
  | relative habsent hlast =>
      rw [relativePath_append] at hrelative
      exact indexByPath_none hrelative hlast.mem

theorem mem_resolved {paths wanted : List String} {path : String} {index : Int64}
    (h : (path, index) ∈ resolved paths wanted) :
    path ∈ wanted ∧ resolve paths path = some index := by
  have hmem := (lastOf_mem (mem_latest.mp h)).1
  obtain ⟨found, hwanted, hfound⟩ := List.mem_filterMap.mp hmem
  obtain ⟨i, hi, heq⟩ := Option.map_eq_some_iff.mp hfound
  obtain ⟨rfl, rfl⟩ := Prod.mk.inj heq
  exact ⟨hwanted, hi⟩

theorem resolved_complete {paths wanted : List String} {path : String} {index : Int64}
    (hwanted : path ∈ wanted) (h : resolve paths path = some index) :
    ∃ entry ∈ resolved paths wanted, entry.1 = path :=
  have hentry : (path, index) ∈ wanted.filterMap fun path =>
      (resolve paths path).map fun index => (path, index) :=
    List.mem_filterMap.mpr ⟨path, hwanted, by rw [h, Option.map_some]⟩
  exists_latest hentry

theorem lastOf_pathValue (records : List Response) (index : Int64) :
    (lastOf (fun value => value.1.toInt) (records.filterMap pathValueOf) index.toInt).map Prod.snd =
      lastValue records index := by
  have hkey : ∀ value : Int64 × Item,
      decide (value.1.toInt = index.toInt) = decide (value.1 = index) := by
    intro value
    simp [Int64.toInt_inj]
  rw [lastOf, lastValue]
  simp only [hkey]

/-- The table that the command makes. -/
theorem pathRows_table (paths wanted : List String) (records : List Response) :
    PathTable paths wanted records
      (pathRows (resolved paths wanted) (records.filterMap pathValueOf))
      (missing paths wanted) where
  sorted := List.pairwise_map.mpr (latest_sorted Prod.fst _)
  located row hrow := by
    obtain ⟨⟨path, index⟩, hentry, rfl⟩ := List.mem_map.mp hrow
    obtain ⟨hwanted, hresolve⟩ := mem_resolved hentry
    exact ⟨hwanted, resolve_some hresolve⟩
  valued row hrow := by
    obtain ⟨⟨path, index⟩, hentry, rfl⟩ := List.mem_map.mp hrow
    exact lastOf_pathValue records index
  unlocated path hpath := by
    obtain ⟨hwanted, hnone⟩ := List.mem_filter.mp hpath
    exact ⟨hwanted, resolve_none (Option.isNone_iff_eq_none.mp hnone)⟩
  complete path hwanted := by
    cases hresolve : resolve paths path with
    | none => exact .inl (List.mem_filter.mpr ⟨hwanted, by rw [hresolve]; rfl⟩)
    | some index =>
        obtain ⟨⟨found, i⟩, hentry, rfl⟩ := resolved_complete hwanted hresolve
        exact .inr ⟨_, List.mem_map_of_mem hentry, rfl⟩

/-- The data of the last record of the register. -/
def lastData (records : List Response) (register : UInt16) : Option (List UInt8) :=
  ((records.filterMap valueOf).filter fun value => value.1 = register).getLast?.map Prod.snd

/-- The registers that were answered, in order, each with the data that is reported for it. -/
structure RegisterTable (records : List Response) (values : List (UInt16 × List UInt8)) : Prop where
  sorted : values.Pairwise fun a b => a.1 < b.1
  valued : ∀ value ∈ values, lastData records value.1 = some value.2
  complete : ∀ inst register data, .value inst register data ∈ records →
    ∃ value ∈ values, value.1 = register

theorem lastOf_value (records : List Response) (register : UInt16) :
    (lastOf (fun value => value.1.toNat) (records.filterMap valueOf) register.toNat).map Prod.snd =
      lastData records register := by
  have hkey : ∀ value : UInt16 × List UInt8,
      decide (value.1.toNat = register.toNat) = decide (value.1 = register) := by
    intro value
    simp [UInt16.toNat_inj]
  rw [lastOf, lastData]
  simp only [hkey]

theorem latest_table (records : List Response) :
    RegisterTable records (latest (fun value => value.1.toNat) (records.filterMap valueOf)) where
  sorted := by
    refine (latest_sorted _ _).imp ?_
    intro a b hlt
    exact UInt16.lt_iff_toNat_lt.mpr hlt
  valued value hvalue := by
    rw [← lastOf_value, mem_latest.mp hvalue, Option.map_some]
  complete inst register data hrecord := by
    have hvalue : (register, data) ∈ records.filterMap valueOf :=
      List.mem_filterMap.mpr ⟨_, hrecord, rfl⟩
    obtain ⟨value, hin, hkey⟩ :
        ∃ value ∈ latest (fun value => value.1.toNat) (records.filterMap valueOf),
          value.1.toNat = register.toNat := exists_latest hvalue
    exact ⟨value, hin, UInt16.toNat_inj.mp hkey⟩

/-! ## Batches -/

theorem chunks_flatten {β : Type} {n : Nat} (hn : 0 < n) (fuel : Nat) (xs : List β)
    (h : xs.length ≤ fuel) : (chunks n fuel xs).flatten = xs := by
  induction fuel generalizing xs with
  | zero => simp [chunks, List.length_eq_zero_iff.mp (Nat.le_zero.mp h)]
  | succ fuel ih =>
      rw [chunks]
      split
      · rename_i hempty
        simp [List.isEmpty_iff.mp hempty]
      · rw [List.flatten_cons, ih _ (by rw [List.length_drop]; omega), List.take_append_drop]

/-- The pieces of a list, in order and none of them too long. -/
structure Batched {β : Type} (size : Nat) (batches : List (List β)) (items : List β) : Prop where
  whole : batches.flatten = items
  sizes : ∀ batch ∈ batches, batch.length ≤ size

theorem batches_batched {β : Type} (c : ReadHistory) (hsize : 1 ≤ c.batchSize) (items : List β) :
    Batched c.batchSize (c.batches items) items :=
  ⟨chunks_flatten hsize _ _ (le_refl _), chunks_length _ _ _⟩

theorem mem_indexesOf (entries : List (String × Int64)) (index : Int64) :
    index ∈ indexesOf entries ↔ ∃ path, (path, index) ∈ entries := by
  rw [indexesOf, mem_latest_injective fun _ _ => Int64.toInt_inj.mp, List.mem_map]
  constructor
  · rintro ⟨⟨path, found⟩, hentry, rfl⟩
    exact ⟨path, hentry⟩
  · rintro ⟨path, hentry⟩
    exact ⟨(path, index), hentry, rfl⟩

/-! ## The requests behind a report -/

section

variable (m : Minicbor)
variable (decodeStream : List UInt8 → Except Protocol.ProtocolError (List Item))

/-- The requests are made one after the other, and these are the answers to all of them. If it is
tolerated, a request that times out has none. -/
inductive Made (tolerant : Prop) : List Request → Life → List Response → Life → Prop where
  | nil (l : Life) : Made tolerant [] l [] l
  | answered {request : Request} {rest : List Request} {responses records : List Response}
      {l l₁ l₂ : Life} (h : exec (requestReadOnly m decodeStream request) l = (.ok responses, l₁))
      (hrest : Made tolerant rest l₁ records l₂) :
      Made tolerant (request :: rest) l (responses ++ records) l₂
  | timedOut {request : Request} {rest : List Request} {records : List Response}
      {operation : String} {l l₁ l₂ : Life} (htolerant : tolerant)
      (h : exec (requestReadOnly m decodeStream request) l =
        (.error (.failed (.timeout operation)), l₁))
      (hrest : Made tolerant rest l₁ records l₂) : Made tolerant (request :: rest) l records l₂

variable (zlibDecode : List UInt8 → Option (List UInt8)) (findPaths : String → List String)

/-- The paths are those of the answer, or there are none, since the device does not list any. -/
inductive Listed (inst : UInt16) (l : Life) : List String → Life → Prop where
  | listed {responses : List Response} {paths : List String} {l₁ : Life}
      (h : exec (requestReadOnly m decodeStream (.getPathList inst)) l = (.ok responses, l₁))
      (hpaths : decodePaths findPaths zlibDecode responses = .ok paths) : Listed inst l paths l₁
  | unavailable {e : Service.BleError} {l₁ : Life}
      (h : exec (requestReadOnly m decodeStream (.getPathList inst)) l = (.error (.failed e), l₁))
      (he : pathApiUnavailable e = true) : Listed inst l [] l₁

/-- What a report of the command means that has started at `l` and ended at `l'`. -/
inductive Told (c : ReadHistory) (l : Life) : HistoryReport → Life → Prop where
  | dryRun {list values : List UInt8} (hdry : c.dryRun = true)
      (hlist : (Request.getPathList c.inst).encode m = .ok list)
      (hvalues : (Request.getPathValues c.inst ((List.range (min
        (candidatePaths c.days c.includeDetail c.extraPaths).length 5)).map Int64.ofNat)).encode m =
          .ok values) :
      Told c l (.dryRun (candidatePaths c.days c.includeDetail c.extraPaths) list values) l
  /-- Every index of a row is asked for once. -/
  | pathValues {paths missing : List String} {rows : List PathRow} {batches : List (List Int64)}
      {records : List Response} {l₁ l₂ l₃ l₄ l' : Life} (hdry : c.dryRun = false)
      (hopen : exec openReadOnly l = (.ok (), l₁))
      (hsubscribe : exec (subscribeReadOnly m decodeStream c.inst) l₁ = (.ok (), l₂))
      (hlisted : Listed m decodeStream zlibDecode findPaths c.inst l₂ paths l₃)
      (hpaths : paths ≠ [])
      (hsizes : ∀ batch ∈ batches, batch.length ≤ c.batchSize)
      (honce : batches.flatten.Pairwise fun a b => a.toInt < b.toInt)
      (hasked : ∀ index, index ∈ batches.flatten ↔ ∃ row ∈ rows, row.pathIndex = index)
      (hmade : Made m decodeStream False (batches.map (.getPathValues c.inst)) l₃ records l₄)
      (htable : PathTable paths (candidatePaths c.days c.includeDetail c.extraPaths) records rows
        missing)
      (hclose : exec closeReadOnly l₄ = (.ok (), l')) :
      Told c l (.pathValues paths.length missing rows) l'
  /-- Every register is asked for once; the answers to some may be missing. -/
  | vregFallback {batches : List (List UInt16)} {values : List (UInt16 × List UInt8)}
      {records : List Response} {l₁ l₂ l₃ l₄ l' : Life} (hdry : c.dryRun = false)
      (hfallback : c.noVregFallback = false)
      (hopen : exec openReadOnly l = (.ok (), l₁))
      (hsubscribe : exec (subscribeReadOnly m decodeStream c.inst) l₁ = (.ok (), l₂))
      (hlisted : Listed m decodeStream zlibDecode findPaths c.inst l₂ [] l₃)
      (hsizes : ∀ batch ∈ batches, batch.length ≤ c.batchSize)
      (honce : batches.flatten.Pairwise fun a b => a < b)
      (hasked : ∀ register, register ∈ batches.flatten ↔
        register ∈ fallbackRegisters ++ c.extraVregs)
      (hmade : Made m decodeStream True (batches.map (.getValues c.inst)) l₃ records l₄)
      (htable : RegisterTable records values) (hvalues : values ≠ [])
      (hclose : exec closeReadOnly l₄ = (.ok (), l')) :
      Told c l (.vregFallback (values.map fun (register, data) =>
        registerRow c.raw register data)) l'

end

section

variable {m : Minicbor}
variable {decodeStream : List UInt8 → Except Protocol.ProtocolError (List Item)}
variable {zlibDecode : List UInt8 → Option (List UInt8)} {findPaths : String → List String}
variable {c : ReadHistory} {l l' : Life}

/-- What a program has come to is seen by the rest of the command. -/
theorem attempt_bind_inv {ε α β : Type} {x : Prog Life ε α} {f : Except ε α → Command β} {b : β}
    (h : exec (attempt x >>= f) l = (.ok b, l')) :
    ∃ r l₁, exec x l = (r, l₁) ∧ exec (f r) l₁ = (.ok b, l') := by
  obtain ⟨r, l₁, hattempt, hr⟩ := exec_bind_inv h
  rw [exec_attempt] at hattempt
  obtain ⟨hr₁, hl₁⟩ := Prod.mk.inj hattempt
  exact ⟨r, l₁, Prod.ext (Except.ok.inj hr₁) hl₁, hr⟩

theorem onSession_ok {α : Type} {x : Call α} {a : α} (h : exec (onSession x) l = (.ok a, l')) :
    exec x l = (.ok a, l') := by
  obtain ⟨r, l₁, hx, hr⟩ := attempt_bind_inv h
  cases r with
  | ok b =>
      cases hr
      exact hx
  | error halt => cases hr

theorem overSession_ok {α : Type} {read : Command α} {a : α}
    (h : exec (overSession read) l = (.ok a, l')) :
    ∃ l₁, exec read l = (.ok a, l₁) ∧ exec closeReadOnly l₁ = (.ok (), l') := by
  obtain ⟨r, l₁, hread, hr⟩ := attempt_bind_inv h
  cases r with
  | ok b =>
      obtain ⟨u, l₂, hclose, hpure⟩ := exec_bind_inv hr
      cases hpure
      exact ⟨l₁, hread, onSession_ok hclose⟩
  | error stop =>
      cases stop with
      | error text =>
          obtain ⟨u, l₂, hclose, hthrow⟩ := exec_bind_inv hr
          cases hthrow
      | dropped => cases hr
      | panicked => cases hr

theorem listPaths_listed {paths : List String}
    (h : exec (c.listPaths m decodeStream zlibDecode findPaths) l = (.ok paths, l')) :
    Listed m decodeStream zlibDecode findPaths c.inst l paths l' := by
  obtain ⟨r, l₁, hrequest, hr⟩ := attempt_bind_inv h
  cases r with
  | ok responses =>
      simp only [exec_fromExcept, Prod.mk.injEq] at hr
      obtain ⟨hpaths, rfl⟩ := hr
      cases hdecode : decodePaths findPaths zlibDecode responses with
      | ok found =>
          rw [hdecode] at hpaths
          obtain rfl : found = paths := Except.ok.inj hpaths
          exact .listed hrequest hdecode
      | error text =>
          rw [hdecode] at hpaths
          cases hpaths
  | error halt =>
      cases halt with
      | failed e =>
          dsimp only at hr
          split at hr
          · rename_i he
            simp only [exec_pure, Prod.mk.injEq, Except.ok.injEq] at hr
            obtain ⟨rfl, rfl⟩ := hr
            exact .unavailable hrequest he
          · cases hr
      | dropped => cases hr
      | panicked => cases hr

theorem readIndexes_made {batches : List (List Int64)} {values : List (Int64 × Item)}
    (h : exec (c.readIndexes m decodeStream batches) l = (.ok values, l')) :
    ∃ records, values = records.filterMap pathValueOf ∧
      Made m decodeStream False (batches.map (.getPathValues c.inst)) l records l' := by
  induction batches generalizing l values with
  | nil =>
      cases h
      exact ⟨[], rfl, .nil _⟩
  | cons batch rest ih =>
      obtain ⟨responses, l₁, hrequest, h⟩ := exec_bind_inv h
      obtain ⟨others, l₂, hrest, h⟩ := exec_bind_inv h
      cases h
      obtain ⟨records, rfl, hmade⟩ := ih hrest
      exact ⟨responses ++ records, by rw [List.filterMap_append],
        .answered (onSession_ok hrequest) hmade⟩

theorem readRegisters_made {batches : List (List UInt16)} {values : List (UInt16 × List UInt8)}
    (h : exec (c.readRegisters m decodeStream batches) l = (.ok values, l')) :
    ∃ records, values = records.filterMap valueOf ∧
      Made m decodeStream True (batches.map (.getValues c.inst)) l records l' := by
  induction batches generalizing l values with
  | nil =>
      cases h
      exact ⟨[], rfl, .nil _⟩
  | cons batch rest ih =>
      obtain ⟨r, l₁, hrequest, hr⟩ := attempt_bind_inv h
      split at hr
      · obtain ⟨others, l₂, hrest, hpure⟩ := exec_bind_inv hr
        cases hpure
        obtain ⟨records, rfl, hmade⟩ := ih hrest
        rename_i responses
        exact ⟨responses ++ records, by rw [List.filterMap_append], .answered hrequest hmade⟩
      · obtain ⟨records, hvalues, hmade⟩ := ih hr
        exact ⟨records, hvalues, .timedOut trivial hrequest hmade⟩
      · cases hr

theorem pathValues_told {paths wanted : List String} {report : HistoryReport}
    (hsize : 1 ≤ c.batchSize)
    (h : exec (c.readPathValues m decodeStream paths wanted) l = (.ok report, l')) :
    ∃ (rows : List PathRow) (batches : List (List Int64)) (records : List Response),
      report = .pathValues paths.length (missing paths wanted) rows ∧
      (∀ batch ∈ batches, batch.length ≤ c.batchSize) ∧
      (batches.flatten.Pairwise fun a b => a.toInt < b.toInt) ∧
      (∀ index, index ∈ batches.flatten ↔ ∃ row ∈ rows, row.pathIndex = index) ∧
      Made m decodeStream False (batches.map (.getPathValues c.inst)) l records l' ∧
      PathTable paths wanted records rows (missing paths wanted) := by
  obtain ⟨values, l₁, hread, hpure⟩ := exec_bind_inv h
  cases hpure
  obtain ⟨records, rfl, hmade⟩ := readIndexes_made hread
  obtain ⟨hwhole, hsizes⟩ := batches_batched c hsize (indexesOf (resolved paths wanted))
  refine ⟨_, _, records, rfl, hsizes, ?_, ?_, hmade, pathRows_table paths wanted records⟩
  · rw [hwhole]
    exact latest_sorted _ _
  · intro index
    rw [hwhole, mem_indexesOf]
    constructor
    · rintro ⟨path, hentry⟩
      exact ⟨_, List.mem_map_of_mem hentry, rfl⟩
    · rintro ⟨row, hrow, rfl⟩
      obtain ⟨⟨path, index⟩, hentry, rfl⟩ := List.mem_map.mp hrow
      exact ⟨path, hentry⟩

theorem vregFallback_told {report : HistoryReport} (hsize : 1 ≤ c.batchSize)
    (h : exec (c.readVregFallback m decodeStream) l = (.ok report, l')) :
    ∃ (batches : List (List UInt16)) (values : List (UInt16 × List UInt8))
      (records : List Response),
      report = .vregFallback (values.map fun (register, data) =>
        registerRow c.raw register data) ∧
      (∀ batch ∈ batches, batch.length ≤ c.batchSize) ∧
      (batches.flatten.Pairwise fun a b => a < b) ∧
      (∀ register, register ∈ batches.flatten ↔ register ∈ fallbackRegisters ++ c.extraVregs) ∧
      Made m decodeStream True (batches.map (.getValues c.inst)) l records l' ∧
      RegisterTable records values ∧ values ≠ [] := by
  obtain ⟨found, l₁, hread, h⟩ := exec_bind_inv h
  split at h
  · cases h
  · rename_i hempty
    cases h
    obtain ⟨records, rfl, hmade⟩ := readRegisters_made hread
    obtain ⟨hwhole, hsizes⟩ := batches_batched c hsize
      (latest UInt16.toNat (fallbackRegisters ++ c.extraVregs))
    refine ⟨_, _, records, rfl, hsizes, ?_, ?_, hmade, latest_table records, ?_⟩
    · rw [hwhole]
      refine (latest_sorted _ _).imp ?_
      intro a b hlt
      exact UInt16.lt_iff_toNat_lt.mpr hlt
    · intro register
      rw [hwhole]
      exact mem_latest_injective (fun _ _ => UInt16.toNat_inj.mp) _ _
    · intro hnil
      obtain ⟨value, hvalue⟩ :=
        List.exists_mem_of_ne_nil _ fun hvalues => hempty (List.isEmpty_iff.mpr hvalues)
      obtain ⟨other, hother, _⟩ :
          ∃ other ∈ latest (fun value => value.1.toNat) (records.filterMap valueOf),
            other.1.toNat = value.1.toNat := exists_latest hvalue
      rw [hnil] at hother
      exact List.not_mem_nil hother

theorem run_told {report : HistoryReport}
    (h : exec (c.run m decodeStream zlibDecode findPaths) l = (.ok report, l')) :
    Told m decodeStream zlibDecode findPaths c l report l' := by
  unfold run at h
  split at h
  · cases h
  split at h
  · cases h
  rename_i hsize
  dsimp only at h
  split at h
  · rename_i hdry
    rw [exec_fromExcept] at h
    obtain ⟨hreport, rfl⟩ := Prod.mk.inj h
    cases hdryRun : c.dryRunReport m (candidatePaths c.days c.includeDetail c.extraPaths) with
    | error text =>
        rw [hdryRun] at hreport
        cases hreport
    | ok found =>
        rw [hdryRun] at hreport
        cases hreport
        obtain ⟨list, hlist, hrest⟩ := except_bind_ok.mp hdryRun
        obtain ⟨values, hvalues, hok⟩ := except_bind_ok.mp hrest
        cases hok
        exact .dryRun hdry (mapError_ok hlist) (mapError_ok hvalues)
  · rename_i hdry
    have hdry : c.dryRun = false := by simpa using hdry
    have hsize : 1 ≤ c.batchSize := by omega
    split at h
    · cases h
    · obtain ⟨l₄, hread, hclose⟩ := overSession_ok h
      obtain ⟨_, l₁, hopen, hread⟩ := exec_bind_inv hread
      obtain ⟨_, l₂, hsubscribe, hread⟩ := exec_bind_inv hread
      obtain ⟨paths, l₃, hlist, hread⟩ := exec_bind_inv hread
      have hopen := onSession_ok hopen
      have hsubscribe := onSession_ok hsubscribe
      have hlisted := listPaths_listed hlist
      split at hread
      · rename_i hempty
        obtain rfl := List.isEmpty_iff.mp hempty
        split at hread
        · cases hread
        · rename_i hfallback
          obtain ⟨batches, values, records, rfl, hsizes, honce, hasked, hmade, htable, hvalues⟩ :=
            vregFallback_told hsize hread
          exact .vregFallback hdry (by simpa using hfallback) hopen hsubscribe hlisted hsizes honce
            hasked hmade htable hvalues hclose
      · rename_i hempty
        obtain ⟨rows, batches, records, rfl, hsizes, honce, hasked, hmade, htable⟩ :=
          pathValues_told hsize hread
        exact .pathValues hdry hopen hsubscribe hlisted
          (fun hnil => hempty (List.isEmpty_iff.mpr hnil)) hsizes honce hasked hmade htable hclose

end

/-- **A report tells what the device has answered.** Whatever happens on the way, if the command
ends with a report then its rows are the wanted paths that the device lists, each with its index
and with the last value that was answered for it; or, if the device lists none, the registers that
were answered. Every index and every register is asked for once. -/
theorem history_told (m : Minicbor)
    (decodeStream : List UInt8 → Except Protocol.ProtocolError (List Item))
    (zlibDecode : List UInt8 → Option (List UInt8)) (findPaths : String → List String)
    (c : ReadHistory) (l : Life) :
    Triple (fun s => s = l) (c.run m decodeStream zlibDecode findPaths)
      (fun report l' => Told m decodeStream zlibDecode findPaths c l report l')
      (fun _ _ => True) := by
  refine Triple.intro ?_ fun _ _ _ _ _ => trivial
  rintro _ report l' rfl h
  exact run_told h

/-- A device that lists one path by its `NewPath` record, and has 300 under it. -/
def listing : List Client.Event :=
  [.reply (.ok []), .reply (.ok [1, 2, 3, 4, 5, 6, 7]), .reply (.ok []), .reply (.ok []),
    .reply (.ok []), .elapsed, .reply (.ok []),
    .sends ⟨.lastData, [0x0e, 0x04, 0x00, 0x6d] ++ utf8 "/Yield/System"⟩, .take .lastData, .elapsed,
    .reply (.ok []), .sends ⟨.lastData, [0x0f, 0x04, 0x00, 0x19, 0x01, 0x2c]⟩, .take .lastData,
    .reply (.ok [])]

def readSummary : ReadHistory :=
  ⟨"Solar", "hci0", 4, 0, false, [], [], false, false, 12, 30, 12, 12, true⟩

/-- The rows of a report on paths, each with whether it has a value. -/
def rowsOf : Except Stop HistoryReport → List (String × Int64 × Bool)
  | .ok (.pathValues _ _ rows) => rows.map fun row => (row.path, row.pathIndex, row.value.isSome)
  | _ => []

theorem listing_told : ∃ count missing rows l',
    exec (run .byHeads Minicbor.byHeads.decodeStream (fun _ => none) (fun _ => []) readSummary)
      (freshLife listing) = (.ok (.pathValues count missing rows), l') ∧
    rows.map (fun row => (row.path, row.pathIndex, row.value.isSome)) =
      [("/Yield/System", 0, true)] ∧
    Told .byHeads Minicbor.byHeads.decodeStream (fun _ => none) (fun _ => []) readSummary
      (freshLife listing) (.pathValues count missing rows) l' := by
  have hrows : rowsOf (exec (run .byHeads Minicbor.byHeads.decodeStream (fun _ => none)
      (fun _ => []) readSummary) (freshLife listing)).1 = [("/Yield/System", 0, true)] := by
    unfold run read readPathValues candidatePaths resolved indexesOf
    simp only [latest, sortByKey_insertion]
    decide +kernel
  have htold := history_told .byHeads Minicbor.byHeads.decodeStream (fun _ => none) (fun _ => [])
    readSummary (freshLife listing)
  rcases hrun : exec (run .byHeads Minicbor.byHeads.decodeStream (fun _ => none) (fun _ => [])
    readSummary) (freshLife listing) with ⟨e | report, l'⟩
  · rw [hrun] at hrows
    cases hrows
  · rw [hrun] at hrows
    cases report with
    | dryRun | vregFallback => cases hrows
    | pathValues count missing rows =>
        exact ⟨count, missing, rows, l', rfl, hrows, htold.ok rfl hrun⟩

/-- A device that does not list its paths, is silent on the first batch of registers and answers
the second one. -/
def halfSilent : List Client.Event :=
  [.reply (.ok []), .reply (.ok [1, 2, 3, 4, 5, 6, 7]), .reply (.ok []), .reply (.ok []),
    .reply (.ok []), .elapsed, .reply (.ok []), .elapsed, .reply (.ok []), .reply (.ok []),
    .elapsed, .reply (.ok []), .reply (.ok []),
    .sends ⟨.lastData, [0x08, 0x04, 0x19, 0xed, 0xbb, 0x42, 0xf3, 0x0a]⟩, .take .lastData, .elapsed,
    .reply (.ok [])]

/-- There is a report for such a device. -/
example : (exec (run .byHeads Minicbor.byHeads.decodeStream (fun _ => none) (fun _ => [])
    ⟨"Solar", "hci0", 4, 1, false, [], [], false, false, 12, 30, 12, 12, true⟩)
    (freshLife halfSilent)).1.isOk = true := by
  unfold run read readVregFallback
  simp only [latest, sortByKey_insertion]
  decide +kernel

end VeSmart.Cli.ReadHistory
