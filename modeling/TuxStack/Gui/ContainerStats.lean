import TuxStack.Docker.ImageList
import TuxStack.Gui.LogOptions
import TuxStack.Lib.BoundedHistory
import TuxStack.Lib.Runs

/-!
# Live statistics of containers

`ContainerStatsState` (`crates/gui/src/controllers/container_stats.rs`): the last reading of
every container of the selection, and a history of what they add up to. The samples come in
any order, of any container and of streams that are over; the map of the last readings is
visited in an order of its own whenever they are added up.

Every state of a run in which no container goes back in time has the history that the page
draws (`history_sound`).
-/

namespace TuxStack.Gui

open Assoc History Runs
open Docker (IterationOrder)

/-! ## Readings -/

/-- `u64::saturating_add`. -/
def saturatingAdd (a b : UInt64) : UInt64 :=
  if a.toNat + b.toNat < 2 ^ 64 then a + b else UInt64.ofNat (2 ^ 64 - 1)

/-- What is done with shares of the processor, which are floating-point numbers. -/
class Percent (F : Type) where
  zero : F
  add : F → F → F
  finiteNonNegative : F → F

instance : Percent Unit := ⟨(), fun _ _ => (), fun _ => ()⟩

structure StatsTarget where
  id : String
  name : String
deriving DecidableEq

structure StatsReading (F : Type) where
  cpuPercent : F
  memoryRawBytes : UInt64
  memoryWorkingSetBytes : Option UInt64
  memoryLimitBytes : UInt64
  networkRxBytes : UInt64
  networkTxBytes : UInt64
  blockReadBytes : UInt64
  blockWriteBytes : UInt64
  pids : UInt64
  sampledAt : Int

structure AggregateStats (F : Type) where
  cpuPercent : F
  memoryRawBytes : UInt64 := 0
  memoryWorkingSetBytes : Option UInt64 := none
  memoryLimitBytes : UInt64 := 0
  networkRxBytes : UInt64 := 0
  networkTxBytes : UInt64 := 0
  blockReadBytes : UInt64 := 0
  blockWriteBytes : UInt64 := 0
  pids : UInt64 := 0
  sampledAt : Option Int := none
  reportingCount : Nat := 0

structure StatsHistoryPoint (F : Type) where
  sampledAt : Int
  cpuPercent : F
  memoryRawBytes : UInt64
  memoryWorkingSetBytes : Option UInt64
  networkRxBytes : UInt64
  networkTxBytes : UInt64

/-- The variables of the loop of `aggregate`. -/
structure Totals (F : Type) where
  result : AggregateStats F
  workingTotal : UInt64
  allHaveWorking : Bool

section Aggregation

variable {F : Type} [Percent F]

def Totals.add (totals : Totals F) (reading : StatsReading F) : Totals F where
  result :=
    { cpuPercent := Percent.add totals.result.cpuPercent
        (Percent.finiteNonNegative reading.cpuPercent)
      memoryRawBytes := saturatingAdd totals.result.memoryRawBytes reading.memoryRawBytes
      memoryWorkingSetBytes := totals.result.memoryWorkingSetBytes
      memoryLimitBytes := saturatingAdd totals.result.memoryLimitBytes reading.memoryLimitBytes
      networkRxBytes := saturatingAdd totals.result.networkRxBytes reading.networkRxBytes
      networkTxBytes := saturatingAdd totals.result.networkTxBytes reading.networkTxBytes
      blockReadBytes := saturatingAdd totals.result.blockReadBytes reading.blockReadBytes
      blockWriteBytes := saturatingAdd totals.result.blockWriteBytes reading.blockWriteBytes
      pids := saturatingAdd totals.result.pids reading.pids
      sampledAt := some ((totals.result.sampledAt.map (max · reading.sampledAt)).getD
        reading.sampledAt)
      reportingCount := totals.result.reportingCount + 1 }
  workingTotal :=
    (reading.memoryWorkingSetBytes.map (saturatingAdd totals.workingTotal)).getD
      totals.workingTotal
  allHaveWorking := totals.allHaveWorking && reading.memoryWorkingSetBytes.isSome

/-- The loop of `aggregate`, over the readings in the order in which the map is visited. -/
def totals (readings : List (StatsReading F)) : Totals F :=
  readings.foldl Totals.add ⟨{ cpuPercent := Percent.zero }, 0, !readings.isEmpty⟩

def aggregate (readings : List (StatsReading F)) : AggregateStats F :=
  let totals := totals readings
  { totals.result with
    memoryWorkingSetBytes := if totals.allHaveWorking then some totals.workingTotal else none }

end Aggregation

def StatsHistoryPoint.ofAggregate {F : Type} (aggregate : AggregateStats F) (sampledAt : Int) :
    StatsHistoryPoint F where
  sampledAt
  cpuPercent := aggregate.cpuPercent
  memoryRawBytes := aggregate.memoryRawBytes
  memoryWorkingSetBytes := aggregate.memoryWorkingSetBytes
  networkRxBytes := aggregate.networkRxBytes
  networkTxBytes := aggregate.networkTxBytes

/-! ## The state -/

def statsHistoryCapacity : Nat := 600

inductive LiveStatsStatus where
  | idle
  | streaming
  | ready
  | error
deriving DecidableEq

structure ContainerStatsState (F : Type) where
  selectionKind : LogSelectionKind := .none
  selectionId : String := ""
  targets : List StatsTarget := []
  active : Bool := false
  generation : UInt64 := 0
  status : LiveStatsStatus := .idle
  errorMessage : String := ""
  latest : AList fun _ : String => StatsReading F := ∅
  history : List (StatsHistoryPoint F) := []

def statsTargetAt (names : List String) (index : Nat) (id : String) : StatsTarget where
  id := id
  name := (names[index]?.filter (· ≠ "")).getD (String.ofList (id.toList.take 12))

/-- The running containers from a place of the selection on, after those of `result`. -/
def addStatsTargets (kind : LogSelectionKind) (states names : List String) :
    Nat → List String → List StatsTarget → List StatsTarget
  | _, [], result => result
  | index, id :: ids, result =>
    let running := (states[index]?.map (eqIgnoreAsciiCase · "running")).getD false
    if trim id = "" ∨ ¬ running ∨ result.any (·.id = id) then
      addStatsTargets kind states names (index + 1) ids result
    else
      let result := result ++ [statsTargetAt names index id]
      if kind = .container then result
      else addStatsTargets kind states names (index + 1) ids result

def buildStatsTargets (kind : LogSelectionKind) (selectionId : String)
    (ids states names : List String) : List StatsTarget :=
  if kind = .none ∨ trim selectionId = "" then [] else addStatsTargets kind states names 0 ids []

namespace ContainerStatsState

variable {F : Type} [Percent F] (s : ContainerStatsState F)

def shouldStream : Bool := s.active && s.selectionKind ≠ .none && !s.targets.isEmpty

def streamStatus : LiveStatsStatus := if s.shouldStream then .streaming else .idle

def resetSamples : ContainerStatsState F :=
  { s with latest := ∅, history := [], errorMessage := "", status := s.streamStatus }

def setSelection (kind id : String) (ids states names : List String) :
    Bool × ContainerStatsState F :=
  let kind := normalizeKind kind
  let targets := buildStatsTargets kind id ids states names
  if s.selectionKind = kind ∧ s.selectionId = id ∧ s.targets = targets then (false, s)
  else
    (true, { s with
      generation := s.generation + 1
      selectionKind := kind
      selectionId := if kind = LogSelectionKind.none then "" else id
      targets }.resetSamples)

def setActive (active : Bool) : Bool × ContainerStatsState F :=
  if s.active = active then (false, s)
  else
    let s := { s with active, generation := s.generation + 1, errorMessage := "" }
    (true, { s with status := s.streamStatus })

def beginStream : Option (UInt64 × List StatsTarget) × ContainerStatsState F :=
  if ¬ s.shouldStream then (none, { s with status := .idle })
  else
    let s := { s with
      generation := s.generation + 1
      status := .streaming
      errorMessage := "" }
    (some (s.generation, s.targets), s)

/-- If a sample belongs to the stream and to a container of the selection. -/
def Accepts (generation : UInt64) (containerId : String) : Prop :=
  generation = s.generation ∧ s.shouldStream = true ∧
    s.targets.any (·.id = containerId) = true

instance (generation : UInt64) (containerId : String) :
    Decidable (s.Accepts generation containerId) :=
  inferInstanceAs (Decidable (_ ∧ _))

/-- `apply_sample`; `order` is the order in which `aggregate` visits the map. -/
def applySample (generation : UInt64) (containerId : String) (sample : StatsReading F)
    (order : IterationOrder (StatsReading F)) : Bool × ContainerStatsState F :=
  if ¬ s.Accepts generation containerId then (false, s)
  else
    let s := { s with latest := s.latest.insert containerId sample }
    let aggregate := aggregate (order.visit (values s.latest))
    match aggregate.sampledAt with
    | none => (false, s)
    | some sampledAt =>
      (true, { s with
        history := record (fun point => timestampSeconds point.sampledAt) statsHistoryCapacity
          s.history (.ofAggregate aggregate sampledAt)
        status := .ready
        errorMessage := "" })

def applyError (generation : UInt64) (message : String) : Bool × ContainerStatsState F :=
  if generation ≠ s.generation ∨ ¬ s.active then (false, s)
  else (true, { s with status := .error, errorMessage := message })

def shutdown : ContainerStatsState F :=
  { s with
    active := false
    generation := s.generation + 1
    status := .idle
    latest := ∅
    history := []
    errorMessage := "" }

end ContainerStatsState

inductive StatsCall (F : Type) where
  | setSelection (kind id : String) (ids states names : List String)
  | setActive (active : Bool)
  | beginStream
  | applySample (generation : UInt64) (containerId : String) (sample : StatsReading F)
      (order : IterationOrder (StatsReading F))
  | applyError (generation : UInt64) (message : String)
  | resetSamples
  | shutdown

namespace ContainerStatsState

variable {F : Type} [Percent F]

def after (s : ContainerStatsState F) : StatsCall F → ContainerStatsState F
  | .setSelection kind id ids states names => (s.setSelection kind id ids states names).2
  | .setActive active => (s.setActive active).2
  | .beginStream => s.beginStream.2
  | .applySample generation containerId sample order =>
    (s.applySample generation containerId sample order).2
  | .applyError generation message => (s.applyError generation message).2
  | .resetSamples => s.resetSamples
  | .shutdown => s.shutdown

/-- A container that reported before does not go back in time. -/
def InOrder (s : ContainerStatsState F) : StatsCall F → Prop
  | .applySample generation containerId sample _ =>
    s.Accepts generation containerId →
      ∀ old ∈ s.latest.lookup containerId, old.sampledAt ≤ sample.sampledAt
  | _ => True

instance decidableInOrder (s : ContainerStatsState F) : ∀ call, Decidable (s.InOrder call)
  | .applySample generation containerId sample _ =>
    inferInstanceAs (Decidable (s.Accepts generation containerId →
      ∀ old ∈ s.latest.lookup containerId, old.sampledAt ≤ sample.sampledAt))
  | .setSelection .. | .setActive _ | .beginStream | .applyError .. | .resetSamples | .shutdown =>
    inferInstanceAs (Decidable True)

end ContainerStatsState

def statsPage (F : Type) [Percent F] : Machine (ContainerStatsState F) (StatsCall F) where
  init s := s = {}
  step s call := some (s.after call)

/-! ## Adding up in any order -/

section Order

variable {F : Type}

theorem toNat_saturatingAdd (a b : UInt64) :
    (saturatingAdd a b).toNat = min (a.toNat + b.toNat) (2 ^ 64 - 1) := by
  unfold saturatingAdd
  split
  · next hlt =>
    rw [UInt64.toNat_add, Nat.mod_eq_of_lt hlt]
    omega
  · have hmax : (UInt64.ofNat (2 ^ 64 - 1)).toNat = 2 ^ 64 - 1 := by decide
    omega

theorem saturatingAdd_right_comm (a b c : UInt64) :
    saturatingAdd (saturatingAdd a b) c = saturatingAdd (saturatingAdd a c) b := by
  apply UInt64.toNat_inj.mp
  simp only [toNat_saturatingAdd]
  omega

/-- A reading without its share of the processor. -/
def StatsReading.counts (reading : StatsReading F) : StatsReading Unit :=
  { reading with cpuPercent := () }

/-- What a history point and the page's labels show, without the share of the processor. -/
def AggregateStats.counts (result : AggregateStats F) : AggregateStats Unit :=
  { result with cpuPercent := () }

def Totals.counts (totals : Totals F) : Totals Unit :=
  { totals with result := totals.result.counts }

/-- The order of two readings does not matter, the shares of the processor apart. -/
theorem Totals.add_right_comm (totals : Totals Unit) (a b : StatsReading Unit) :
    (totals.add a).add b = (totals.add b).add a := by
  have hmax : ∀ sampledAt : Option Int,
      max ((sampledAt.map (max · a.sampledAt)).getD a.sampledAt) b.sampledAt =
        max ((sampledAt.map (max · b.sampledAt)).getD b.sampledAt) a.sampledAt := by
    intro sampledAt
    cases sampledAt with
    | none => exact Int.max_comm ..
    | some t =>
      simp only [Option.map_some, Option.getD_some]
      omega
  have hworking : ∀ total : UInt64,
      (b.memoryWorkingSetBytes.map (saturatingAdd ((a.memoryWorkingSetBytes.map
        (saturatingAdd total)).getD total))).getD ((a.memoryWorkingSetBytes.map
          (saturatingAdd total)).getD total) =
      (a.memoryWorkingSetBytes.map (saturatingAdd ((b.memoryWorkingSetBytes.map
        (saturatingAdd total)).getD total))).getD ((b.memoryWorkingSetBytes.map
          (saturatingAdd total)).getD total) := by
    intro total
    cases a.memoryWorkingSetBytes with
    | none => cases b.memoryWorkingSetBytes <;> rfl
    | some x =>
      cases b.memoryWorkingSetBytes with
      | none => rfl
      | some y => exact saturatingAdd_right_comm total x y
  unfold Totals.add
  simp only [Option.map_some, Option.getD_some, saturatingAdd_right_comm _ a.memoryRawBytes,
    saturatingAdd_right_comm _ a.memoryLimitBytes, saturatingAdd_right_comm _ a.networkRxBytes,
    saturatingAdd_right_comm _ a.networkTxBytes, saturatingAdd_right_comm _ a.blockReadBytes,
    saturatingAdd_right_comm _ a.blockWriteBytes, saturatingAdd_right_comm _ a.pids, hmax,
    hworking, Bool.and_right_comm]

variable [Percent F]

theorem counts_totals (readings : List (StatsReading F)) :
    (totals readings).counts = totals (readings.map StatsReading.counts) := by
  have hfold : ∀ start : Totals F, (readings.foldl Totals.add start).counts =
      (readings.map StatsReading.counts).foldl Totals.add start.counts := by
    induction readings with
    | nil => exact fun _ => rfl
    | cons reading readings ih => exact fun start => ih (start.add reading)
  rw [totals, hfold, totals, List.isEmpty_map]
  rfl

variable {other seen : List (StatsReading F)} {time : Option Int}

/-- **The aggregate does not depend on the order of the map**, the share of the processor
apart. -/
theorem counts_aggregate_perm {readings : List (StatsReading F)} (h : readings.Perm other) :
    (aggregate readings).counts = (aggregate other).counts := by
  have hcounts : (totals readings).counts = (totals other).counts := by
    rw [counts_totals, counts_totals, totals, totals, List.isEmpty_map, List.isEmpty_map,
      h.isEmpty_eq]
    refine (h.map StatsReading.counts).foldl_eq' ?_ _
    intro a _ b _ total
    exact total.add_right_comm a b
  have hresult := congrArg Totals.result hcounts
  have hworking := congrArg Totals.workingTotal hcounts
  have hall := congrArg Totals.allHaveWorking hcounts
  unfold aggregate AggregateStats.counts
  unfold Totals.counts AggregateStats.counts at *
  simp only [AggregateStats.mk.injEq] at hresult hworking hall ⊢
  rw [hworking, hall]
  tauto

/-- A time that is that of the newest of some readings, or none when there are none. -/
structure Newest (time : Option Int) (seen : List (StatsReading F)) : Prop where
  exists_reading : ∀ t ∈ time, ∃ reading ∈ seen, reading.sampledAt = t
  le : ∀ reading ∈ seen, ∃ t ∈ time, reading.sampledAt ≤ t

omit [Percent F] in
theorem Newest.add (h : Newest time seen) (reading : StatsReading F) :
    Newest (some ((time.map (max · reading.sampledAt)).getD reading.sampledAt))
      (seen ++ [reading]) := by
  constructor
  · rintro t ht
    cases ht
    cases htime : time with
    | none => exact ⟨reading, by simp, rfl⟩
    | some t =>
      rw [Option.map_some, Option.getD_some]
      rcases Int.le_total t reading.sampledAt with hle | hle
      · exact ⟨reading, by simp, (Int.max_eq_right hle).symm⟩
      · obtain ⟨old, hold, heq⟩ := h.exists_reading t htime
        exact ⟨old, List.mem_append_left _ hold, heq.trans (Int.max_eq_left hle).symm⟩
  · intro other hother
    refine ⟨_, rfl, ?_⟩
    rcases List.mem_append.mp hother with hold | hnew
    · obtain ⟨t, ht, hle⟩ := h.le other hold
      cases ht
      exact Int.le_trans hle (Int.le_max_left ..)
    · rw [List.mem_singleton.mp hnew]
      cases time with
      | none => exact Int.le_refl _
      | some t => exact Int.le_max_right ..

omit [Percent F] in
theorem Newest.perm (h : Newest time seen) (hperm : seen.Perm other) : Newest time other where
  exists_reading t ht := by
    obtain ⟨reading, hreading, heq⟩ := h.exists_reading t ht
    exact ⟨reading, hperm.subset hreading, heq⟩
  le reading hreading := h.le reading (hperm.symm.subset hreading)

/-- **The time of the aggregate** is that of the newest reading. -/
theorem newest_aggregate (readings : List (StatsReading F)) :
    Newest (aggregate readings).sampledAt readings := by
  have hfold : ∀ (rest seen : List (StatsReading F)) (start : Totals F),
      Newest start.result.sampledAt seen →
        Newest (rest.foldl Totals.add start).result.sampledAt (seen ++ rest) := by
    intro rest
    induction rest with
    | nil =>
      intro seen start h
      rw [List.append_nil]
      exact h
    | cons reading rest ih =>
      intro seen start h
      rw [List.append_cons]
      exact ih _ (start.add reading) (h.add reading)
  exact hfold readings [] _ ⟨fun t ht => (by cases ht), fun reading hreading => (by cases hreading)⟩

end Order

/-! ## The history -/

/-- What a point shows, the share of the processor apart. -/
structure StatsHistoryPoint.Shows {F : Type} (point : StatsHistoryPoint F)
    (result : AggregateStats F) : Prop where
  sampledAt : some point.sampledAt = result.sampledAt
  memoryRawBytes : point.memoryRawBytes = result.memoryRawBytes
  memoryWorkingSetBytes : point.memoryWorkingSetBytes = result.memoryWorkingSetBytes
  networkRxBytes : point.networkRxBytes = result.networkRxBytes
  networkTxBytes : point.networkTxBytes = result.networkTxBytes

namespace ContainerStatsState

variable {F : Type} [Percent F] {s : ContainerStatsState F}

/-- The history of the page: no more points than there is room for, one for each second and
the seconds increasing; none as long as there is no reading, and else the last one is the
aggregate of the last readings, in whatever order the map is visited; and the readings are of
containers of the selection. -/
structure HistorySound (s : ContainerStatsState F) : Prop where
  capacity : s.history.length ≤ statsHistoryCapacity
  increasing : Increasing (fun point => timestampSeconds point.sampledAt) s.history
  empty : s.history = [] ↔ s.latest = ∅
  last : ∀ point ∈ s.history.getLast?, ∀ order : IterationOrder (StatsReading F),
    point.Shows (aggregate (order.visit (values s.latest)))
  targets : ∀ id ∈ s.latest, s.targets.any (·.id = id) = true

theorem historySound_of_empty (hlatest : s.latest = ∅) (hhistory : s.history = []) :
    s.HistorySound where
  capacity := by
    rw [hhistory]
    exact Nat.zero_le _
  increasing := by
    rw [hhistory]
    exact List.Pairwise.nil
  empty := iff_of_true hhistory hlatest
  last point hpoint := by
    rw [hhistory] at hpoint
    cases hpoint
  targets id hid := by
    rw [hlatest] at hid
    exact absurd hid (AList.notMem_empty id)

/-- What the history says depends on the readings, the points and the containers. -/
theorem HistorySound.congr {t : ContainerStatsState F} (h : s.HistorySound)
    (hlatest : t.latest = s.latest) (hhistory : t.history = s.history)
    (htargets : t.targets = s.targets) : t.HistorySound where
  capacity := hhistory ▸ h.capacity
  increasing := hhistory ▸ h.increasing
  empty := by rw [hlatest, hhistory, h.empty]
  last := by
    rw [hlatest, hhistory]
    exact h.last
  targets := by
    rw [hlatest, htargets]
    exact h.targets

/-- A point that is made of one order shows the aggregate of any other one. -/
theorem shows_of_perm {readings other : List (StatsReading F)} {point : StatsHistoryPoint F}
    (hpoint : point.Shows (aggregate readings)) (hperm : readings.Perm other) :
    point.Shows (aggregate other) := by
  have hcounts := counts_aggregate_perm hperm
  unfold AggregateStats.counts at hcounts
  simp only [AggregateStats.mk.injEq, true_and] at hcounts
  obtain ⟨hraw, hworking, -, hrx, htx, -, -, -, htime, -⟩ := hcounts
  exact ⟨hpoint.sampledAt.trans htime, hpoint.memoryRawBytes.trans hraw,
    hpoint.memoryWorkingSetBytes.trans hworking, hpoint.networkRxBytes.trans hrx,
    hpoint.networkTxBytes.trans htx⟩

variable {id : String} {generation : UInt64}

variable {sample : StatsReading F}

omit [Percent F] in
/-- The time of the newest reading does not go back when a container reports again. -/
theorem newest_le {t t' : Int}
    (hinOrder : ∀ old ∈ s.latest.lookup id, old.sampledAt ≤ sample.sampledAt)
    (ht : Newest (some t) (values s.latest))
    (ht' : Newest (some t') (values (s.latest.insert id sample))) : t ≤ t' := by
  obtain ⟨reading, hreading, rfl⟩ := ht.exists_reading t rfl
  obtain ⟨k, hk⟩ := exists_lookup_of_mem_values hreading
  have hle : ∀ newer ∈ values (s.latest.insert id sample), newer.sampledAt ≤ t' := by
    intro newer hnewer
    obtain ⟨_, heq, hle⟩ := ht'.le newer hnewer
    cases heq
    exact hle
  by_cases hid : k = id
  · subst hid
    refine Int.le_trans (hinOrder reading hk) (hle sample (mem_values (k := k) ?_))
    rw [AList.lookup_insert]
  · refine hle reading (mem_values (k := k) ?_)
    rw [AList.lookup_insert_ne hid, hk]

theorem applySample_of_accepts (sample : StatsReading F) (order : IterationOrder (StatsReading F))
    (h : s.Accepts generation id) : ∃ point : StatsHistoryPoint F,
      point.Shows (aggregate (order.visit (values (s.latest.insert id sample)))) ∧
        (s.applySample generation id sample order).2 = { s with
          latest := s.latest.insert id sample
          history := record (fun point => timestampSeconds point.sampledAt) statsHistoryCapacity
            s.history point
          status := .ready
          errorMessage := "" } := by
  have hmem : sample ∈ order.visit (values (s.latest.insert id sample)) :=
    (order.perm _).symm.subset (mem_values (k := id) (by rw [AList.lookup_insert]))
  obtain ⟨t, ht, -⟩ := (newest_aggregate _).le sample hmem
  have hsome := Option.mem_def.mp ht
  unfold ContainerStatsState.applySample
  rw [if_neg (not_not.mpr h)]
  dsimp only
  refine ⟨.ofAggregate (aggregate (order.visit (values (s.latest.insert id sample)))) t,
    ⟨ht.symm, rfl, rfl, rfl, rfl⟩, ?_⟩
  simp only [hsome]

/-- **A sample that is taken** keeps the history. -/
theorem HistorySound.applySample (h : s.HistorySound) {order : IterationOrder (StatsReading F)}
    (haccepts : s.Accepts generation id)
    (hinOrder : ∀ old ∈ s.latest.lookup id, old.sampledAt ≤ sample.sampledAt) :
    (s.applySample generation id sample order).2.HistorySound := by
  obtain ⟨point, hpoint, hafter⟩ := applySample_of_accepts sample order haccepts
  rw [hafter]
  constructor
  case capacity => exact length_record (by decide) _ _
  case increasing =>
    refine h.increasing.record fun last hlast => ?_
    have hold : Newest (some last.sampledAt) (values s.latest) := by
      rw [(h.last last hlast order).sampledAt]
      exact (newest_aggregate _).perm (order.perm _)
    have hnew : Newest (some point.sampledAt) (values (s.latest.insert id sample)) := by
      rw [hpoint.sampledAt]
      exact (newest_aggregate _).perm (order.perm _)
    exact Int.ediv_le_ediv (by decide) (newest_le hinOrder hold hnew)
  case empty =>
    refine iff_of_false record_ne_nil fun hnil => ?_
    have hlookup : (s.latest.insert id sample).lookup id = some sample := by
      rw [AList.lookup_insert]
    have hempty : s.latest.insert id sample = ∅ := hnil
    rw [hempty, AList.lookup_empty] at hlookup
    cases hlookup
  case last =>
    intro last hlast other
    rw [getLast_record] at hlast
    cases hlast
    exact shows_of_perm hpoint ((order.perm _).trans (other.perm _).symm)
  case targets =>
    intro other hother
    rcases (AList.mem_insert _).mp hother with rfl | hold
    · exact haccepts.2.2
    · exact h.targets other hold

theorem applySample_of_not_accepts (sample : StatsReading F)
    (order : IterationOrder (StatsReading F)) (h : ¬ s.Accepts generation id) :
    s.applySample generation id sample order = (false, s) := by
  unfold ContainerStatsState.applySample
  exact if_pos h

/-- **One operation** keeps the history, when the samples come in order. -/
theorem HistorySound.after (h : s.HistorySound) (call : StatsCall F) (hinOrder : s.InOrder call) :
    (s.after call).HistorySound := by
  cases call with
  | setSelection kind id ids states names =>
    show (s.setSelection kind id ids states names).2.HistorySound
    unfold ContainerStatsState.setSelection
    dsimp only
    split
    · exact h
    · exact historySound_of_empty rfl rfl
  | setActive active =>
    show (s.setActive active).2.HistorySound
    unfold ContainerStatsState.setActive
    split
    · exact h
    · exact h.congr rfl rfl rfl
  | beginStream =>
    show s.beginStream.2.HistorySound
    unfold ContainerStatsState.beginStream
    split
    · exact h.congr rfl rfl rfl
    · exact h.congr rfl rfl rfl
  | applySample generation id sample order =>
    by_cases haccepts : s.Accepts generation id
    · exact h.applySample haccepts (hinOrder haccepts)
    · show (s.applySample generation id sample order).2.HistorySound
      rw [applySample_of_not_accepts sample order haccepts]
      exact h
  | applyError generation message =>
    show (s.applyError generation message).2.HistorySound
    unfold ContainerStatsState.applyError
    split
    · exact h
    · exact h.congr rfl rfl rfl
  | resetSamples | shutdown => exact historySound_of_empty rfl rfl

/-- **The history of the page**, after every run in which no container goes back in time; and
a sample of another stream, or of a container that is not in the selection, changes nothing. -/
theorem history_sound (h : (statsPage F).Reach InOrder s) :
    s.HistorySound ∧ ∀ generation id (sample : StatsReading F) order,
      generation ≠ s.generation ∨ (∀ target ∈ s.targets, target.id ≠ id) →
        s.applySample generation id sample order = (false, s) := by
  constructor
  · refine h.invariant (I := HistorySound) ?_ ?_
    · rintro s rfl
      exact historySound_of_empty rfl rfl
    · rintro s call s' hsound hinOrder hstep
      cases hstep
      exact hsound.after call hinOrder
  · intro generation id sample order hforeign
    refine applySample_of_not_accepts sample order fun haccepts => ?_
    rcases hforeign with hgeneration | hother
    · exact hgeneration haccepts.1
    · obtain ⟨target, htarget, hid⟩ := List.any_eq_true.mp haccepts.2.2
      exact hother target htarget (of_decide_eq_true hid)

end ContainerStatsState

/-! ## A run -/

/-- A reading of a number of bytes, at a second. -/
def sampleReading (bytes : UInt64) (second : Int) : StatsReading Unit :=
  ⟨(), bytes, some bytes, 100, 0, 0, 0, 0, 1, second * 10 ^ 9⟩

def anyOrder : IterationOrder (StatsReading Unit) := ⟨id, fun l => List.Perm.refl l⟩

/-- Two containers of a group report, one of them twice. -/
def twoMembers : List (StatsCall Unit) :=
  [.setSelection "group" "g" ["a", "b"] ["running", "running"] ["alpha", "beta"],
    .setActive true, .beginStream, .applySample 3 "a" (sampleReading 10 5) anyOrder,
    .applySample 3 "b" (sampleReading 20 5) anyOrder,
    .applySample 3 "a" (sampleReading 40 6) anyOrder]

theorem twoMembers_history : ∃ s, (statsPage Unit).exec {} twoMembers = some s ∧
    s.history.map (fun point => (point.sampledAt, point.memoryRawBytes)) =
      [(5 * 10 ^ 9, 30), (6 * 10 ^ 9, 60)] ∧ s.HistorySound := by
  have hrun : ((statsPage Unit).exec {} twoMembers).map (fun s =>
      s.history.map fun point => (point.sampledAt, point.memoryRawBytes)) =
        some [(5 * 10 ^ 9, 30), (6 * 10 ^ 9, 60)] := by
    decide +kernel
  have hinOrder : (statsPage Unit).AllSteps ContainerStatsState.InOrder {} twoMembers := by
    decide +kernel
  obtain ⟨s, hexec, hpoints⟩ := Option.map_eq_some_iff.mp hrun
  have hreach := Machine.reach_of_exec (.init rfl) hinOrder hexec
  exact ⟨s, hexec, hpoints, (ContainerStatsState.history_sound hreach).1⟩

end TuxStack.Gui
