/-
This file keeps a ledger of partitions. A chronicle shows which calls have made or dropped a
catalogue entry, and the ledger adds them up, for each granularity; what has been made and not
been dropped is in the catalogue. Every operation is then described by what it enters: a fold
makes as many partitions of its granularity as it reports, a reclaim drops as many as it
reports, and nothing else is entered. Operations that fail have entered something too, of
which no report is left.
-/

import EpochRollup.Proofs.Reclaim

namespace EpochRollup

/-! ### Entries of the catalogue -/

namespace Tables

/-- How many partitions of a granularity the catalogue lists. -/
def partitionCount (tables : Tables) (granularity : Granularity) : Nat :=
  tables.catalogue.countP (·.granularity = granularity)

variable {tables : Tables}

theorem partitionCount_ensure (partition : Partition) (granularity : Granularity) :
    (tables.ensure partition).partitionCount granularity =
      tables.partitionCount granularity +
        if granularity = partition.granularity then
          (!tables.hasPartition partition.name).toNat else 0 := by
  unfold ensure partitionCount
  cases tables.hasPartition partition.name with
  | true => simp
  | false => simp [List.countP_append, eq_comm]

/-- A drop removes the entry of the name, which belongs to the granularity of the partition. -/
theorem partitionCount_drop (names : (tables.catalogue.map Partition.name).Nodup)
    {partition : Partition}
    (own : ∀ entry : Partition, entry.name = partition.name →
      entry.granularity = partition.granularity) (granularity : Granularity) :
    tables.partitionCount granularity = (tables.drop partition).partitionCount granularity +
        if granularity = partition.granularity then
          (tables.hasPartition partition.name).toNat else 0 := by
  have alike : ∀ entry : Partition, entry.name = partition.name →
      decide (entry.granularity = granularity) = decide (granularity = partition.granularity) :=
    fun entry same => by simp [own entry same, eq_comm]
  have counted := countP_catalogue_drop names alike
  unfold partitionCount
  rw [← counted]
  cases tables.hasPartition partition.name <;> by_cases granularity = partition.granularity <;>
    simp [*]

end Tables

/-! ### Ledgers -/

/-- How many partitions of each granularity have been made and dropped. -/
@[ext]
structure Ledger where
  /-- Partitions made. -/
  created : Granularity → Nat
  /-- Partitions dropped. -/
  dropped : Granularity → Nat

namespace Ledger

variable (ledger : Ledger) (granularity : Granularity) (first second : Nat)

/-- A ledger with more partitions of a granularity made. -/
def create : Ledger :=
  { ledger with
    created := fun other =>
      ledger.created other + if other = granularity then first else 0 }

/-- A ledger with more partitions of a granularity dropped. -/
def drop : Ledger :=
  { ledger with
    dropped := fun other =>
      ledger.dropped other + if other = granularity then first else 0 }

@[simp] theorem create_zero : ledger.create granularity 0 = ledger := by simp [create]

@[simp] theorem drop_zero : ledger.drop granularity 0 = ledger := by simp [drop]

theorem create_create :
    (ledger.create granularity first).create granularity second =
      ledger.create granularity (first + second) := by
  unfold create
  congr 1
  funext other
  dsimp only
  split <;> omega

theorem drop_drop :
    (ledger.drop granularity first).drop granularity second =
      ledger.drop granularity (first + second) := by
  unfold drop
  congr 1
  funext other
  dsimp only
  split <;> omega

end Ledger

namespace Chronicle

/-- What the calls of a chronicle add up to, when the amount of each is told by the tables before
and after it. -/
def sumOver (amount : Tables → Tables → Nat) : Tables → List Tables → Nat
  | _, [] => 0
  | after, before :: past => amount before after + sumOver amount before past

/-- The ledger of a chronicle. -/
def ledger (log : Chronicle) : Ledger where
  created granularity := sumOver
    (fun before after => after.partitionCount granularity - before.partitionCount granularity)
    log.now log.past
  dropped granularity := sumOver
    (fun before after => before.partitionCount granularity - after.partitionCount granularity)
    log.now log.past

theorem sumOver_record {amount : Tables → Tables → Nat} (same : ∀ tables, amount tables tables = 0)
    (log : Chronicle) (after : Tables) :
    sumOver amount (log.record after).now (log.record after).past =
      amount log.now after + sumOver amount log.now log.past := by
  unfold record
  split
  · rename_i unchanged
    rw [unchanged, same, Nat.zero_add]
  · rfl

theorem created_record (log : Chronicle) (after : Tables) (granularity : Granularity) :
    (log.record after).ledger.created granularity =
      (after.partitionCount granularity - log.now.partitionCount granularity) +
        log.ledger.created granularity :=
  sumOver_record (fun _ => Nat.sub_self _) log after

theorem dropped_record (log : Chronicle) (after : Tables) (granularity : Granularity) :
    (log.record after).ledger.dropped granularity =
      (log.now.partitionCount granularity - after.partitionCount granularity) +
        log.ledger.dropped granularity :=
  sumOver_record (fun _ => Nat.sub_self _) log after

/-- A chronicle has this ledger, the catalogue lists each name once, and it lists what the ledger
leaves. -/
structure Stands (log : Chronicle) (ledger : Ledger) : Prop where
  /-- Names are the keys of the catalogue. -/
  names : (log.now.catalogue.map Partition.name).Nodup
  /-- The ledger is this one. -/
  entries : log.ledger = ledger
  /-- What has been made and not been dropped is there. -/
  balance : ∀ granularity, log.now.partitionCount granularity + ledger.dropped granularity =
    ledger.created granularity

theorem stands_start : start.Stands ⟨fun _ => 0, fun _ => 0⟩ :=
  ⟨List.nodup_nil, rfl, fun _ => rfl⟩

namespace Stands

variable {log : Chronicle} {ledger : Ledger} {after : Tables}

/-- The books are closed once more. -/
theorem record (stands : log.Stands ledger) (names : (after.catalogue.map Partition.name).Nodup)
    {entered : Ledger}
    (created : ∀ granularity, entered.created granularity =
      ledger.created granularity +
        (after.partitionCount granularity - log.now.partitionCount granularity))
    (dropped : ∀ granularity, entered.dropped granularity =
      ledger.dropped granularity +
        (log.now.partitionCount granularity - after.partitionCount granularity)) :
    (log.record after).Stands entered := by
  refine ⟨by rwa [now_record], ?entries, fun granularity => ?balance⟩
  case entries =>
    ext granularity
    · rw [created_record, stands.entries, created, Nat.add_comm]
    · rw [dropped_record, stands.entries, dropped, Nat.add_comm]
  case balance =>
    have before := stands.balance granularity
    rw [now_record, created, dropped]
    omega

theorem of_catalogue_eq (stands : log.Stands ledger) (same : after.catalogue = log.now.catalogue) :
    (log.record after).Stands ledger := by
  have counts (granularity : Granularity) :
      after.partitionCount granularity = log.now.partitionCount granularity := by
    unfold Tables.partitionCount
    rw [same]
  refine stands.record (by rw [same]; exact stands.names) ?_ ?_
  · intro granularity
    rw [counts, Nat.sub_self, Nat.add_zero]
  · intro granularity
    rw [counts, Nat.sub_self, Nat.add_zero]

/-- A partition that is made is entered. -/
theorem ensure (stands : log.Stands ledger) (partition : Partition) :
    (log.record (log.now.ensure partition)).Stands
      (ledger.create partition.granularity (!log.now.hasPartition partition.name).toNat) := by
  refine stands.record (Tables.nodup_names_ensure stands.names partition) ?_ ?_
  · intro granularity
    rw [Tables.partitionCount_ensure, Nat.add_sub_cancel_left]
    rfl
  · intro granularity
    rw [Tables.partitionCount_ensure, Nat.sub_eq_zero_of_le (Nat.le_add_right _ _)]
    rfl

/-- A partition that is dropped is entered. -/
theorem drop (stands : log.Stands ledger) {partition : Partition}
    (own : ∀ entry : Partition, entry.name = partition.name →
      entry.granularity = partition.granularity) :
    (log.record (log.now.drop partition)).Stands
      (ledger.drop partition.granularity (log.now.hasPartition partition.name).toNat) := by
  have counts := Tables.partitionCount_drop stands.names own
  refine stands.record (Tables.nodup_names_drop stands.names partition) ?_ ?_
  · intro granularity
    rw [counts, Nat.sub_eq_zero_of_le (Nat.le_add_right _ _)]
    rfl
  · intro granularity
    rw [counts, Nat.add_sub_cancel_left]
    rfl

end Stands

end Chronicle

/-! ### What operations enter -/

section

variable {regime : Regime} {ledger : Ledger} {layout : BucketLayout} {granularity : Granularity}

theorem Regime.stable_stands (regime : Regime) (ledger : Ledger) :
    regime.Stable fun log => log.Stands ledger := by
  intro log rows after stands _ given
  obtain ⟨stored, -, rfl⟩ := given.upsertEpochs
  exact stands.of_catalogue_eq rfl

section

variable {always : Chronicle → Prop} (failing : ∀ log : Chronicle, log.Stands ledger → always log)

include failing

/-- A procedure whose calls leave the catalogue alone enters nothing. -/
theorem Procedure.Asks.keeps_stands {Result : Type} {procedure : Procedure Result}
    {allowed : StoreCall → Prop} (asks : procedure.Asks allowed)
    (same : ∀ call, allowed call → ∀ (tables : Tables) (answer : call.Answer) (after : Tables),
      Given tables call answer after → after.catalogue = tables.catalogue) :
    procedure.Keeps regime always (fun log => log.Stands ledger)
      fun _ log => log.Stands ledger := by
  have keeps : procedure.Keeps regime (fun log => log.Stands ledger)
      (fun log => log.Stands ledger) fun _ log => log.Stands ledger :=
    asks.keeps (regime.stable_stands ledger) fun call permitted _ answer after stands given =>
      stands.of_catalogue_eq (same call permitted _ answer after given)
  exact keeps.weaken failing (fun _ stands => stands) fun _ _ stands => stands

theorem keeps_stands_bound (clock : ChainClock) (bound : Bound) :
    (storedBounds clock bound).Keeps regime always (fun log => log.Stands ledger)
      fun _ log => log.Stands ledger :=
  Procedure.Asks.keeps_stands failing (asks_storedBounds clock bound) fun _ looks _ _ _ given => by
    rw [given.of_looks looks]

theorem keeps_stands_refreshWindow (clock : ChainClock) :
    (refreshWindow (storedBounds clock)).Keeps regime always (fun log => log.Stands ledger)
      fun _ log => log.Stands ledger :=
  Procedure.Asks.keeps_stands failing (asks_refreshWindow clock) fun _ refreshes _ _ _ given => by
    obtain ⟨rolling, rfl⟩ := given.of_refreshes refreshes
    rfl

theorem BucketLayout.keeps_stands_foldBucket (bucket : EpochRange) :
    (layout.foldBucket granularity bucket).Keeps regime always (fun log => log.Stands ledger)
      fun _ log => log.Stands ledger := by
  have stable := regime.stable_stands ledger
  cases granularity with
  | hourly =>
    refine Procedure.keeps_askFor stable failing fun log count after stands given =>
      stands.of_catalogue_eq ?_
    rcases given.foldHour with ⟨-, -, rfl⟩ | ⟨last, rows, -, -, -, -, -, rfl⟩ <;> rfl
  | daily =>
    refine Procedure.keeps_askFor stable failing fun log count after stands given =>
      stands.of_catalogue_eq ?_
    rcases given.foldDay with ⟨-, -, rfl⟩ | ⟨first, last, rows, -, -, -, -, -, -, rfl⟩ <;> rfl

end

/-- A ledger in which nothing is entered is one of those in which something is. -/
theorem Chronicle.Stands.exists_create {log : Chronicle} (stands : log.Stands ledger)
    (granularity : Granularity) : ∃ count, log.Stands (ledger.create granularity count) :=
  ⟨0, by rwa [Ledger.create_zero]⟩

theorem Chronicle.Stands.exists_drop {log : Chronicle} (stands : log.Stands ledger)
    (granularity : Granularity) : ∃ count, log.Stands (ledger.drop granularity count) :=
  ⟨0, by rwa [Ledger.drop_zero]⟩

namespace BucketLayout

/-- One bucket enters its partition, if that is made. -/
theorem keeps_created_aggregate (bucket : EpochRange) :
    (layout.aggregate granularity bucket).Keeps regime
      (fun log => ∃ count, log.Stands (ledger.create granularity count))
      (fun log => log.Stands ledger)
      fun result log => log.Stands (ledger.create granularity result.2.toNat) := by
  refine Procedure.keeps_bind
    (fun result log => log.Stands (ledger.create granularity result.2.toNat)) ?_ fun result => ?_
  · refine Procedure.keeps_compute_bind (fun _ stands => stands.exists_create _)
      fun partition found => ?_
    rw [layout.partitionFor_eq_ok found]
    refine Procedure.keeps_bind
      (fun created log => log.Stands (ledger.create granularity created.toNat))
      (Procedure.keeps_askFor (regime.stable_stands ledger)
        (fun _ stands => stands.exists_create _) ?_)
      fun created => Procedure.keeps_pure fun _ stands => stands
    intro log created after stands given
    obtain ⟨rfl, rfl⟩ := given.ensurePartition
    have entered := stands.ensure (layout.partitionAt granularity bucket.start)
    rwa [granularity_partitionAt] at entered
  · exact Procedure.keeps_bind _ (keeps_stands_foldBucket (fun _ stands => ⟨_, stands⟩) bucket)
      fun _ => Procedure.keeps_pure fun _ stands => stands

/-- A fold enters the partitions that it reports. -/
theorem keeps_created_foldBuckets (latest : Option EpochRange) (remaining candidate : Nat)
    (report : FoldReport) :
    (layout.foldBuckets granularity latest remaining candidate report).Keeps regime
      (fun log => ∃ count, log.Stands (ledger.create granularity count))
      (fun log => log.Stands (ledger.create granularity report.partitionsCreated))
      fun result log => log.Stands (ledger.create granularity result.partitionsCreated) := by
  induction remaining generalizing candidate report with
  | zero => exact Procedure.keeps_pure fun _ stands => stands
  | succ remaining inductionHypothesis =>
    refine Procedure.keeps_compute_bind (fun _ stands => ⟨_, stands⟩) fun bucket _ => ?_
    refine Procedure.keeps_compute_bind (fun _ stands => ⟨_, stands⟩) fun closesAt _ => ?_
    split
    · exact inductionHypothesis bucket.stop
        { report with bucketsSkipped := report.bucketsSkipped + 1 }
    · refine Procedure.keeps_bind
        (fun result log => log.Stands
          (ledger.create granularity (report.partitionsCreated + result.2.toNat))) ?_
        fun result => ?_
      · refine (keeps_created_aggregate bucket).weaken ?_ (fun _ stands => stands) ?_
        · rintro log ⟨count, stands⟩
          rw [Ledger.create_create] at stands
          exact ⟨_, stands⟩
        · intro result log stands
          rwa [Ledger.create_create] at stands
      · exact Procedure.keeps_compute_bind (fun _ stands => ⟨_, stands⟩) fun rowsWritten _ =>
          inductionHypothesis bucket.stop
            { report with
              bucketsFolded := report.bucketsFolded + 1
              rowsWritten
              partitionsCreated := report.partitionsCreated + result.2.toNat
              lastBucket := some bucket }

theorem keeps_created_foldThrough (latest : Option EpochRange) (resume head : Nat) :
    (layout.foldThrough granularity latest resume head).Keeps regime
      (fun log => ∃ count, log.Stands (ledger.create granularity count))
      (fun log => log.Stands ledger)
      fun result log => log.Stands (ledger.create granularity result.partitionsCreated) := by
  refine Procedure.keeps_compute_bind (fun _ stands => stands.exists_create _) fun bucket _ => ?_
  refine (keeps_created_foldBuckets latest _ resume .idle).weaken (fun _ stands => stands) ?_
    fun _ _ stands => stands
  intro log stands
  rwa [← Ledger.create_zero ledger granularity] at stands

theorem keeps_created_foldHours :
    (layout.foldHours (storedBounds layout.clock)).Keeps regime
      (fun log => ∃ count, log.Stands (ledger.create .hourly count))
      (fun log => log.Stands ledger)
      fun report log => log.Stands (ledger.create .hourly report.partitionsCreated) := by
  have idle (log : Chronicle) (stands : log.Stands ledger) :
      log.Stands (ledger.create .hourly FoldReport.idle.partitionsCreated) := by
    rwa [← Ledger.create_zero ledger .hourly] at stands
  have failing (log : Chronicle) (stands : log.Stands ledger) := stands.exists_create .hourly
  refine Procedure.keeps_bind _ (keeps_stands_bound failing _ .lastEpoch) fun head => ?_
  cases head with
  | none => exact Procedure.keeps_pure idle
  | some head =>
    refine Procedure.keeps_bind _ (keeps_stands_bound failing _ .lastHourly) fun latest => ?_
    cases latest with
    | some latest => exact keeps_created_foldThrough _ _ _
    | none =>
      exact Procedure.keeps_bind _ (keeps_stands_bound failing _ .firstEpoch) fun first =>
        keeps_created_foldThrough _ _ _

theorem keeps_created_foldDays :
    (layout.foldDays (storedBounds layout.clock)).Keeps regime
      (fun log => ∃ count, log.Stands (ledger.create .daily count))
      (fun log => log.Stands ledger)
      fun report log => log.Stands (ledger.create .daily report.partitionsCreated) := by
  have idle (log : Chronicle) (stands : log.Stands ledger) :
      log.Stands (ledger.create .daily FoldReport.idle.partitionsCreated) := by
    rwa [← Ledger.create_zero ledger .daily] at stands
  have failing (log : Chronicle) (stands : log.Stands ledger) := stands.exists_create .daily
  refine Procedure.keeps_bind _ (keeps_stands_bound failing _ .lastHourly) fun head => ?_
  cases head with
  | none => exact Procedure.keeps_pure idle
  | some head =>
    exact Procedure.keeps_bind _ (keeps_stands_bound failing _ .lastDaily) fun latest =>
      keeps_created_foldThrough _ _ _

/-- One candidate of a walk enters the partition that it drops, if that was there. -/
theorem keeps_dropped_reclaimAt (boundary candidate : Nat) (met : List EpochRange)
    (dropped : Nat) :
    (layout.reclaimAt granularity boundary candidate met dropped).Keeps regime
      (fun log => ∃ count, log.Stands (ledger.drop granularity count))
      (fun log => log.Stands (ledger.drop granularity dropped))
      fun result log => log.Stands (ledger.drop granularity result.2) := by
  refine Procedure.keeps_compute_bind (fun _ stands => ⟨_, stands⟩) fun partition found => ?_
  obtain rfl := layout.partitionFor_eq_ok found
  split
  · refine Procedure.keeps_bind
      (fun existed log => log.Stands (ledger.drop granularity (dropped + existed.toNat)))
      (Procedure.keeps_askFor (regime.stable_stands _) (fun _ stands => ⟨_, stands⟩) ?_)
      fun existed => ?_
    · intro log existed after stands given
      obtain ⟨rfl, rfl⟩ := given.dropPartition
      have own : ∀ entry : Partition,
          entry.name = (layout.partitionAt granularity candidate).name →
            entry.granularity = (layout.partitionAt granularity candidate).granularity :=
        fun entry same => (granularity_eq_of_name same).trans
          (granularity_partitionAt layout granularity candidate).symm
      have entered := stands.drop own
      rwa [granularity_partitionAt, Ledger.drop_drop] at entered
    · cases existed <;> exact Procedure.keeps_pure fun _ stands => stands
  · exact Procedure.keeps_pure fun _ stands => stands

/-- A walk enters the partitions that it counts. -/
theorem keeps_dropped_reclaimFrom (boundary oldest candidate : Nat) (met : List EpochRange)
    (dropped : Nat) :
    (layout.reclaimFrom granularity boundary oldest candidate met dropped).Keeps regime
      (fun log => ∃ count, log.Stands (ledger.drop granularity count))
      (fun log => log.Stands (ledger.drop granularity dropped))
      fun count log => log.Stands (ledger.drop granularity count) := by
  have positive := layout.width_pos granularity
  induction candidate using Nat.strongRecOn generalizing met dropped with
  | ind candidate inductionHypothesis =>
    rw [reclaimFrom]
    refine Procedure.keeps_bind _ (keeps_dropped_reclaimAt boundary candidate met dropped)
      fun result => ?_
    obtain ⟨last, count⟩ := result
    dsimp only
    split
    · exact Procedure.keeps_pure fun _ stands => stands
    · exact inductionHypothesis _ (by omega) last count

end BucketLayout

namespace Coordinator

variable {retention : RetentionPolicy}

theorem keeps_dropped_reclaim :
    ((ofStore layout retention).reclaim granularity).Keeps regime
      (fun log => ∃ count, log.Stands (ledger.drop granularity count))
      (fun log => log.Stands ledger)
      fun count log => log.Stands (ledger.drop granularity count) := by
  have none (log : Chronicle) (stands : log.Stands ledger) :
      log.Stands (ledger.drop granularity 0) := by rwa [Ledger.drop_zero]
  have failing (log : Chronicle) (stands : log.Stands ledger) := stands.exists_drop granularity
  unfold reclaim
  split
  · exact Procedure.keeps_pure none
  · refine Procedure.keeps_bind _ (keeps_stands_bound failing layout.clock .lastHourly)
      fun head => ?_
    cases head with
    | none => exact Procedure.keeps_pure none
    | some head =>
      dsimp only
      split
      · exact Procedure.keeps_pure none
      · refine Procedure.keeps_bind (fun _ log => log.Stands ledger) ?_ fun oldest => ?_
        · cases granularity with
          | hourly => exact keeps_stands_bound failing layout.clock .firstHourly
          | daily => exact keeps_stands_bound failing layout.clock .firstDaily
        · cases oldest with
          | none => exact Procedure.keeps_pure none
          | some oldest =>
            exact (BucketLayout.keeps_dropped_reclaimFrom _ oldest _ _ 0).weaken
              (fun _ stands => stands) none fun _ _ stands => stands

/-- A ledger with what a pass enters: days made, and partitions of both granularities dropped. -/
def passed (ledger : Ledger) (created hourlyDropped dailyDropped : Nat) : Ledger :=
  ((ledger.create .daily created).drop .hourly hourlyDropped).drop .daily dailyDropped

/-- A pass enters the partitions that it reports. One that fails enters some. -/
theorem keeps_passed_runPass :
    (ofStore layout retention).runPass.Keeps regime
      (fun log => ∃ created hourlyDropped dailyDropped,
        log.Stands (passed ledger created hourlyDropped dailyDropped))
      (fun log => log.Stands ledger)
      fun report log => log.Stands (passed ledger report.daily.partitionsCreated
        report.hourlyDropped report.dailyDropped) := by
  refine Procedure.keeps_bind (fun _ log => log.Stands ledger) ?_ fun rolling => ?_
  · refine (keeps_stands_refreshWindow (fun log stands => ⟨0, 0, 0, ?_⟩) layout.clock).inStep _
    simpa [passed] using stands
  refine Procedure.keeps_bind
    (fun (report : FoldReport) log =>
      log.Stands (ledger.create .daily report.partitionsCreated)) ?_ fun daily => ?_
  · refine (BucketLayout.keeps_created_foldDays.weaken ?_ (fun _ stands => stands)
      fun _ _ stands => stands).inStep _
    rintro log ⟨created, stands⟩
    exact ⟨created, 0, 0, by simpa [passed] using stands⟩
  refine Procedure.keeps_bind
    (fun dropped log =>
      log.Stands ((ledger.create .daily daily.partitionsCreated).drop .hourly dropped)) ?_
    fun hourlyDropped => ?_
  · refine (keeps_dropped_reclaim.weaken ?_ (fun _ stands => stands)
      fun _ _ stands => stands).inStep _
    rintro log ⟨dropped, stands⟩
    exact ⟨_, dropped, 0, by simpa [passed] using stands⟩
  refine Procedure.keeps_bind
    (fun dropped log =>
      log.Stands (passed ledger daily.partitionsCreated hourlyDropped dropped)) ?_
    fun dailyDropped => Procedure.keeps_pure fun _ stands => stands
  refine (keeps_dropped_reclaim.weaken ?_ (fun _ stands => stands)
    fun _ _ stands => stands).inStep _
  rintro log ⟨dropped, stands⟩
  exact ⟨_, _, dropped, stands⟩

end Coordinator

end

end EpochRollup
