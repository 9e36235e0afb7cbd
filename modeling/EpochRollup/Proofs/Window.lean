/-
This file proves that the trailing window is an exact snapshot and is replaced as a whole. The
window is searched for among the starts of whatever hours there are, so that it may begin
anywhere, and its last hour may cover a part of its bucket only. A refresh that comes back
leaves one row for each validator of these hours, with the sums of its own hours and with the
balances of the two hours at the ends, which it may have missed. A refresh that fails, at
whichever of its calls, leaves the rows that were there.

Of the hours nothing is asked but that their epochs are not negative. The length of the window
is a different matter: it is a day at most because folds never cover more of an hour than its
bucket, which is so in the states that runs reach (`Runs.steady`).
-/

import EpochRollup.Proofs.DailyRetention
import EpochRollup.Proofs.SteadyRun

namespace EpochRollup

/-! ### What a snapshot says -/

/-- The window of some hours, whose latest one is given. It ends with the coverage of the
latest hour, and begins with the earliest hour that starts in the day before that, or with the
latest hour where none does. -/
structure IsWindow (clock : ChainClock) (hours : List HourlyRow) (latest window : EpochRange) :
    Prop where
  /-- No hour starts later than the latest one. -/
  last : (hours.map (·.start)).max? = some (latest.start : Int)
  /-- Its coverage ends with the furthest of its rows. -/
  covered : ((hours.filter (·.start = (latest.start : Int))).map (·.stop)).max? =
    some (latest.stop : Int)
  /-- The window ends there. -/
  stop : window.stop = latest.stop
  /-- The window begins with an hour. -/
  begins : ∃ hour ∈ hours, hour.start = window.start
  /-- It is the earliest one of the last day. -/
  start : (latest.stop - clock.epochsPerDay ≤ window.start ∧
      ∀ hour ∈ hours, ((latest.stop - clock.epochsPerDay : Nat) : Int) ≤ hour.start →
        (window.start : Int) ≤ hour.start) ∨
    ((∀ hour ∈ hours, hour.start < ((latest.stop - clock.epochsPerDay : Nat) : Int)) ∧
      window.start = latest.start)

/-- The epochs at which the hours of a window start. -/
def windowStarts (window : EpochRange) (last : Nat) : EpochRange := ⟨window.start, last + 1⟩

/-- A row is the summary of the hours of its validator that start from the start of a window up
to its last hour. -/
structure RollingRow.Summarizes (hours : List HourlyRow) (window : EpochRange) (last : Nat)
    (row : RollingRow) : Prop where
  /-- The row starts with the window. -/
  start : row.start = window.start
  /-- It ends with the window. -/
  stop : row.stop = window.stop
  /-- The validator has an hour in the window. -/
  seen : ownHours hours (windowStarts window last) row.validator ≠ []
  /-- The integers are sums. -/
  integers : ∀ index, row.metrics.integers.get index =
    ((ownHours hours (windowStarts window last) row.validator).map
      (·.metrics.integers.get index)).sum
  /-- The mark is there when one hour has it. -/
  slashed : row.metrics.slashed =
    (ownHours hours (windowStarts window last) row.validator).any (·.metrics.slashed)
  /-- The first balance is that of its hour at the start of the window, if it has one there. -/
  balanceStart : row.metrics.balanceStart =
    ((ownHours hours (windowStarts window last) row.validator).find?
      (·.start = (window.start : Int))).bind (·.metrics.balanceStart)
  /-- The last balance is that of its last hour of the window, if it has one there. -/
  balanceEnd : row.metrics.balanceEnd =
    ((ownHours hours (windowStarts window last) row.validator).find?
      (·.start = (last : Int))).bind (·.metrics.balanceEnd)
  /-- The first chance is a compensated sum. -/
  syncChance : (Double.sum ((ownHours hours (windowStarts window last) row.validator).map
    (·.metrics.syncChance))).stored? = some row.metrics.syncChance
  /-- So is the second. -/
  blockChance : (Double.sum ((ownHours hours (windowStarts window last) row.validator).map
    (·.metrics.blockChance))).stored? = some row.metrics.blockChance

/-- Rows are the snapshot of the hours of a window: one for each of their validators, and no
others. -/
structure IsSnapshot (hours : List HourlyRow) (window : EpochRange) (last : Nat)
    (rolling : List RollingRow) : Prop where
  /-- Rows stand in the order of their validators, each of which has one row. -/
  ascending : rolling.Pairwise fun left right => left.validator < right.validator
  /-- Each validator of the hours has a row. -/
  complete : ∀ hour ∈ hoursIn hours (windowStarts window last),
    ∃ row ∈ rolling, row.validator = hour.validator
  /-- Each row is a summary. -/
  rows : ∀ row ∈ rolling, row.Summarizes hours window last

/-! ### The window that is found -/

/-- The earliest hour of the last day is found, or none is that late. -/
theorem Tables.dayOld?_cases (clock : ChainClock) {tables : Tables} {latest : EpochRange}
    (found : tables.lastHourly?.map EmbeddedStore.boundsOfStored = some latest) :
    (∃ hour ∈ tables.hourly, tables.dayOld? clock = some hour.start.toNat ∧
        ((latest.stop - clock.epochsPerDay : Nat) : Int) ≤ hour.start ∧
        ∀ other ∈ tables.hourly,
          ((latest.stop - clock.epochsPerDay : Nat) : Int) ≤ other.start →
            hour.start ≤ other.start) ∨
      (tables.dayOld? clock = none ∧ ∀ hour ∈ tables.hourly,
        hour.start < ((latest.stop - clock.epochsPerDay : Nat) : Int)) := by
  have unfolded : tables.dayOld? clock =
      ((tables.hourly.map (·.start)).filter
        (((latest.stop - clock.epochsPerDay : Nat) : Int) ≤ ·)).min?.map epochOfStored := by
    rw [dayOld?, found]
    rfl
  rw [unfolded]
  cases least : ((tables.hourly.map (·.start)).filter
      (((latest.stop - clock.epochsPerDay : Nat) : Int) ≤ ·)).min? with
  | none =>
    refine Or.inr ⟨rfl, fun hour member => ?_⟩
    have outside := List.filter_eq_nil_iff.mp (List.min?_eq_none_iff.mp least) hour.start
      (List.mem_map.mpr ⟨hour, member, rfl⟩)
    simpa using outside
  | some start =>
    obtain ⟨inside, lowest⟩ := List.min?_eq_some_iff.mp least
    obtain ⟨stored, late⟩ := List.mem_filter.mp inside
    obtain ⟨hour, member, rfl⟩ := List.mem_map.mp stored
    refine Or.inl ⟨hour, member, rfl, of_decide_eq_true late, fun other otherMember near => ?_⟩
    exact lowest _ (List.mem_filter.mpr
      ⟨List.mem_map.mpr ⟨other, otherMember, rfl⟩, decide_eq_true near⟩)

/-- The bounds that a refresh reads make the window. -/
theorem isWindow_of_dayOld {clock : ChainClock} {tables : Tables} {latest : EpochRange}
    (nonneg : ∀ row ∈ tables.hourly, 0 ≤ row.start ∧ 0 ≤ row.stop)
    (found : tables.lastHourly?.map EmbeddedStore.boundsOfStored = some latest) :
    IsWindow clock tables.hourly latest
      ⟨(tables.dayOld? clock).getD latest.start, latest.stop⟩ := by
  have early := Tables.dayOld?_cases clock found
  obtain ⟨⟨start, stop⟩, boundsAre, rfl⟩ := Option.map_eq_some_iff.mp found
  obtain ⟨startIs, stopIs⟩ := Tables.lastHourly?_eq_some.mp boundsAre
  obtain ⟨row, member, same, -⟩ := Tables.exists_latest_row boundsAre
  obtain ⟨rfl, rfl⟩ := Prod.mk.inj same
  obtain ⟨startNonneg, stopNonneg⟩ := nonneg row member
  have natural : ((row.start.toNat : Nat) : Int) = row.start := Int.toNat_of_nonneg startNonneg
  have covered : ((row.stop.toNat : Nat) : Int) = row.stop := Int.toNat_of_nonneg stopNonneg
  refine ⟨startIs.trans (congrArg some natural.symm), ?_, rfl, ?_, ?_⟩
  · show ((tables.hourly.filter (·.start = ((row.start.toNat : Nat) : Int))).map (·.stop)).max? = _
    rw [natural, stopIs]
    exact congrArg some covered.symm
  · rcases early with ⟨hour, hourMember, old, -⟩ | ⟨old, -⟩
    · rw [old]
      exact ⟨hour, hourMember, (Int.toNat_of_nonneg (nonneg hour hourMember).1).symm⟩
    · rw [old]
      exact ⟨row, member, natural.symm⟩
  · rcases early with ⟨hour, hourMember, old, late, least⟩ | ⟨old, before⟩
    · rw [old]
      refine Or.inl ⟨?_, fun other otherMember near => ?_⟩
      · show _ ≤ hour.start.toNat
        omega
      · have upTo := least other otherMember near
        show ((hour.start.toNat : Nat) : Int) ≤ other.start
        omega
    · rw [old]
      exact Or.inr ⟨before, rfl⟩

/-- The hours of a window are those that start in it. -/
theorem windowSamples_eq (window : EpochRange) (last : Nat) (hours : List HourlyRow) :
    windowSamples hours window.start last =
      (hoursIn hours (windowStarts window last)).map HourlyRow.sample := by
  refine congrArg _ (List.filter_congr fun row _ => ?_)
  have past : row.start < ((last + 1 : Nat) : Int) ↔ row.start ≤ last := by omega
  show (decide _ && decide _) = (decide _ && decide (row.start < ((last + 1 : Nat) : Int)))
  rw [decide_eq_decide.mpr past]
  rfl

namespace IsWindow

variable {clock : ChainClock} {hours : List HourlyRow} {latest window : EpochRange}

theorem start_le (isWindow : IsWindow clock hours latest window) :
    window.start ≤ latest.start := by
  obtain ⟨hour, member, same⟩ := isWindow.begins
  have upTo := (List.max?_eq_some_iff.mp isWindow.last).2 _ (List.mem_map.mpr ⟨hour, member, rfl⟩)
  omega

theorem first_eq (isWindow : IsWindow clock hours latest window) {first : Int}
    (firstIs : ((windowSamples hours window.start latest.start).map (·.key)).min? = some first) :
    first = window.start := by
  obtain ⟨inside, least⟩ := List.min?_eq_some_iff.mp firstIs
  rw [windowSamples_eq, List.map_map] at inside least
  obtain ⟨hour, member, rfl⟩ := List.mem_map.mp inside
  obtain ⟨-, after, -⟩ := mem_hoursIn.mp member
  obtain ⟨begins, beginsMember, same⟩ := isWindow.begins
  have upTo := isWindow.start_le
  have within : begins ∈ hoursIn hours (windowStarts window latest.start) := by
    refine mem_hoursIn.mpr ⟨beginsMember, ?_, ?_⟩
    · show (window.start : Int) ≤ _
      omega
    · show _ < ((latest.start + 1 : Nat) : Int)
      omega
  have low : hour.start ≤ begins.start := least _ (List.mem_map.mpr ⟨begins, within, rfl⟩)
  have high : (window.start : Int) ≤ hour.start := after
  show hour.start = _
  omega

end IsWindow

/-! ### What a refresh writes -/

/-- A row that is written for a validator of the window is its summary. -/
theorem RollingRow.summarizes_of_fold {hours : List HourlyRow} {window : EpochRange} {last : Nat}
    {row : RollingRow} (start : row.start = window.start) (stop : row.stop = window.stop)
    (seen : row.validator ∈ Sample.validators (windowSamples hours window.start last))
    (stored : Sample.stored? (windowSamples hours window.start last) window.start last
      row.validator = some row.metrics) : row.Summarizes hours window last := by
  rw [windowSamples_eq] at seen stored
  obtain ⟨integers, slashed, balanceStart, balanceEnd⟩ := Sample.stored?_eq_some stored
  obtain ⟨syncChance, blockChance⟩ := Sample.chances_of_stored stored
  rw [ofValidator_hours, List.map_map] at syncChance blockChance
  rw [ofValidator_hours, List.any_map] at slashed
  simp only [ofValidator_hours, List.map_map] at integers
  rw [at?_hours, Option.bind_map] at balanceStart balanceEnd
  refine ⟨start, stop, ?_, integers, slashed, balanceStart, balanceEnd, syncChance, blockChance⟩
  obtain ⟨sample, sampleMember, validator⟩ := (Sample.mem_validators _ _).mp seen
  obtain ⟨own, ownMember, rfl⟩ := List.mem_map.mp sampleMember
  exact List.ne_nil_of_mem (List.mem_filter.mpr ⟨ownMember, decide_eq_true validator⟩)

/-- Rows in the order of their validators are written into an empty table as they are. -/
theorem putRows_rolling {rows : List RollingRow}
    (ascending : rows.Pairwise fun left right => left.validator < right.validator) :
    putRows RollingRow.before rows [] = rows := by
  have ordered : OrderedBy RollingRow.before RollingRow.validator := fun left right => by
    simp [RollingRow.before]
  have keyed : Keyed RollingRow.validator rows := ascending
  refine ((show Keyed RollingRow.validator [] from List.Pairwise.nil).putRows ordered rows).ext
    keyed fun row => ?_
  rw [mem_putRows ordered List.Pairwise.nil keyed]
  simp

/-- Replacing the window leaves the snapshot of its hours, whatever was there. -/
theorem IsWindow.snapshot {clock : ChainClock} {tables after : Tables}
    {latest window : EpochRange} {count : Nat}
    (isWindow : IsWindow clock tables.hourly latest window)
    (given : Given tables (.replaceRolling window.start latest.start) count after) :
    IsSnapshot tables.hourly window latest.start after.rolling ∧ count = after.rolling.length := by
  rcases given.replaceRolling with ⟨none, -, -⟩ | ⟨first, rows, firstIs, validators, written,
    counted, rfl⟩
  · -- The latest hour is in the window.
    obtain ⟨hour, member, same⟩ := List.mem_map.mp (List.max?_mem isWindow.last)
    have upTo := isWindow.start_le
    have within : hour ∈ tables.hourly.filter fun row =>
        (window.start : Int) ≤ row.start && row.start ≤ (latest.start : Int) := by
      refine List.mem_filter.mpr ⟨member, ?_⟩
      simp only [Bool.and_eq_true, decide_eq_true_eq]
      omega
    have empty := List.map_eq_nil_iff.mp none
    rw [empty] at within
    exact absurd within List.not_mem_nil
  · obtain rfl := isWindow.first_eq firstIs
    have ascending : rows.Pairwise fun left right => left.validator < right.validator := by
      rw [← List.pairwise_map (f := RollingRow.validator), validators]
      exact Sample.pairwise_validators _
    dsimp only
    rw [putRows_rolling ascending]
    refine ⟨⟨ascending, fun hour member => ?_, fun row member => ?_⟩, counted⟩
    · have seen : hour.validator ∈ rows.map (·.validator) := by
        rw [validators, windowSamples_eq]
        exact (Sample.mem_validators _ _).mpr ⟨_, List.mem_map_of_mem member, rfl⟩
      exact List.mem_map.mp seen
    · obtain ⟨⟨start, coverage⟩, stored⟩ := written row member
      have covered : row.stop = window.stop := by
        have same : some row.stop = some (latest.stop : Int) :=
          coverage.symm.trans isWindow.covered
        rw [isWindow.stop]
        exact Option.some.inj same
      refine RollingRow.summarizes_of_fold start covered ?_ stored
      rw [← validators]
      exact List.mem_map_of_mem member

/-! ### Refreshes -/

section

variable {regime : Regime} {tables : Tables}

/-- The tables have the hours and the window of others. -/
structure Unrefreshed (tables : Tables) (log : Chronicle) : Prop where
  /-- The hours are the same. -/
  hourly : log.now.hourly = tables.hourly
  /-- The window is the same. -/
  rolling : log.now.rolling = tables.rolling

theorem Regime.stable_unrefreshed (regime : Regime) : regime.Stable (Unrefreshed tables) := by
  intro log rows after held _ given
  obtain ⟨stored, -, rfl⟩ := given.upsertEpochs
  refine ⟨?_, ?_⟩ <;> rw [Chronicle.now_record]
  · exact held.hourly
  · exact held.rolling

/-- What a refresh that comes back leaves. -/
def Refreshed (clock : ChainClock) (hours : List HourlyRow) (report : WindowReport)
    (rolling : List RollingRow) : Prop :=
  (hours = [] ∧ report = ⟨none, 0⟩ ∧ rolling = []) ∨
    ∃ latest window, IsWindow clock hours latest window ∧
      report = ⟨some window, rolling.length⟩ ∧ IsSnapshot hours window latest.start rolling

/-- A refresh leaves the snapshot of the hours, or the rows that were there. -/
theorem keeps_refreshWindow_snapshot (clock : ChainClock)
    (nonneg : ∀ row ∈ tables.hourly, 0 ≤ row.start ∧ 0 ≤ row.stop) :
    (refreshWindow (storedBounds clock)).Keeps regime (Unrefreshed tables) (Unrefreshed tables)
      fun report log => Refreshed clock tables.hourly report log.now.rolling := by
  have stable : regime.Stable (Unrefreshed tables) := regime.stable_unrefreshed
  have readIs {log : Chronicle} (held : Unrefreshed tables log) :
      log.now.bound? clock .lastHourly = tables.bound? clock .lastHourly ∧
        log.now.bound? clock .dayOldHourly = tables.bound? clock .dayOldHourly := by
    simp only [Tables.bound?, Tables.dayOld?, Tables.lastHourly?, held.hourly, and_self]
  refine Procedure.keeps_bind _ (keeps_storedBounds clock .lastHourly stable fun _ => id)
    fun latest => ?_
  refine Procedure.Keeps.knowing (fun log held => held.2.trans (readIs held.1).1)
    fun latestRead => ?_
  cases latest with
  | none =>
    have empty : tables.hourly = [] := Tables.eq_nil_of_no_latestBounds latestRead.symm
    refine Procedure.keeps_bind (fun _ log => log.now.rolling = []) ?_ fun _ =>
      Procedure.keeps_pure fun log held => Or.inl ⟨empty, rfl, held⟩
    refine (Procedure.keeps_ask stable (fun _ => id) fun log answer after held given =>
      ?_).weaken (fun _ => id) (fun log held => held.1) fun _ _ => id
    rw [given.clearRolling, Chronicle.now_record]
  | some latest =>
    refine Procedure.keeps_bind _
      ((keeps_storedBounds clock .dayOldHourly stable fun _ => id).weaken (fun _ => id)
        (fun log held => held.1) fun _ _ => id) fun old => ?_
    refine Procedure.Keeps.knowing (fun log held => held.2.trans (readIs held.1).2)
      fun oldRead => ?_
    have isWindow := @isWindow_of_dayOld clock tables latest nonneg latestRead.symm
    rw [show tables.dayOld? clock = old from oldRead.symm] at isWindow
    refine Procedure.keeps_bind (fun rows log => Refreshed clock tables.hourly
      ⟨some ⟨old.getD latest.start, latest.stop⟩, rows⟩ log.now.rolling) ?_ fun rows =>
        Procedure.keeps_pure fun log held => held
    refine (Procedure.keeps_askFor stable (fun _ => id) fun log count after held given =>
      ?_).weaken (fun _ => id) (fun log held => held.1) fun _ _ => id
    rw [← held.hourly] at isWindow ⊢
    obtain ⟨snapshot, counted⟩ := isWindow.snapshot given
    rw [Chronicle.now_record, counted]
    exact Or.inr ⟨latest, _, isWindow, rfl, snapshot⟩

/-- Of hours that cover no more than their buckets the window is a day at most. -/
theorem IsWindow.length_le {layout : BucketLayout} {latest window : EpochRange}
    (isWindow : IsWindow layout.clock tables.hourly latest window)
    (steady : tables.Steady layout) :
    window.start < window.stop ∧ window.length ≤ layout.clock.epochsPerDay := by
  obtain ⟨hour, filtered, hourStop⟩ := List.mem_map.mp (List.max?_mem isWindow.covered)
  obtain ⟨member, here⟩ := List.mem_filter.mp filtered
  have hourStart : hour.start = latest.start := of_decide_eq_true here
  obtain ⟨before, near, -⟩ := steady.hours hour member
  have wide := layout.hourlyWidth_le
  have upTo := isWindow.start_le
  have stop := isWindow.stop
  unfold EpochRange.length
  rcases isWindow.start with ⟨late, -⟩ | ⟨-, same⟩ <;> omega

/-- The trailing window is an exact snapshot, and its replacement is atomic. A refresh that
comes back leaves, whatever window there was, one row for each validator with an hour from the
start of the window up to the latest hour, and reports the window and the number of rows;
where there are no hours it leaves none. A refresh that fails leaves the rows that were there.
In the states that runs reach the window has an epoch and is a day at most. -/
theorem refreshWindow_snapshot {log final : Chronicle} {outcome : Except Failure WindowReport}
    (nonneg : ∀ row ∈ log.now.hourly, 0 ≤ row.start ∧ 0 ≤ row.stop)
    (ends : (refreshWindow (storedBounds regime.layout.clock)).Ends regime log outcome final) :
    (∀ report, outcome = .ok report →
        (log.now.hourly = [] ∧ report = ⟨none, 0⟩ ∧ final.now.rolling = []) ∨
          ∃ latest window, IsWindow regime.layout.clock log.now.hourly latest window ∧
            report = ⟨some window, final.now.rolling.length⟩ ∧
            IsSnapshot log.now.hourly window latest.start final.now.rolling) ∧
      (∀ failure, outcome = .error failure → final.now.rolling = log.now.rolling) ∧
      (Runs regime .start log → ∀ report window, outcome = .ok report →
        report.window = some window →
          window.start < window.stop ∧ window.length ≤ regime.layout.clock.epochsPerDay) := by
  have unrefreshed : Unrefreshed log.now log := ⟨rfl, rfl⟩
  have kept := keeps_refreshWindow_snapshot regime.layout.clock nonneg unrefreshed ends
  cases outcome with
  | error failure => exact ⟨nofun, fun _ _ => kept.rolling, nofun⟩
  | ok report =>
    refine ⟨fun _ same => Except.ok.inj same ▸ kept, nofun, ?_⟩
    rintro runs _ window ⟨⟩ windowIs
    rcases kept with ⟨-, rfl, -⟩ | ⟨latest, found, isWindow, rfl, -⟩
    · cases windowIs
    · cases windowIs
      exact isWindow.length_le runs.steady

end

namespace MissedHours

/-- A chain with three epochs to a day and hours of one epoch. -/
def layout : BucketLayout :=
  .ofNumbers ⟨1704067200, 0⟩ 2400 12 1 48 2 (by decide)

/-- Hours are kept for long and days for ever. -/
def retention : RetentionPolicy := ⟨100, none⟩

/-- A validator that begins and ends an epoch with this balance. -/
def metrics (balance : Int) : Metrics :=
  { Metrics.none with balanceStart := some balance, balanceEnd := some balance }

/-- Validator 7 is seen in every epoch up to 4 but one, and validator 8 in epoch 3 only. A
window is there from before the epochs 3 and 4. -/
def party : EmbeddedStore × Chronicle :=
  Act.playAll layout retention
    [.supply [⟨0, 7, metrics 10⟩, ⟨2, 7, metrics 12⟩], .fold, .pass,
      .supply [⟨3, 7, metrics 13⟩, ⟨3, 8, metrics 20⟩, ⟨4, 7, metrics 14⟩], .fold]
    (.fresh, .start)

theorem runs_party : Runs (.free layout) .start party.2 ∧ party.2.now = party.1.tables :=
  Act.runs_playAll trivial .none rfl ⟨trivial, trivial, trivial⟩

/-- A refresh of the window. -/
def refreshed : Except Failure WindowReport × EmbeddedStore × Chronicle :=
  (refreshWindow (storedBounds layout.clock)).runOn party.1 party.2

/-- A refresh of the window while no row of validator 8 can be written. -/
def failed : Except Failure WindowReport × EmbeddedStore × Chronicle :=
  (refreshWindow (storedBounds layout.clock)).runOn
    (party.1.place ⟨.rows .rolling, .insert, some 8⟩) party.2

/-- The window begins with the hour of epoch 2. Validator 8 has no hour at either end. -/
theorem evaluated :
    (∀ row ∈ party.2.now.hourly, 0 ≤ row.start ∧ 0 ≤ row.stop) ∧
      refreshed.1 = .ok ⟨some ⟨2, 5⟩, 2⟩ ∧
      refreshed.2.2.now.rolling = [⟨7, 2, 5, { metrics 12 with balanceEnd := some 14 }⟩,
        ⟨8, 2, 5, .none⟩] ∧
      failed.1 = .error (.error (.bucket "replace_rolling" ⟨2, 5⟩ (.database .injected))) ∧
      failed.2.2.now.rolling =
        [⟨7, 0, 3, { metrics 10 with balanceEnd := some 12 }⟩] := by
  decide +kernel

end MissedHours

open MissedHours in
/-- A refresh replaces the window, and one that fails at its last row leaves the old one. -/
theorem refreshWindow_snapshot_missed_hours :
    refreshed.1 = .ok ⟨some ⟨2, 5⟩, 2⟩ ∧
      (∃ latest window, IsWindow layout.clock party.2.now.hourly latest window ∧
        window = ⟨2, 5⟩ ∧ window.length ≤ layout.clock.epochsPerDay ∧
        IsSnapshot party.2.now.hourly window latest.start refreshed.2.2.now.rolling) ∧
      failed.1 = .error (.error (.bucket "replace_rolling" ⟨2, 5⟩ (.database .injected))) ∧
      failed.2.2.now.rolling = party.2.now.rolling := by
  obtain ⟨nonneg, reported, -, broke, -⟩ := evaluated
  have ends : (refreshWindow (storedBounds layout.clock)).Ends (.free layout) party.2
      (.ok ⟨some ⟨2, 5⟩, 2⟩) refreshed.2.2 :=
    Procedure.ends_runOn _ runs_party.2 reported
  have breaks : (refreshWindow (storedBounds layout.clock)).Ends (.free layout) party.2
      (.error (.error (.bucket "replace_rolling" ⟨2, 5⟩ (.database .injected)))) failed.2.2 :=
    @Procedure.ends_runOn _ _ _ (party.1.place _, party.2) runs_party.2 _ broke
  obtain ⟨exact, -, bounded⟩ := refreshWindow_snapshot nonneg ends
  obtain ⟨-, unchanged, -⟩ := refreshWindow_snapshot nonneg breaks
  refine ⟨reported, ?_, broke, unchanged _ rfl⟩
  rcases exact _ rfl with ⟨-, other, -⟩ | ⟨latest, window, isWindow, same, snapshot⟩
  · cases other
  · have windowIs := congrArg WindowReport.window same
    cases windowIs
    exact ⟨latest, _, isWindow, rfl, (bounded runs_party.1 _ _ rfl rfl).2, snapshot⟩

end EpochRollup
