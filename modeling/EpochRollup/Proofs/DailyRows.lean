/-
This file says what the daily table holds after a pass that came back: for every day from the
first one with rows up to the day of the hourly head, one row for each validator with an hour
that ever started on the day, with the sums of all these hours, unless the partition of the day
was dropped. The hours may have been dropped since. Years before year 0 are left out: their
written dates are not in order, and the partition of one day can take the rows of another with
it.
-/

import EpochRollup.Proofs.DailyPass
import EpochRollup.Proofs.Gap

namespace EpochRollup

section

variable {layout : BucketLayout}

/-- Every run keeps the invariant when hours are kept for a day at least. -/
theorem Runs.rolled {final : Chronicle} (years : layout.clock.FromYearZero)
    (runs : Runs (Regime.inOrder layout fun retention =>
      layout.clock.epochsPerDay ≤ retention.hourly) .start final) :
    FoldedWith layout (Rolled layout) final := by
  have orderly := Regime.orderly_inOrder layout fun retention =>
    layout.clock.epochsPerDay ≤ retention.hourly
  have carries : Regime.Carries _ layout (Rolled layout) := Rolled.carries orderly
  refine runs.keeps carries.stable (fun retention _ => ?_) (fun retention long => ?_)
    ⟨Folded.start, Rolled.start⟩
  · exact (keeps_foldHours carries (-1)).weaken (fun _ => id)
      (fun _ held => ⟨held, Or.inl (by decide)⟩) fun _ _ held => held.1
  · exact (keeps_runPass_upToHead years orderly long).weaken (fun _ => id) (fun _ => id)
      fun _ _ held => held.1

/-! ### The daily table -/

/-- The rows of the day of an epoch are the summaries of all hours that ever started on it, one
for each validator that has some, unless the partition of the day was dropped. -/
structure DailyTable (layout : BucketLayout) (log : Chronicle) (epoch : Nat) : Prop where
  /-- The day has had its partition. -/
  listed : log.Ever fun tables => tables.hasPartition (layout.partitionAt .daily epoch).name = true
  /-- While it is there, there are no other rows than summaries. -/
  rows : log.now.hasPartition (layout.partitionAt .daily epoch).name = true →
    ∀ row ∈ log.now.daily, row.start = (layout.bucketAt .daily epoch).start →
      row.Summarizes layout.clock log.hours (layout.bucketAt .daily epoch)
  /-- While it is there, each validator has exactly one. -/
  complete : log.now.hasPartition (layout.partitionAt .daily epoch).name = true →
    ∀ hour ∈ hoursIn log.hours (layout.bucketAt .daily epoch),
      ∃ row, log.now.daily.filter (fun row : DailyRow =>
        row.start = ((layout.bucketAt .daily epoch).start : Int) ∧
          row.validator = hour.validator) = [row]

theorem DayDone.dailyTable {epoch : Nat} (done : DayDone layout log epoch)
    (sound : log.now.Sound layout) : DailyTable layout log epoch := by
  refine ⟨done.listed, fun present => (done.held present).rows, fun present hour member => ?_⟩
  obtain ⟨row, rowMember, start, validator⟩ := (done.held present).complete hour member
  exact ⟨row, sound.filter_daily_eq_singleton rowMember start validator⟩

/-- After a pass that came back, every day from the first one that ever had a row up to the day
of the hourly head has its rows, unless its partition was dropped. -/
theorem dailyTable_of_runPass {begun final : Chronicle} {retention : RetentionPolicy}
    {report : PassReport} (years : layout.clock.FromYearZero)
    (long : layout.clock.epochsPerDay ≤ retention.hourly)
    (runs : Runs (Regime.inOrder layout fun retention =>
      layout.clock.epochsPerDay ≤ retention.hourly) .start begun)
    (pass : (Coordinator.ofStore layout retention).runPass.Ends (Regime.inOrder layout
      fun retention => layout.clock.epochsPerDay ≤ retention.hourly) begun (.ok report) final)
    {head : Nat} (headIs : final.now.head? = some head) {epoch : Nat}
    (after : final.Ever fun tables =>
      ∃ row ∈ tables.daily, row.start ≤ (layout.bucketAt .daily epoch).start)
    (upTo : (layout.bucketAt .daily epoch).start ≤ head) : DailyTable layout final epoch := by
  have orderly := Regime.orderly_inOrder layout fun retention =>
    layout.clock.epochsPerDay ≤ retention.hourly
  have held : UpToHead layout final :=
    keeps_runPass_upToHead years orderly long (runs.rolled years) pass
  have done := (held.2 head headIs).days _ after upTo
  exact (done.congr (layout.bucketAt_start .daily epoch).symm).dailyTable held.1.1.sound

end

/-! ### A day whose hours are gone -/

namespace Midnight

/-- A chain that begins at four in the afternoon, with three epochs to a day and hours of two
epochs, so that every other hour runs past midnight. -/
def layout : BucketLayout :=
  .ofNumbers ⟨57600, 0⟩ 14400 2 2 1 1 (by decide)

/-- Hours are kept for a day. -/
def retention : RetentionPolicy := ⟨3, none⟩

/-- A pass folds a day that has half an hour so far. The other half arrives, and an epoch of two
days later, at whose day the next pass fails. -/
def party : EmbeddedStore × Chronicle :=
  Act.playAll layout retention
    [.supply [⟨2, 7, .none⟩, ⟨2, 8, .none⟩], .fold, .pass,
      .supply [⟨3, 8, .none⟩, ⟨8, 7, .none⟩], .fold,
      .place [⟨.rows .daily, .insert, some 7⟩], .pass, .place []] (.fresh, .start)

theorem runs_party :
    Runs (.inOrder layout fun retention => layout.clock.epochsPerDay ≤ retention.hourly) .start
      party.2 ∧ party.2.now = party.1.tables := by
  refine Act.runs_playAll (by show 3 ≤ 3; decide) .none rfl ⟨?_, ?_, trivial⟩
  · show ∀ row ∈ [_, _], _ ∧ ∀ old ∈ Tables.empty.epochs, _
    decide
  · show ∀ row ∈ [_, _], _ ∧ ∀ old ∈ (_ : EmbeddedStore × Chronicle).2.now.epochs, _
    decide +kernel

/-- What the last pass reports. -/
def report : PassReport where
  rolling := ⟨some ⟨8, 9⟩, 1⟩
  daily := ⟨2, 1, 1, 0, some ⟨7, 10⟩⟩
  hourlyDropped := 1
  dailyDropped := 0

/-- The outcome of one more pass, which drops the hours of the day, and the store after it. -/
def passing : Except Failure PassReport × EmbeddedStore × Chronicle :=
  (Coordinator.ofStore layout retention).runPass.runOn party.1 party.2

theorem evaluated :
    passing.1 = .ok report ∧ passing.2.2.now.head? = some 8 ∧
      passing.2.2.Ever fun tables =>
        ∃ row ∈ tables.daily, row.start ≤ (layout.bucketAt .daily 2).start := by
  decide +kernel

theorem pass_ends :
    (Coordinator.ofStore layout retention).runPass.Ends
      (.inOrder layout fun retention => layout.clock.epochsPerDay ≤ retention.hourly) party.2
      (.ok report) passing.2.2 := by
  have outcome := evaluated.1
  unfold passing at outcome ⊢
  exact Procedure.ends_runOn _ runs_party.2 outcome

end Midnight

/-- The day keeps its rows, although its hours were dropped by the pass. -/
theorem dailyTable_midnight : DailyTable Midnight.layout Midnight.passing.2.2 2 :=
  dailyTable_of_runPass (by show (0 : Int) ≤ _; decide) (by decide) Midnight.runs_party.1
    Midnight.pass_ends Midnight.evaluated.2.1 Midnight.evaluated.2.2 (by decide)

/-! ### A day that lost its rows -/

namespace LostDay

/-- A chain that begins in the year -2, with days of one epoch and partitions of 122 days. The
first partition ends at the last day of that year, and the fourth one at the first day of year
0. -/
def layout : BucketLayout :=
  .ofNumbers ⟨-62209382400, 0⟩ 86400 1 1 1000 122 (by decide)

/-- Hours are kept long enough, and days for one epoch. -/
def retention : RetentionPolicy := ⟨1000, some 1⟩

/-- A store in which one validator was seen on three days: on the last but one day of the year
-2, in the year after, and in the first days of year 0. It is given by the days that have hours
and rows, the day of the trailing window, and a day of each partition of days. -/
def store (hours days : List Nat) (head : Nat) (partitions : List Nat) : EmbeddedStore where
  tables :=
    { epochs := [121, 365, 489].map fun epoch => ⟨epoch, 7, .none⟩
      hourly := hours.map fun hour => ⟨hour, hour + 1, 7, .none⟩
      daily := days.map fun day => ⟨layout.clock.dayOf day, day, day + 1, 7, .none⟩
      rolling := [⟨7, head, head + 1, .none⟩]
      catalogue := layout.partitionAt .hourly 0 :: partitions.map (layout.partitionAt .daily) }
  faults := []
  isClosed := false

/-- A pass folds the first day, and then the epochs of the others arrive. -/
def party : EmbeddedStore × Chronicle :=
  Act.playAll layout retention
    [.supply [⟨121, 7, .none⟩], .fold, .pass, .supply [⟨365, 7, .none⟩, ⟨489, 7, .none⟩]]
    (.fresh, .start)

/-- The store then. -/
def arrived : EmbeddedStore := store [121] [121] 121 [121]

/-- The circumstances of the run. -/
abbrev regime : Regime :=
  .inOrder layout fun retention => layout.clock.epochsPerDay ≤ retention.hourly

theorem runs_party : Runs regime .start party.2 ∧ party.2.now = party.1.tables := by
  refine Act.runs_playAll (by show 1 ≤ 1000; decide) .none rfl ⟨?_, ?_, trivial⟩
  · show ∀ row ∈ [_], _ ∧ ∀ old ∈ Tables.empty.epochs, _
    decide
  · show ∀ row ∈ [_, _], _ ∧ ∀ old ∈ (_ : EmbeddedStore × Chronicle).2.now.epochs, _
    decide +kernel

theorem evaluated :
    party.2.now = arrived.tables ∧
      party.2.Ever fun tables => ∃ row ∈ tables.daily, row.start ≤ 121 := by
  decide +kernel

/-- The store after the fold of hours. -/
def folded : EmbeddedStore := store [121, 365, 489] [121] 121 [121]

theorem foldHours_arrived :
    (Coordinator.ofStore layout retention).foldHourly.runWith EmbeddedStore.answer arrived =
      (.ok ⟨368, 1, 2, 0, some ⟨489, 490⟩⟩, folded) := by
  have headIs : (storedBounds layout.clock .lastEpoch).runWith EmbeddedStore.answer arrived =
      (.ok (some 489), arrived) := by decide +kernel
  have latestIs : (storedBounds layout.clock .lastHourly).runWith EmbeddedStore.answer arrived =
      (.ok (some ⟨121, 122⟩), arrived) := by decide +kernel
  have first : layout.Gap .hourly arrived 122 243 := by decide
  have middle : (layout.aggregate .hourly ⟨365, 366⟩).runWith EmbeddedStore.answer
      (arrived.ensure (layout.partitionAt .hourly 122)) = (.ok (1, false),
        store [121, 365] [121] 121 [121]) := by decide +kernel
  have second : layout.Gap .hourly (store [121, 365] [121] 121 [121]) 366 123 := by decide
  have last : (layout.aggregate .hourly ⟨489, 490⟩).runWith EmbeddedStore.answer
      ((store [121, 365] [121] 121 [121]).ensure (layout.partitionAt .hourly 366)) =
        (.ok (1, false), folded) := by decide +kernel
  unfold Coordinator.foldHourly BucketLayout.foldHours
  refine (Procedure.runWith_bind headIs).trans ?_
  refine (Procedure.runWith_bind latestIs).trans ?_
  refine (Procedure.runWith_bind (Procedure.runWith_compute rfl)).trans ?_
  refine (BucketLayout.runWith_foldBuckets_skip rfl rfl rfl 368 _).trans ?_
  refine (BucketLayout.runWith_foldBuckets_gap first (by decide) (by decide) 125).trans ?_
  refine (BucketLayout.runWith_foldBuckets_fold rfl rfl rfl middle 124 (by decide)).trans ?_
  refine (BucketLayout.runWith_foldBuckets_gap second (by decide) (by decide) 1).trans ?_
  refine (BucketLayout.runWith_foldBuckets_fold rfl rfl rfl last 0 (by decide)).trans ?_
  rfl

/-- The store while a row of the second day cannot be deleted. -/
def blocked (store : EmbeddedStore) : EmbeddedStore :=
  { store with faults := [⟨.rows .daily, .delete, some 365⟩] }

/-- The store before the pass folds days. -/
def faulty : EmbeddedStore := blocked (store [121, 365, 489] [121] 489 [121])

/-- The store at the first day of the partition of the second day. -/
def begun : EmbeddedStore := faulty.ensure (layout.partitionAt .daily 122)

/-- The store after the second day. -/
def half : EmbeddedStore := blocked (store [121, 365, 489] [365, 121] 489 [121, 122, 244])

/-- The store before the last day. -/
def ready : EmbeddedStore := half.ensure (layout.partitionAt .daily 366)

/-- The store after the fold of days. -/
def filled : EmbeddedStore :=
  blocked (store [121, 365, 489] [365, 121, 489] 489 [121, 122, 244, 366, 488])

theorem foldDays_faulty :
    (layout.foldDays (storedBounds layout.clock)).runWith EmbeddedStore.answer faulty =
      (.ok ⟨368, 1, 2, 4, some ⟨489, 490⟩⟩, filled) := by
  have headIs : (storedBounds layout.clock .lastHourly).runWith EmbeddedStore.answer faulty =
      (.ok (some ⟨489, 490⟩), faulty) := by decide +kernel
  have latestIs : (storedBounds layout.clock .lastDaily).runWith EmbeddedStore.answer faulty =
      (.ok (some ⟨121, 122⟩), faulty) := by decide +kernel
  have first : layout.Gap .daily faulty 122 122 := by decide
  have second : layout.Gap .daily begun 244 121 := by decide
  have middle : (layout.aggregate .daily ⟨365, 366⟩).runWith EmbeddedStore.answer
      (begun.ensure (layout.partitionAt .daily 244)) = (.ok (1, false), half) := by
    decide +kernel
  have third : layout.Gap .daily half 366 122 := by decide
  have fourth : layout.Gap .daily ready 488 1 := by decide
  have last : (layout.aggregate .daily ⟨489, 490⟩).runWith EmbeddedStore.answer
      (ready.ensure (layout.partitionAt .daily 488)) = (.ok (1, false), filled) := by
    decide +kernel
  unfold BucketLayout.foldDays
  refine (Procedure.runWith_bind headIs).trans ?_
  refine (Procedure.runWith_bind latestIs).trans ?_
  refine (Procedure.runWith_bind (Procedure.runWith_compute rfl)).trans ?_
  refine (BucketLayout.runWith_foldBuckets_skip rfl rfl rfl 368 _).trans ?_
  refine (BucketLayout.runWith_foldBuckets_gap first (by decide) (by decide) 246).trans ?_
  refine (BucketLayout.runWith_foldBuckets_gap second (by decide) (by decide) 125).trans ?_
  refine (BucketLayout.runWith_foldBuckets_fold rfl rfl rfl middle 124 (by decide)).trans ?_
  refine (BucketLayout.runWith_foldBuckets_gap third (by decide) (by decide) 2).trans ?_
  refine (BucketLayout.runWith_foldBuckets_gap fourth (by decide) (by decide) 1).trans ?_
  refine (BucketLayout.runWith_foldBuckets_fold rfl rfl rfl last 0 (by decide)).trans ?_
  decide +kernel

/-- The store after that pass, which fails. The last partition of the year -1 was dropped and
took the row of the first day with it: as they are written, the dates of the partition go from
`-0001-09-01` to `0000-01-01`, and `-0002-12-30` stands between them. -/
def failed : EmbeddedStore := store [121, 365, 489] [365, 489] 489 [121, 122, 244, 488]

/-- The error of that pass. -/
def failure : Failure :=
  .error (.step .dailyRetention (.bucket "drop_partition" ⟨244, 366⟩ (.database .injected)))

theorem runPass_folded :
    (Coordinator.ofStore layout retention).runPass.runWith EmbeddedStore.answer (blocked folded) =
      (.error failure, blocked failed) := by
  have window : (refreshWindow (storedBounds layout.clock)).runWith EmbeddedStore.answer
      (blocked folded) = (.ok ⟨some ⟨489, 490⟩, 1⟩, faulty) := by decide +kernel
  have hours : ((Coordinator.ofStore layout retention).reclaim .hourly).runWith
      EmbeddedStore.answer filled = (.ok 0, filled) := by decide +kernel
  have days : ((Coordinator.ofStore layout retention).reclaim .daily).runWith
      EmbeddedStore.answer filled =
        (.error (.error (.bucket "drop_partition" ⟨244, 366⟩ (.database .injected))),
          blocked failed) := by decide +kernel
  unfold Coordinator.runPass
  refine (Procedure.runWith_bind (Procedure.runWith_inStep .rolling window)).trans ?_
  refine (Procedure.runWith_bind (Procedure.runWith_inStep .daily foldDays_faulty)).trans ?_
  refine (Procedure.runWith_bind (Procedure.runWith_inStep .hourlyRetention hours)).trans ?_
  exact Procedure.runWith_bind_error (Procedure.runWith_inStep .dailyRetention days)

/-- The store in the end. -/
def passed : EmbeddedStore := store [121, 365, 489] [489] 489 [121, 122, 488]

theorem foldHours_failed :
    (Coordinator.ofStore layout retention).foldHourly.runWith EmbeddedStore.answer failed =
      (.ok ⟨0, 1, 0, 0, none⟩, failed) := by
  decide +kernel

theorem runPass_failed :
    (Coordinator.ofStore layout retention).runPass.runWith EmbeddedStore.answer failed =
      (.ok ⟨⟨some ⟨489, 490⟩, 1⟩, ⟨0, 1, 0, 0, none⟩, 0, 1⟩, passed) := by
  decide +kernel

end LostDay

/-- In years before year 0 a day can lose its rows: after a fold and a pass that came back, the
partition of the first day is there, as is the hour that started on it, and no row of the
day. -/
theorem exists_lost_daily_row_after_pass :
    ∃ (begun folded final : Chronicle) (foldReport : FoldReport) (report : PassReport)
      (head epoch : Nat) (hour : HourlyRow),
      LostDay.layout.clock.epochsPerDay ≤ LostDay.retention.hourly ∧
      Runs LostDay.regime .start begun ∧
      (Coordinator.ofStore LostDay.layout LostDay.retention).foldHourly.Ends LostDay.regime.quiet
        begun (.ok foldReport) folded ∧
      (Coordinator.ofStore LostDay.layout LostDay.retention).runPass.Ends LostDay.regime.quiet
        folded (.ok report) final ∧
      final.now.head? = some head ∧
      (final.Ever fun tables =>
        ∃ row ∈ tables.daily, row.start ≤ (LostDay.layout.bucketAt .daily epoch).start) ∧
      (LostDay.layout.bucketAt .daily epoch).start ≤ head ∧
      final.now.hasPartition (LostDay.layout.partitionAt .daily epoch).name = true ∧
      hour ∈ hoursIn final.hours (LostDay.layout.bucketAt .daily epoch) ∧
      ∀ row ∈ final.now.daily, row.start ≠ (LostDay.layout.bucketAt .daily epoch).start := by
  have retained : LostDay.regime.retains LostDay.retention := by show 1 ≤ 1000; decide
  obtain ⟨start, ever⟩ := LostDay.evaluated
  obtain ⟨second, folds, secondIs⟩ := Procedure.exists_ends LostDay.foldHours_arrived start
  obtain ⟨third, fails, thirdIs⟩ := Procedure.exists_ends LostDay.runPass_folded secondIs
  obtain ⟨fourth, refolds, fourthIs⟩ := Procedure.exists_ends LostDay.foldHours_failed thirdIs
  obtain ⟨final, passes, finalIs⟩ := Procedure.exists_ends LostDay.runPass_failed fourthIs
  have runs := (LostDay.runs_party.1.fold retained folds).pass retained fails
  have keyed : Keyed HourlyRow.key final.now.hourly := by
    rw [finalIs]
    unfold Keyed
    decide
  have stored : ⟨121, 122, 7, .none⟩ ∈ final.now.hourly := by
    rw [finalIs]
    exact List.mem_cons_self
  refine ⟨third, fourth, final, _, _, 489, 121, ⟨121, 122, 7, .none⟩, by decide, runs, refolds,
    passes, ?_, passes.ever (refolds.ever (fails.ever (folds.ever ever))), by decide, ?_,
    mem_hoursIn.mpr ⟨Chronicle.hourly_subset_hours keyed stored, by decide, by decide⟩, ?_⟩
  · rw [finalIs]
    decide +kernel
  · rw [finalIs]
    decide +kernel
  · rw [finalIs]
    decide +kernel

end EpochRollup
