/-
This file proves that the day of the latest hour has rows when a fold of days comes back and
keeps them through the reclaims, so that in every run the rows of days are backed: no row of the
latest day covers more than an hour of it that is still stored. Nothing is asked of the years.
Dates before the year 0 are not written in order, but a range of dates never holds a date as it
is written that is not before the end of the range, and no partition that is reclaimed ends
behind the start of the day of the latest hour.
-/

import EpochRollup.Proofs.Advance
import EpochRollup.Proofs.DayBuckets
import EpochRollup.Proofs.SteadyRun

namespace EpochRollup

variable {regime : Regime} {layout : BucketLayout} {granularity : Granularity} {log : Chronicle}
  {after : Tables}

/-! ### Written dates -/

/-- A date that is not before the end of a range of dates is not written inside the range. -/
theorem CalendarDay.InCalendar.not_written_inside {start stop day : CalendarDay}
    (stopInside : stop.InCalendar) (ordered : start.number ≤ stop.number)
    (past : stop.number ≤ day.number) :
    ¬(start.textKey ≤ day.textKey ∧ day.textKey < stop.textKey) := by
  rintro ⟨lower, upper⟩
  have before : stop.number < day.number := by
    refine lt_of_le_of_ne past fun same => ?_
    rw [number_inj.mp same] at upper
    exact Nat.lt_irrefl _ upper
  have stopBounds := stop.civil_bounds
  have dayBounds := day.civil_bounds
  have stopYear := stopInside.year
  -- The end is written behind the date, so its year is an earlier one before the year 0. The
  -- start is not after the end, so it is written behind the date too.
  have dates := civil_lt_of_lt before
  have starts : start.civil.year ≤ stop.civil.year := by
    rcases Int.lt_or_eq_of_le ordered with less | same
    · have dates := civil_lt_of_lt less
      omega
    · rw [number_inj.mp same]
  simp only [textKey] at lower upper
  generalize start.civil = startDate at *
  generalize stop.civil = stopDate at *
  generalize day.civil = date at *
  split at upper <;> split at upper <;> split at lower <;> omega

/-! ### The day of the latest hour -/

namespace Tables

variable {tables : Tables}

/-- The rows of a day survive when a partition is dropped that ends by the start of the day. -/
theorem Sound.mem_drop_daily (sound : tables.Sound layout) {epoch : Nat} {row : DailyRow}
    (member : row ∈ tables.daily)
    (behind : ((layout.partitionRangeAt .daily epoch).stop : Int) ≤ row.start) :
    row ∈ (tables.drop (layout.partitionAt .daily epoch)).daily := by
  obtain ⟨-, other, start, day⟩ := sound.days row member
  have ordered : (layout.partitionRangeAt .daily epoch).start ≤
      (layout.partitionRangeAt .daily epoch).stop :=
    Nat.le_of_lt (EpochRange.start_aligned_lt_stop (layout.partitionSpan_pos .daily) epoch)
  have past : (layout.partitionRangeAt .daily epoch).stop ≤
      (layout.bucketAt .daily other).start := by omega
  refine mem_daily_drop.mpr ⟨member, ?_⟩
  rw [day]
  exact (layout.clock.inCalendar_dayOf _).not_written_inside
    (ChainClock.number_dayOf_mono ordered) (ChainClock.number_dayOf_mono past)

/-- Where there are no hours, no day waits for rows. -/
theorem dayReached_of_head?_none (none : tables.head? = none) : tables.DayReached layout := by
  intro head headIs
  rw [none] at headIs
  cases headIs

/-- A drop of a partition that ends by the latest hour leaves the day of that hour its rows. -/
theorem DayReached.drop (steady : tables.Steady layout)
    {head epoch : Nat} (reached : tables.DayReached layout) (headIs : tables.head? = some head)
    (expired : (layout.partitionRangeAt granularity epoch).stop ≤ head) :
    (tables.drop (layout.partitionAt granularity epoch)).DayReached layout := by
  obtain ⟨row, member, start⟩ := reached head headIs
  intro other otherIs
  cases granularity with
  | hourly =>
    have apart : ((layout.partitionRangeAt .hourly epoch).stop : Int) ≤ head := by omega
    have latest := steady.latest_of_head headIs
    rw [(Tables.Steady.latest_dropHours latest apart).1.head?] at otherIs
    cases otherIs
    exact ⟨row, member, start⟩
  | daily =>
    have otherIs : tables.head? = some other := otherIs
    rw [headIs] at otherIs
    cases otherIs
    have apart := BucketLayout.stop_partition_le_start expired
    exact ⟨row, steady.sound.mem_drop_daily member (by omega), start⟩

end Tables

/-! ### A fold of days -/

/-- Where a fold of days stands before the day that begins at a start: the day of the head has
rows or its turn comes, and meanwhile rows of days are backed. -/
structure HeadComes (layout : BucketLayout) (latest : Option EpochRange) (head start : Nat)
    (log : Chronicle) : Prop where
  /-- Rows of days are backed. -/
  backed : log.now.Backed layout
  /-- The head that was read. -/
  headIs : log.now.head? = some head
  /-- The latest day that was read has rows. -/
  stored : ∀ range, latest = some range → ∃ row ∈ log.now.daily, row.start = range.start
  /-- The day of the head has rows, or its turn comes. -/
  comes : start ≤ (layout.bucketAt .daily head).start ∨
    ∃ row ∈ log.now.daily, row.start = (layout.bucketAt .daily head).start

namespace HeadComes

variable {latest : Option EpochRange} {head start epoch : Nat}

theorem record_sameRows (comes : HeadComes layout latest head start log)
    (hourly : after.hourly = log.now.hourly) (daily : after.daily = log.now.daily) :
    HeadComes layout latest head start (log.record after) := by
  obtain ⟨backed, headIs, stored, comes⟩ := comes
  refine ⟨?_, ?_, ?_, ?_⟩ <;> rw [Chronicle.now_record]
  · exact backed.of_sameRows hourly daily
  · rwa [Tables.head?, hourly]
  · rwa [daily]
  · rwa [daily]

/-- The fold goes on past a day, and if that is the one of the head, then it has rows. -/
theorem past (comes : HeadComes layout latest head (layout.bucketAt .daily epoch).start log)
    (rows : (layout.bucketAt .daily epoch).start = (layout.bucketAt .daily head).start →
      ∃ row ∈ log.now.daily, row.start = (layout.bucketAt .daily head).start) :
    HeadComes layout latest head (layout.bucketAt .daily epoch).stop log := by
  refine { comes with comes := ?_ }
  by_cases here : (layout.bucketAt .daily epoch).start = (layout.bucketAt .daily head).start
  · exact Or.inr (rows here)
  · exact comes.comes.imp_left fun before =>
      layout.stop_bucketAt_le_of_lt (lt_of_le_of_ne before here)

/-- A day that is closed has rows, since it is the latest one that was read. -/
theorem skip {closesAt : Nat}
    (comes : HeadComes layout latest head (layout.bucketAt .daily epoch).start log)
    (closed : isClosed latest (layout.bucketAt .daily epoch) closesAt = true) :
    HeadComes layout latest head (layout.bucketAt .daily epoch).stop log := by
  obtain ⟨range, latestIs, begins, -⟩ := isClosed_iff.mp closed
  obtain ⟨row, member, same⟩ := comes.stored range latestIs
  exact comes.past fun here => ⟨row, member, by omega⟩

/-- A day that is folded and has no hours is not the one of the head. -/
theorem empty (held : Steadily layout
      (HeadComes layout latest head (layout.bucketAt .daily epoch).start) log)
    (none : hoursIn log.now.hourly (layout.bucketAt .daily epoch) = []) :
    HeadComes layout latest head (layout.bucketAt .daily epoch).stop log := by
  refine held.2.past fun here => ?_
  -- The latest hour starts on the day of the head, so that day has hours.
  obtain ⟨hour, member, start⟩ := (held.1.latest_of_head held.2.headIs).held
  have first := layout.start_bucketAt_le .daily head
  have past := layout.lt_stop_bucketAt .daily head
  have inside : hour ∈ hoursIn log.now.hourly (layout.bucketAt .daily head) :=
    mem_hoursIn.mpr ⟨member, by omega, by omega⟩
  rw [← layout.bucketAt_eq_of_start here, none] at inside
  cases inside

/-- The rows of a day are written. -/
theorem withDays {rows : List DailyRow}
    (held : Steadily layout (HeadComes layout latest head (layout.bucketAt .daily epoch).start) log)
    (wrote : DayRows layout.clock log.now.hourly (layout.bucketAt .daily epoch) rows)
    (sound : (log.now.withDays rows).Sound layout) :
    HeadComes layout latest head (layout.bucketAt .daily epoch).stop
      (log.record (log.now.withDays rows)) := by
  obtain ⟨steady, comes⟩ := held
  have kept {start : Int} (held : ∃ row ∈ log.now.daily, row.start = start) :
      ∃ row ∈ (log.now.withDays rows).daily, row.start = start := by
    obtain ⟨row, member, rfl⟩ := held
    exact steady.sound.exists_start_withDays sound member
  have written : HeadComes layout latest head (layout.bucketAt .daily epoch).start
      (log.record (log.now.withDays rows)) := by
    refine ⟨?_, ?_, ?_, ?_⟩ <;> rw [Chronicle.now_record]
    · exact comes.backed.withDays steady.sound wrote sound
    · exact comes.headIs
    · exact fun range latestIs => kept (comes.stored range latestIs)
    · exact comes.comes.imp_right kept
  refine written.past fun here => ?_
  rw [Chronicle.now_record]
  obtain ⟨row, new⟩ := List.exists_mem_of_ne_nil _ wrote.nonempty
  have begins := (wrote.written row new).start
  refine ⟨row, ?_, by omega⟩
  exact (mem_putRows DailyRow.orderedBy_key steady.sound.dailyKeyed wrote.keyed row).mpr
    (Or.inl new)

/-- A fold walks up to the day of the head. -/
theorem foldWalk :
    FoldWalk regime layout .daily latest head (Steadily layout fun log => log.now.Backed layout)
      fun start => Steadily layout (HeadComes layout latest head start) where
  stable := fun start => regime.stable_steadily fun _ _ held => held.2.record_sameRows rfl rfl
  failing := fun _ _ held => ⟨held.1, held.2.backed⟩
  skip := fun _ _ _ _ closed held => ⟨held.1, held.2.skip closed⟩
  ensure := fun epoch _ _ held => .record (held.1.ensure .daily epoch)
    (held.2.record_sameRows (Tables.hourly_ensure _ _) (Tables.daily_ensure _ _))
  fold := by
    intro epoch log answer after folds _ held given
    have sound := held.1.sound.foldDay epoch given
    rcases given.foldDay_cases with ⟨rfl, none⟩ | ⟨rows, wrote, rfl⟩
    · rw [Chronicle.record_now]
      exact ⟨held.1, empty held none⟩
    · exact .record (held.1.withDays wrote sound) (withDays held wrote sound)

/-- Past the head the day of the head has rows. -/
theorem reached (comes : HeadComes layout latest head start log) (past : head < start) :
    log.now.DayReached layout := by
  intro other otherIs
  rw [comes.headIs] at otherIs
  cases otherIs
  have first := layout.start_bucketAt_le .daily head
  exact comes.comes.resolve_left (by omega)

/-- Where a fold of days begins. -/
theorem resume (held : Steadily layout (fun log => log.now.Backed layout) log)
    (headIs : log.now.head? = some head)
    (latestIs : latest = log.now.lastDaily?.map EmbeddedStore.boundsOfStored) :
    HeadComes layout latest head
      (layout.bucketAt .daily ((latest.map (·.start)).getD head)).start log := by
  obtain ⟨steady, backed⟩ := held
  cases latest with
  | none => exact ⟨backed, headIs, nofun, Or.inl (Nat.le_refl _)⟩
  | some range =>
    obtain ⟨row, member, rfl, -⟩ := Tables.exists_row_of_latestBounds latestIs.symm
    obtain ⟨⟨hour, hourMember, notAfter⟩, -⟩ := steady.days row member
    have upTo := (steady.latest_of_head headIs).most hour hourMember
    have begins := steady.sound.start_bucketAt member
    have natural : row.start = (row.start.toNat : Nat) := by omega
    have before : row.start.toNat ≤ head := by omega
    refine ⟨backed, headIs, fun other same => ?_, Or.inl ?_⟩
    · cases same
      exact ⟨row, member, natural⟩
    · exact layout.start_bucketAt_mono .daily before

end HeadComes

/-! ### Runs -/

theorem outlasts_backed : Outlasts layout fun log => log.now.Backed layout where
  arrives := by
    intro log stored held
    rw [Chronicle.now_record]
    exact held.2.of_sameRows rfl rfl
  ensures := by
    intro log start held _ _
    rw [Chronicle.now_record]
    exact held.2.of_sameRows (Tables.hourly_ensure _ _) (Tables.daily_ensure _ _)
  writes := by
    intro log start last rows held writes
    rw [Chronicle.now_record]
    exact held.2.withHours writes

/-- A fold of days that comes back leaves rows of the day of the latest hour. -/
theorem keeps_foldDays_dayReached :
    (layout.foldDays (storedBounds layout.clock)).Keeps regime
      (Steadily layout fun log => log.now.Backed layout)
      (Steadily layout fun log => log.now.Backed layout)
      fun _ => Steadily layout fun log => log.now.DayReached layout :=
  keeps_foldDays_of_walk (outlasts_backed.stable regime) (fun _ _ => HeadComes.foldWalk)
    (fun _ held none => ⟨held.1, Tables.dayReached_of_head?_none none⟩)
    (fun _ _ _ held headIs latestIs => ⟨held.1, HeadComes.resume held headIs latestIs⟩)
    fun _ _ _ _ past held => ⟨held.1, held.2.reached past⟩

theorem keeps_reclaim_dayReached
    {retention : RetentionPolicy} (granularity : Granularity) :
    ((Coordinator.ofStore layout retention).reclaim granularity).Keeps regime
      (Steadily layout fun log => log.now.Backed layout)
      (Steadily layout fun log => log.now.DayReached layout)
      fun _ => Steadily layout fun log => log.now.DayReached layout := by
  have stable : regime.Stable (Steadily layout fun log => log.now.DayReached layout) :=
    regime.stable_steadily fun log stored held => by
      rw [Chronicle.now_record]
      exact held.2
  refine (keeps_reclaim_steadily granularity stable ?_).weaken ?_ (fun _ => id) fun _ _ => id
  · intro log horizon head epoch held _ headIs expired
    rw [Chronicle.now_record]
    exact held.2.drop held.1 headIs (Nat.le_of_add_right_le expired)
  · exact fun log held => ⟨held.1, held.1.backed_of_reached held.2⟩

/-- A pass keeps rows of days backed. -/
theorem keeps_runPass_backed
    {retention : RetentionPolicy} :
    (Coordinator.ofStore layout retention).runPass.Keeps regime
      (Steadily layout fun log => log.now.Backed layout)
      (Steadily layout fun log => log.now.Backed layout)
      fun _ => Steadily layout fun log => log.now.Backed layout := by
  have stable : regime.Stable (Steadily layout fun log => log.now.Backed layout) :=
    outlasts_backed.stable regime
  have refreshes (log : Chronicle) (rolling : List RollingRow)
      (held : Steadily layout (fun log => log.now.Backed layout) log) :
      (log.record { log.now with rolling }).now.Backed layout := by
    rw [Chronicle.now_record]
    exact held.2.of_sameRows rfl rfl
  refine (Coordinator.keeps_runPass (keeps_refreshWindow_steadily stable refreshes)
    keeps_foldDays_dayReached (keeps_reclaim_dayReached .hourly)
    (keeps_reclaim_dayReached .daily)).weaken (fun _ => id) (fun _ => id) ?_
  exact fun _ log held => ⟨held.1, held.1.backed_of_reached held.2⟩

/-- Rows of days are backed at the end of every run. -/
theorem Runs.backed {final : Chronicle}
    (runs : Runs regime .start final) : final.now.Backed regime.layout :=
  (runs.steadily outlasts_backed (fun _ _ => keeps_runPass_backed)
    ⟨Tables.Steady.empty, Tables.Backed.empty⟩).2

end EpochRollup
