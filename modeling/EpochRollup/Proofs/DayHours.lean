/-
This file says what the rows of a day are: the summaries of the hours that start in it, one
for each validator of these hours. A fold of a day writes exactly such rows, from the hours
that are stored at that moment.
-/

import EpochRollup.Proofs.Hours
import EpochRollup.Proofs.Sound

namespace EpochRollup

/-! ### The hours of a day -/

/-- The hours that start in a bucket. -/
def hoursIn (hours : List HourlyRow) (bucket : EpochRange) : List HourlyRow :=
  hours.filter fun row => (bucket.start : Int) ≤ row.start && row.start < (bucket.stop : Int)

theorem mem_hoursIn {hours : List HourlyRow} {bucket : EpochRange} {row : HourlyRow} :
    row ∈ hoursIn hours bucket ↔
      row ∈ hours ∧ (bucket.start : Int) ≤ row.start ∧ row.start < bucket.stop := by
  simp [hoursIn]

theorem keyed_hoursIn {hours : List HourlyRow} (keyed : Keyed HourlyRow.key hours)
    (bucket : EpochRange) : Keyed HourlyRow.key (hoursIn hours bucket) := keyed.filter _

/-- Hours in order that agree on a bucket are the same there. -/
theorem hoursIn_eq {first second : List HourlyRow} (firstKeyed : Keyed HourlyRow.key first)
    (secondKeyed : Keyed HourlyRow.key second) {bucket : EpochRange}
    (same : ∀ row : HourlyRow, (bucket.start : Int) ≤ row.start → row.start < bucket.stop →
      (row ∈ first ↔ row ∈ second)) : hoursIn first bucket = hoursIn second bucket := by
  refine (keyed_hoursIn firstKeyed bucket).ext (keyed_hoursIn secondKeyed bucket) fun row => ?_
  rw [mem_hoursIn, mem_hoursIn]
  exact ⟨fun ⟨member, after, before⟩ => ⟨(same row after before).mp member, after, before⟩,
    fun ⟨member, after, before⟩ => ⟨(same row after before).mpr member, after, before⟩⟩

/-- The coverage of an hour of a bucket is found among the hours of the bucket. -/
theorem coverage_eq (tables : Tables) {bucket : EpochRange} {start : Int}
    (after : (bucket.start : Int) ≤ start) (before : start < bucket.stop) :
    EmbeddedStore.coverage tables start =
      (((hoursIn tables.hourly bucket).filter (·.start = start)).map (·.stop)).max? := by
  have same : (hoursIn tables.hourly bucket).filter (·.start = start) =
      tables.hourly.filter (·.start = start) := by
    unfold hoursIn
    rw [List.filter_filter]
    refine List.filter_congr fun row _ => ?_
    by_cases here : row.start = start
    · simp [here, after, before]
    · simp [here]
  rw [same]
  rfl

/-! ### What a row says -/

/-- The hours of a validator that start in a bucket. -/
def ownHours (hours : List HourlyRow) (bucket : EpochRange) (validator : Int) : List HourlyRow :=
  (hoursIn hours bucket).filter (·.validator = validator)

/-- A row is the summary of the hours of its validator that start in a day bucket. -/
structure DailyRow.Summarizes (clock : ChainClock) (hours : List HourlyRow) (bucket : EpochRange)
    (row : DailyRow) : Prop where
  /-- The row starts with the day. -/
  start : row.start = bucket.start
  /-- It carries the date of the day. -/
  day : row.day = clock.dayOf bucket.start
  /-- It covers what the last hour of the day covers, whoever has it. -/
  covers : ∃ last, ((hoursIn hours bucket).map (·.start)).max? = some last ∧
    (((hoursIn hours bucket).filter (·.start = last)).map (·.stop)).max? = some row.stop
  /-- The validator has an hour that starts on the day. -/
  seen : ownHours hours bucket row.validator ≠ []
  /-- The integers are sums. -/
  integers : ∀ index, row.metrics.integers.get index =
    ((ownHours hours bucket row.validator).map (·.metrics.integers.get index)).sum
  /-- The mark is there when one hour has it. -/
  slashed : row.metrics.slashed =
    (ownHours hours bucket row.validator).any (·.metrics.slashed)
  /-- The first balance is the one of the first hour of the day. -/
  balanceStart : ∃ first, ((hoursIn hours bucket).map (·.start)).min? = some first ∧
    row.metrics.balanceStart = ((ownHours hours bucket row.validator).find?
      (·.start = first)).bind (·.metrics.balanceStart)
  /-- The last balance is the one of the last hour of the day. -/
  balanceEnd : ∃ last, ((hoursIn hours bucket).map (·.start)).max? = some last ∧
    row.metrics.balanceEnd = ((ownHours hours bucket row.validator).find?
      (·.start = last)).bind (·.metrics.balanceEnd)

/-- A row is all that a fold of a day can write for its validator. -/
structure DailyRow.IsFoldOf (clock : ChainClock) (hours : List HourlyRow) (bucket : EpochRange)
    (row : DailyRow) : Prop extends row.Summarizes clock hours bucket where
  /-- The first chance is a compensated sum. -/
  syncChance : (Double.sum ((ownHours hours bucket row.validator).map
    (·.metrics.syncChance))).stored? = some row.metrics.syncChance
  /-- So is the second. -/
  blockChance : (Double.sum ((ownHours hours bucket row.validator).map
    (·.metrics.blockChance))).stored? = some row.metrics.blockChance

/-- Only the hours of the day matter. -/
theorem DailyRow.Summarizes.congr {clock : ChainClock} {hours others : List HourlyRow}
    {bucket : EpochRange} {row : DailyRow} (same : hoursIn hours bucket = hoursIn others bucket)
    (sums : row.Summarizes clock hours bucket) : row.Summarizes clock others bucket := by
  have own : ownHours hours bucket = ownHours others bucket := by
    funext validator
    unfold ownHours
    rw [same]
  obtain ⟨start, day, covers, seen, integers, slashed, balanceStart, balanceEnd⟩ := sums
  rw [same] at covers balanceStart balanceEnd
  rw [own] at seen integers slashed balanceStart balanceEnd
  exact ⟨start, day, covers, seen, integers, slashed, balanceStart, balanceEnd⟩

/-- A row that ends with its last hour ends with one of the hours. -/
theorem DailyRow.Summarizes.exists_stop {clock : ChainClock} {hours : List HourlyRow}
    {bucket : EpochRange} {row : DailyRow} (sums : row.Summarizes clock hours bucket) :
    ∃ hour ∈ hours, hour.stop = row.stop := by
  obtain ⟨last, -, stop⟩ := sums.covers
  obtain ⟨hour, member, same⟩ := List.mem_map.mp (List.max?_mem stop)
  exact ⟨hour, (mem_hoursIn.mp (List.mem_filter.mp member).1).1, same⟩

/-- The validator of a row has an hour on the day. -/
theorem DailyRow.Summarizes.exists_hour {clock : ChainClock} {hours : List HourlyRow}
    {bucket : EpochRange} {row : DailyRow} (sums : row.Summarizes clock hours bucket) :
    ∃ hour ∈ hoursIn hours bucket, hour.validator = row.validator := by
  obtain ⟨hour, member⟩ := List.exists_mem_of_ne_nil _ sums.seen
  obtain ⟨inside, same⟩ := List.mem_filter.mp member
  exact ⟨hour, inside, of_decide_eq_true same⟩

/-! ### What a fold of a day writes -/

/-- The rows that a fold of a day writes. -/
structure DayRows (clock : ChainClock) (hours : List HourlyRow) (bucket : EpochRange)
    (rows : List DailyRow) : Prop where
  /-- Each row is a fold. -/
  written : ∀ row ∈ rows, row.IsFoldOf clock hours bucket
  /-- Each validator of the day has a row. -/
  complete : ∀ hour ∈ hoursIn hours bucket,
    ∃ row ∈ rows, row.validator = hour.validator
  /-- The rows are in order. -/
  keyed : Keyed DailyRow.key rows
  /-- There are some. -/
  nonempty : rows ≠ []

theorem at?_hours (hours : List HourlyRow) (key validator : Int) :
    Sample.at? (hours.map (·.sample)) key validator =
      ((hours.filter (·.validator = validator)).find? (·.start = key)).map (·.sample) := by
  unfold Sample.at?
  rw [List.find?_map, List.find?_filter]
  refine congrArg _ (congrArg (fun kept => List.find? kept hours) (funext fun row => ?_))
  rw [Bool.eq_iff_iff]
  simp only [Function.comp_apply, decide_eq_true_eq]
  exact and_comm

theorem ofValidator_hours (hours : List HourlyRow) (validator : Int) :
    Sample.ofValidator (hours.map (·.sample)) validator =
      (hours.filter (·.validator = validator)).map (·.sample) := by
  unfold Sample.ofValidator
  rw [List.filter_map]
  rfl

/-- A row that a fold of a day writes is a summary. -/
theorem DailyRow.summarizes_of_fold {clock : ChainClock} {bucket : EpochRange} {tables : Tables}
    {first last : Int} {row : DailyRow}
    (firstIs : ((hoursIn tables.hourly bucket).map (·.start)).min? = some first)
    (lastIs : ((hoursIn tables.hourly bucket).map (·.start)).max? = some last)
    (start : row.start = bucket.start) (day : row.day = clock.dayOf bucket.start)
    (stop : row.stop = (EmbeddedStore.coverage tables last).getD last)
    (seen : row.validator ∈ Sample.validators ((hoursIn tables.hourly bucket).map (·.sample)))
    (stored : Sample.stored? ((hoursIn tables.hourly bucket).map (·.sample)) first last
      row.validator = some row.metrics) : row.Summarizes clock tables.hourly bucket := by
  obtain ⟨integers, slashed, balanceStart, balanceEnd⟩ := Sample.stored?_eq_some stored
  rw [ofValidator_hours] at slashed
  simp only [ofValidator_hours] at integers
  rw [at?_hours] at balanceStart balanceEnd
  obtain ⟨hour, member, hourIs⟩ := List.mem_map.mp (List.max?_mem lastIs)
  obtain ⟨-, after, before⟩ := mem_hoursIn.mp member
  rw [hourIs] at after before
  rw [coverage_eq tables after before] at stop
  refine ⟨start, day, ⟨last, lastIs, ?_⟩, ?_, ?_, ?_, ⟨first, firstIs, ?_⟩, ⟨last, lastIs, ?_⟩⟩
  · cases found : (((hoursIn tables.hourly bucket).filter (·.start = last)).map
      (·.stop)).max? with
    | none =>
      rw [List.max?_eq_none_iff, List.map_eq_nil_iff] at found
      exact absurd found
        (List.ne_nil_of_mem (List.mem_filter.mpr ⟨member, decide_eq_true hourIs⟩))
    | some covered =>
      rw [stop, found]
      rfl
  · obtain ⟨sample, sampleMember, validator⟩ := (Sample.mem_validators _ _).mp seen
    obtain ⟨own, ownMember, rfl⟩ := List.mem_map.mp sampleMember
    exact List.ne_nil_of_mem (List.mem_filter.mpr ⟨ownMember, decide_eq_true validator⟩)
  · intro index
    rw [integers index, List.map_map]
    rfl
  · rw [slashed, List.any_map]
    rfl
  · rw [balanceStart, Option.bind_map]
    rfl
  · rw [balanceEnd, Option.bind_map]
    rfl

/-- Its chances are sums as well. -/
theorem DailyRow.Summarizes.isFoldOf {clock : ChainClock} {bucket : EpochRange}
    {hours : List HourlyRow} {first last : Int} {row : DailyRow}
    (sums : row.Summarizes clock hours bucket)
    (stored : Sample.stored? ((hoursIn hours bucket).map (·.sample)) first last row.validator =
      some row.metrics) : row.IsFoldOf clock hours bucket := by
  obtain ⟨syncChance, blockChance⟩ := Sample.chances_of_stored stored
  rw [ofValidator_hours, List.map_map] at syncChance blockChance
  exact ⟨sums, syncChance, blockChance⟩

/-- The tables once the rows of a day are written. -/
def Tables.withDays (tables : Tables) (rows : List DailyRow) : Tables :=
  { tables with daily := putRows DailyRow.before rows tables.daily }

theorem Tables.sameHours_withDays (tables : Tables) (rows : List DailyRow) :
    tables.SameHours (tables.withDays rows) := ⟨rfl, fun _ => Iff.rfl⟩

/-- Rows of one day with ascending validators are in order. -/
theorem DailyRow.keyed_of_validators {rows : List DailyRow} {samples : List Sample}
    {day : CalendarDay} (sameDay : ∀ row ∈ rows, row.day = day)
    (validators : rows.map (·.validator) = Sample.validators samples) :
    Keyed DailyRow.key rows := by
  have ascending := Sample.pairwise_validators samples
  rw [← validators, List.pairwise_map] at ascending
  refine List.Pairwise.imp_of_mem ?_ ascending
  intro left right leftMember rightMember less
  rw [DailyRow.key, DailyRow.key, Prod.Lex.toLex_lt_toLex]
  refine Or.inr ⟨?_, less⟩
  rw [sameDay left leftMember, sameDay right rightMember]

/-- A fold of a day writes nothing when no hour starts on it, and its rows otherwise. -/
theorem Given.foldDay_cases {clock : ChainClock} {bucket : EpochRange} {tables after : Tables}
    {count : Nat} (given : Given tables (.foldDay bucket (clock.dayOf bucket.start)) count after) :
    (after = tables ∧ hoursIn tables.hourly bucket = []) ∨
      ∃ rows, DayRows clock tables.hourly bucket rows ∧ after = tables.withDays rows := by
  have samples : hourSamples tables.hourly bucket.start bucket.stop =
      (hoursIn tables.hourly bucket).map (·.sample) := rfl
  have keys : ((hoursIn tables.hourly bucket).map (·.sample)).map (·.key) =
      (hoursIn tables.hourly bucket).map (·.start) := by
    rw [List.map_map]
    rfl
  have law := given.foldDay
  rw [samples, keys] at law
  rcases law with ⟨empty, -, same⟩ | ⟨first, last, rows, firstIs, lastIs, -, validators, written,
    -, same⟩
  · exact Or.inl ⟨same, List.map_eq_nil_iff.mp empty⟩
  · have complete : ∀ hour ∈ hoursIn tables.hourly bucket,
        ∃ row ∈ rows, row.validator = hour.validator := by
      intro hour member
      have seen := (Sample.mem_validators _ hour.validator).mpr
        ⟨hour.sample, List.mem_map.mpr ⟨hour, member, rfl⟩, rfl⟩
      rw [← validators] at seen
      exact List.mem_map.mp seen
    refine Or.inr ⟨rows, ⟨fun row member => ?_, complete, ?_, ?_⟩, same⟩
    · obtain ⟨⟨day, start, stop⟩, stored⟩ := written row member
      refine DailyRow.Summarizes.isFoldOf
        (DailyRow.summarizes_of_fold firstIs lastIs start day stop ?_ stored) stored
      rw [← validators]
      exact List.mem_map.mpr ⟨row, member, rfl⟩
    · exact DailyRow.keyed_of_validators (fun row member => (written row member).1.1) validators
    · obtain ⟨hour, member, -⟩ := List.mem_map.mp (List.max?_mem lastIs)
      obtain ⟨row, rowMember, -⟩ := complete hour member
      exact List.ne_nil_of_mem rowMember

end EpochRollup
