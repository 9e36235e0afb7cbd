/-
This file proves that the two levels of aggregation compose. Hours are folded from epochs in
whatever order, and then a day or the trailing window is folded from the hours; each validator
gets what one fold of all epochs of the span would give it. The boundaries are where this could
go wrong. A balance is read at one epoch of the whole span, which the validator may have missed,
and each level finds that epoch by itself: the first level within each hour, the second by the
first and last hour that there are.

Folding an hour writes its rows and nothing else, and writing them again changes nothing. So the
hours of a span are in the end what `SpanHours` says, whatever the order was, and the second
level is about such hours alone.
-/

import EpochRollup.Proofs.Span

namespace EpochRollup

/-! ### Hours one after the other -/

namespace BucketLayout

variable (layout : BucketLayout)

/-- The hourly bucket of a number. -/
def hour (index : Nat) : EpochRange := layout.bucketAt .hourly (index * layout.hourlyWidth)

/-- The epochs of consecutive hours. -/
def hourSpan (first count : Nat) : EpochRange :=
  ⟨first * layout.hourlyWidth, (first + count) * layout.hourlyWidth⟩

@[simp] theorem start_hour (index : Nat) :
    (layout.hour index).start = index * layout.hourlyWidth := by
  rw [hour, start_bucketAt_hourly, Nat.mul_div_cancel _ layout.hourlyWidth_pos]

@[simp] theorem stop_hour (index : Nat) :
    (layout.hour index).stop = index * layout.hourlyWidth + layout.hourlyWidth := by
  rw [hour, stop_bucketAt_hourly, ← hour, start_hour]

end BucketLayout

/-- Hours are folded one after the other from the same epochs, whatever becomes of the other
tables in between. -/
inductive HoursFolded (layout : BucketLayout) (epochs : List EpochRow) :
    List Nat → List HourlyRow → List HourlyRow → Prop where
  /-- No hour is left to fold. -/
  | done (hours : List HourlyRow) : HoursFolded layout epochs [] hours hours
  /-- An hour is folded, and then the others. -/
  | fold (written : Nat) {tables after : Tables} {index : Nat} {order : List Nat}
    {hours : List HourlyRow} (same : tables.epochs = epochs)
    (given : Given tables (.foldHour (layout.hour index)) written after)
    (rest : HoursFolded layout epochs order after.hourly hours) :
    HoursFolded layout epochs (index :: order) tables.hourly hours

section

variable {layout : BucketLayout} {epochs : List EpochRow}

/-- A fold of an hour writes the rows of the hour and no others. -/
theorem Given.foldHour_rows {tables after : Tables} {index written : Nat}
    (given : Given tables (.foldHour (layout.hour index)) written after) :
    ∃ rows, after.hourly = putRows HourlyRow.before rows tables.hourly ∧
      Keyed HourlyRow.key rows ∧
      (∀ row ∈ rows, row.start = (index * layout.hourlyWidth : Nat) ∧
        row.FoldOf layout.hourlyWidth tables.epochs) ∧
      ∀ source ∈ tables.epochs, ((index * layout.hourlyWidth : Nat) : Int) ≤ source.epoch →
        source.epoch < (index * layout.hourlyWidth : Nat) + layout.hourlyWidth →
        ∃ row ∈ rows, row.validator = source.validator := by
  have law := given.foldHour
  rw [layout.start_hour, layout.stop_hour, Nat.cast_add] at law
  rcases law with ⟨empty, -, rfl⟩ | ⟨last, rows, lastIs, -, validators, stored, -, rfl⟩
  · refine ⟨[], rfl, List.Pairwise.nil, nofun, fun source member after before => ?_⟩
    have seen := mem_epochSamples.mpr ⟨source, member, ⟨after, before⟩, rfl⟩
    rw [empty] at seen
    cases seen
  · have wrote : BucketRows layout tables.epochs (index * layout.hourlyWidth) last rows :=
      ⟨lastIs, validators, stored⟩
    refine ⟨rows, rfl, wrote.keyed, fun row member => ?_, fun source => wrote.exists_row⟩
    have here := (stored row member).1.1
    refine ⟨here, (HourlyRow.FoldOf.congr ?_).mp ((wrote.mem_iff ⟨index, rfl⟩ here).mp member)⟩
    rw [here]
    exact wrote.samples

namespace HoursFolded

variable {order : List Nat} {before hours : List HourlyRow}

theorem keyed (folded : HoursFolded layout epochs order before hours)
    (start : Keyed HourlyRow.key before) : Keyed HourlyRow.key hours := by
  induction folded with
  | done => exact start
  | fold written same given _ inductionHypothesis =>
    obtain ⟨rows, wrote, -⟩ := given.foldHour_rows
    refine inductionHypothesis ?_
    rw [wrote]
    exact start.putRows HourlyRow.orderedBy_key rows

/-- A row was there before or is a row of one of the hours. -/
theorem mem_or (folded : HoursFolded layout epochs order before hours) {row : HourlyRow}
    (member : row ∈ hours) : row ∈ before ∨ row.FoldOf layout.hourlyWidth epochs := by
  induction folded with
  | done => exact Or.inl member
  | fold written same given _ inductionHypothesis =>
    obtain ⟨rows, wrote, -, whole, -⟩ := given.foldHour_rows
    rcases inductionHypothesis member with stood | fold
    · rw [wrote] at stood
      rcases mem_of_mem_putRows stood with written | old
      · exact Or.inr (same ▸ (whole row written).2)
      · exact Or.inl old
    · exact Or.inr fold

/-- A row of the fold stays: its own hour writes it again, and the others leave it alone. -/
theorem keeps (folded : HoursFolded layout epochs order before hours)
    (start : Keyed HourlyRow.key before) {row : HourlyRow} (member : row ∈ before)
    (fold : row.FoldOf layout.hourlyWidth epochs) : row ∈ hours := by
  induction folded with
  | done => exact member
  | fold written same given _ inductionHypothesis =>
    obtain ⟨rows, wrote, rowsKeyed, whole, -⟩ := given.foldHour_rows
    rw [wrote] at inductionHypothesis
    refine inductionHypothesis (start.putRows HourlyRow.orderedBy_key rows) ?_
    rw [mem_putRows HourlyRow.orderedBy_key start rowsKeyed]
    by_cases again : ∃ other ∈ rows, row.key = other.key
    · obtain ⟨other, otherMember, sameKey⟩ := again
      obtain ⟨sameStart, sameValidator⟩ := (HourlyRow.key_eq_iff row other).mp sameKey
      rw [fold.eq_of_same (same ▸ (whole other otherMember).2) sameStart sameValidator]
      exact Or.inl otherMember
    · exact Or.inr ⟨member, fun other otherMember sameKey => again ⟨other, otherMember, sameKey⟩⟩

/-- Each validator of an hour that is folded has a row in the end. -/
theorem exists_row (folded : HoursFolded layout epochs order before hours)
    (start : Keyed HourlyRow.key before) {index : Nat} (member : index ∈ order)
    {source : EpochRow} (sourceMember : source ∈ epochs)
    (after : ((index * layout.hourlyWidth : Nat) : Int) ≤ source.epoch)
    (below : source.epoch < (index * layout.hourlyWidth : Nat) + layout.hourlyWidth) :
    ∃ row ∈ hours, row.FoldOf layout.hourlyWidth epochs ∧ row.validator = source.validator ∧
      row.start = (index * layout.hourlyWidth : Nat) := by
  induction folded with
  | done => cases member
  | fold written same given rest inductionHypothesis =>
    obtain ⟨rows, wrote, rowsKeyed, whole, complete⟩ := given.foldHour_rows
    have nextKeyed := start.putRows HourlyRow.orderedBy_key rows
    rw [wrote] at rest inductionHypothesis
    rcases List.mem_cons.mp member with rfl | later
    · obtain ⟨row, rowMember, validator⟩ := complete source (same ▸ sourceMember) after below
      obtain ⟨here, fold⟩ := whole row rowMember
      rw [same] at fold
      refine ⟨row, rest.keeps nextKeyed ?_ fold, fold, validator, here⟩
      exact (mem_putRows HourlyRow.orderedBy_key start rowsKeyed row).mpr (Or.inl rowMember)
    · exact inductionHypothesis nextKeyed later

end HoursFolded

end

/-! ### One step -/

/-- Metrics are those of all epochs that a validator has in a span, folded in one step. The
balances are read at the start of the first hour that has an epoch, and at the latest epoch. -/
structure Metrics.OneStep (epochs : List EpochRow) (start stop first last validator : Int)
    (metrics : Metrics) : Prop where
  /-- The integers are sums. -/
  integers : ∀ index, metrics.integers.get index =
    ((ownEpochs epochs start stop validator).map (·.metrics.integers.get index)).sum
  /-- The mark is there when one epoch has it. -/
  slashed : metrics.slashed = (ownEpochs epochs start stop validator).any (·.metrics.slashed)
  /-- The first balance, unless the validator has no row there. -/
  balanceStart : metrics.balanceStart =
    ((ownEpochs epochs start stop validator).find? (·.epoch = first)).bind
      (·.metrics.balanceStart)
  /-- The last balance, unless the validator has no row there. -/
  balanceEnd : metrics.balanceEnd =
    ((ownEpochs epochs start stop validator).find? (·.epoch = last)).bind
      (·.metrics.balanceEnd)

/-- Where a single fold of the epochs has a result, it is this one, up to the two chances. -/
theorem Metrics.OneStep.eq_merge {epochs : List EpochRow} {start stop first last validator : Int}
    {metrics merged : Metrics} (step : metrics.OneStep epochs start stop first last validator)
    (direct : Sample.merge? (epochSamples epochs start stop) first last validator = some merged) :
    metrics = { merged with
      syncChance := metrics.syncChance, blockChance := metrics.blockChance } := by
  obtain ⟨integers, slashed, balanceStart, balanceEnd⟩ := Sample.merge?_eq_some direct
  rw [ofValidator_epochSamples, List.any_map] at slashed
  simp only [ofValidator_epochSamples, List.map_map] at integers
  rw [at?_epochSamples, Option.bind_map] at balanceStart balanceEnd
  have same : metrics.integers = merged.integers := Vector.ext fun index inside =>
    (step.integers ⟨index, inside⟩).trans (integers ⟨index, inside⟩).symm
  rw [Metrics.mk.injEq]
  exact ⟨same, rfl, rfl, step.slashed.trans slashed.symm,
    step.balanceStart.trans balanceStart.symm, step.balanceEnd.trans balanceEnd.symm⟩

/-- What a fold says of a validator. -/
structure Total where
  /-- The validator. -/
  validator : Int
  /-- First epoch past those that are covered. -/
  stop : Int
  /-- The metrics. -/
  metrics : Metrics

/-- What a daily row says. -/
def DailyRow.total (row : DailyRow) : Total := ⟨row.validator, row.stop, row.metrics⟩

/-- What a rolling row says. -/
def RollingRow.total (row : RollingRow) : Total := ⟨row.validator, row.stop, row.metrics⟩

/-- Rows say of a span what a single fold of its epochs would say. -/
structure IsSpanFold (layout : BucketLayout) (epochs : List EpochRow) (span : EpochRange)
    (totals : List Total) : Prop where
  /-- There is one for each validator with an epoch, in ascending order. -/
  validators : totals.map (·.validator) =
    Sample.validators (epochSamples epochs span.start span.stop)
  /-- Each covers the epochs up to the latest one and has the metrics of one step. Where a single
  fold of the epochs has a result, they are its metrics up to the two chances. -/
  metrics : ∀ total ∈ totals, ∃ earliest latest,
    SpanEnds epochs span.start span.stop earliest latest ∧ total.stop = latest + 1 ∧
      total.metrics.OneStep epochs span.start span.stop
        (layout.bucketAt .hourly earliest).start latest total.validator ∧
      ∀ merged, Sample.merge? (epochSamples epochs span.start span.stop)
          (layout.bucketAt .hourly earliest).start latest total.validator = some merged →
        total.metrics = { merged with
          syncChance := total.metrics.syncChance, blockChance := total.metrics.blockChance }

section

variable {layout : BucketLayout} {epochs : List EpochRow} {hours : List HourlyRow}
  {first count earliest latest : Nat}

/-- A fold of the hours of a span is a fold of its epochs. -/
theorem SpanHours.oneStep
    (held : SpanHours layout.hourlyWidth epochs (layout.hourSpan first count).start
      (layout.hourSpan first count).stop hours)
    (ends : SpanEnds epochs (layout.hourSpan first count).start (layout.hourSpan first count).stop
      earliest latest) {validator : Int} {metrics : Metrics}
    (stored : Sample.stored? (hours.map (·.sample)) (layout.bucketAt .hourly earliest).start
      (layout.bucketAt .hourly latest).start validator = some metrics) :
    metrics.OneStep epochs (layout.hourSpan first count).start (layout.hourSpan first count).stop
      (layout.bucketAt .hourly earliest).start latest validator := by
  obtain ⟨integers, slashed, balanceStart, balanceEnd⟩ := Sample.stored?_eq_some stored
  rw [ofValidator_hours, List.any_map] at slashed
  simp only [ofValidator_hours, List.map_map] at integers
  rw [at?_hours, Option.bind_map] at balanceStart balanceEnd
  -- Both hours lie in the span, since hours start there.
  have within {hour : Int} (starts : hour ∈ hours.map (·.start)) :
      ((layout.hourSpan first count).start : Int) ≤ hour ∧
        hour < (layout.hourSpan first count).stop := by
    obtain ⟨row, member, rfl⟩ := List.mem_map.mp starts
    exact (held.rows row member).2
  have firstWithin := within (List.min?_mem (held.min?_start ends))
  have lastWithin := within (List.max?_mem (held.max?_start ends))
  have near := layout.start_bucketAt_le .hourly latest
  have far := layout.lt_stop_bucketAt .hourly latest
  rw [layout.stop_bucketAt_hourly] at far
  refine ⟨fun column => ?_, ?_, ?_, ?_⟩
  · exact (integers column).trans (held.sum_eq column validator)
  · exact slashed.trans (held.any_slashed validator)
  · refine balanceStart.trans (held.find?_hour Metrics.balanceStart
      (layout.isHourStart_bucketAt earliest) firstWithin.1 firstWithin.2 (Int.le_refl _) (by omega)
      (fun row member here => ?_) validator)
    rw [(held.rows row member).1.summarizes.balanceStart, here]
  · refine balanceEnd.trans (held.find?_hour Metrics.balanceEnd
      (layout.isHourStart_bucketAt latest) lastWithin.1 lastWithin.2 (by omega) (by omega)
      (fun row member here => ?_) validator)
    rw [(held.rows row member).1.summarizes.balanceEnd, held.stop_of_last ends member here, here,
      Int.add_sub_cancel]

end

/-! ### Both levels -/

/-- A fold of one of the hours writes a row in the place of this one. -/
def Rewritten (layout : BucketLayout) (epochs : List EpochRow) (order : List Nat)
    (row : HourlyRow) : Prop :=
  ∃ index ∈ order, row.start = (layout.hour index).start ∧
    ∃ source ∈ epochs, row.validator = source.validator ∧
      ((layout.hour index).start : Int) ≤ source.epoch ∧ source.epoch < (layout.hour index).stop

namespace HoursFolded

variable {layout : BucketLayout} {epochs : List EpochRow} {before hours : List HourlyRow}
  {order : List Nat} {first count : Nat}

/-- Once every hour of a span is folded, its hours are those of the epochs. -/
theorem spanHours (folded : HoursFolded layout epochs order before hours)
    (keyed : Keyed HourlyRow.key before)
    (consecutive : ∀ index, index ∈ order ↔ first ≤ index ∧ index < first + count)
    (alone : ∀ row ∈ before, ((layout.hourSpan first count).start : Int) ≤ row.start →
      row.start < (layout.hourSpan first count).stop → Rewritten layout epochs order row) :
    SpanHours layout.hourlyWidth epochs (layout.hourSpan first count).start
      (layout.hourSpan first count).stop (hoursIn hours (layout.hourSpan first count)) := by
  refine ⟨⟨first, rfl⟩, ⟨first + count, rfl⟩, keyed_hoursIn (folded.keyed keyed) _,
    fun row member => ?_, fun source present after below => ?_⟩
  · obtain ⟨stored, low, high⟩ := mem_hoursIn.mp member
    refine ⟨?_, low, high⟩
    rcases folded.mem_or stored with old | fold
    · -- The row of the fold stands in its place.
      obtain ⟨index, indexMember, start, source, present, validator, near, far⟩ :=
        alone row old low high
      rw [layout.stop_hour, Nat.cast_add] at far
      rw [layout.start_hour] at start near
      obtain ⟨other, otherMember, fold, otherValidator, otherStart⟩ :=
        folded.exists_row keyed indexMember present near far
      have sameKey := (HourlyRow.key_eq_iff row other).mpr
        ⟨start.trans otherStart.symm, validator.trans otherValidator.symm⟩
      rw [(folded.keyed keyed).eq_of_key_eq stored otherMember sameKey]
      exact fold
    · exact fold
  · obtain ⟨epoch, epochIs⟩ := Int.eq_ofNat_of_zero_le
      (Int.le_trans (Int.natCast_nonneg _) after)
    rw [epochIs] at after below
    have lowIndex : first ≤ epoch / layout.hourlyWidth :=
      (Nat.le_div_iff_mul_le layout.hourlyWidth_pos).mpr (Int.ofNat_le.mp after)
    have highIndex : epoch / layout.hourlyWidth < first + count :=
      (Nat.div_lt_iff_lt_mul layout.hourlyWidth_pos).mpr (Int.ofNat_lt.mp below)
    have near := layout.start_bucketAt_le .hourly epoch
    have far := layout.lt_stop_bucketAt .hourly epoch
    rw [layout.stop_bucketAt_hourly, layout.start_bucketAt_hourly] at far
    rw [layout.start_bucketAt_hourly] at near
    obtain ⟨row, member, -, validator, start⟩ := folded.exists_row keyed
      ((consecutive _).mpr ⟨lowIndex, highIndex⟩) present (by omega) (by omega)
    have low : first * layout.hourlyWidth ≤ epoch / layout.hourlyWidth * layout.hourlyWidth :=
      Nat.mul_le_mul_right _ lowIndex
    refine ⟨row, mem_hoursIn.mpr ⟨member, ?_, ?_⟩, validator, by omega, by omega⟩
    · rw [start]
      exact Int.ofNat_le.mpr low
    · omega

/-- The two levels of aggregation compose. Consecutive hours are folded in any order, over hours
of which none is left in their span that they do not write themselves. When a day is folded
after that, over a range in which the hours of the span start and no others, its rows are what
one fold of the epochs of the span gives: one for each validator that has an epoch there, with
the sums of its epochs, with its balances at the start of the first hour that is not empty and
at the latest epoch, and with the coverage of the latest epoch. Where that one fold has a result,
the metrics are the same as its own, the two chances apart. The same holds of the trailing
window, when it is replaced from the first hour that is not empty to the last one. -/
theorem levels_compose (folded : HoursFolded layout epochs order before hours)
    (keyed : Keyed HourlyRow.key before)
    (consecutive : ∀ index, index ∈ order ↔ first ≤ index ∧ index < first + count)
    (alone : ∀ row ∈ before, ((layout.hourSpan first count).start : Int) ≤ row.start →
      row.start < (layout.hourSpan first count).stop → Rewritten layout epochs order row) :
    (∀ (tables after : Tables) (range : EpochRange) (day : CalendarDay) (written : Nat),
        tables.hourly = hours →
        (∀ row ∈ hours, (range.start : Int) ≤ row.start ∧ row.start < range.stop ↔
          ((layout.hourSpan first count).start : Int) ≤ row.start ∧
            row.start < (layout.hourSpan first count).stop) →
        Given tables (.foldDay range day) written after →
        ∃ rows : List DailyRow, after = tables.withDays rows ∧ written = rows.length ∧
          (∀ row ∈ rows, row.day = day ∧ row.start = range.start) ∧
          IsSpanFold layout epochs (layout.hourSpan first count) (rows.map DailyRow.total)) ∧
      ∀ (tables after : Tables) (earliest latest written : Nat), tables.hourly = hours →
        SpanEnds epochs (layout.hourSpan first count).start (layout.hourSpan first count).stop
          earliest latest →
        Given tables (.replaceRolling (layout.bucketAt .hourly earliest).start
          (layout.bucketAt .hourly latest).start) written after →
        after = { tables with rolling := after.rolling } ∧ written = after.rolling.length ∧
          (∀ row ∈ after.rolling, row.start = ((layout.bucketAt .hourly earliest).start : Int)) ∧
          IsSpanFold layout epochs (layout.hourSpan first count)
            (after.rolling.map RollingRow.total) := by
  have held := folded.spanHours keyed consecutive alone
  have keys (chosen : List HourlyRow) : (chosen.map (·.sample)).map (·.key) =
      chosen.map (·.start) := by
    rw [List.map_map]
    rfl
  refine ⟨fun tables after range day written same exactly given => ?_,
    fun tables after earliest latest written same ends given => ?_⟩
  · have samples : hourSamples tables.hourly range.start range.stop =
        (hoursIn hours (layout.hourSpan first count)).map (·.sample) := by
      rw [same]
      unfold hourSamples hoursIn
      refine congrArg _ (List.filter_congr fun row member => ?_)
      rw [Bool.eq_iff_iff]
      simpa using exactly row member
    have law := given.foldDay
    rw [samples, keys] at law
    rcases law with ⟨empty, rfl, rfl⟩ | ⟨start, last, rows, startIs, lastIs, -, validators, stored,
      rfl, rfl⟩
    · refine ⟨[], rfl, rfl, nofun, ?_, nofun⟩
      rw [← held.validators_eq, empty]
      rfl
    · obtain ⟨hour, hourMember, -⟩ := List.mem_map.mp (List.min?_mem startIs)
      obtain ⟨earliest, latest, ends⟩ := held.exists_ends hourMember
      obtain rfl := Option.some.inj (startIs.symm.trans (held.min?_start ends))
      obtain rfl := Option.some.inj (lastIs.symm.trans (held.max?_start ends))
      refine ⟨rows, rfl, rfl, fun row member => ⟨(stored row member).1.1,
        (stored row member).1.2.1⟩, ?_, ?_⟩
      · rw [List.map_map, ← held.validators_eq, ← validators]
        rfl
      · rintro _ member
        obtain ⟨row, rowMember, rfl⟩ := List.mem_map.mp member
        obtain ⟨⟨-, -, stop⟩, metrics⟩ := stored row rowMember
        subst same
        rw [held.coverage ends] at stop
        have step := held.oneStep ends metrics
        exact ⟨earliest, latest, ends, stop, step, fun _ => step.eq_merge⟩
  · subst same
    have law := given.replaceRolling
    rw [held.windowSamples_eq ends, keys] at law
    rcases law with ⟨empty, -, -⟩ | ⟨start, rows, startIs, validators, stored, rfl, rfl⟩
    · have found := held.min?_start ends
      rw [List.map_eq_nil_iff.mp empty] at found
      cases found
    · have ascending : rows.Pairwise fun left right => left.validator < right.validator := by
        rw [← List.pairwise_map (f := RollingRow.validator), validators]
        exact Sample.pairwise_validators _
      obtain rfl := Option.some.inj (startIs.symm.trans (held.min?_start ends))
      dsimp only
      rw [putRows_rolling ascending]
      refine ⟨rfl, rfl, fun row member => (stored row member).1.1, ?_, ?_⟩
      · rw [List.map_map, ← held.validators_eq, ← validators]
        rfl
      · rintro _ member
        obtain ⟨row, rowMember, rfl⟩ := List.mem_map.mp member
        obtain ⟨⟨-, stop⟩, metrics⟩ := stored row rowMember
        rw [held.coverage ends] at stop
        have step := held.oneStep ends metrics
        exact ⟨earliest, latest, ends, (Option.some.inj stop).symm, step, fun _ => step.eq_merge⟩

end HoursFolded

namespace MissedBoundaries

/-- A chain of hourly epochs with hours of two epochs. -/
def layout : BucketLayout :=
  .ofNumbers ⟨1704067200, 0⟩ 450 8 2 12 1 (by decide)

/-- A validator that begins and ends an epoch with this balance. -/
def metrics (balance : Int) : Metrics :=
  { Metrics.none with balanceStart := some balance, balanceEnd := some balance }

/-- No epoch is in the first hour of the span, nor in the third one. Only validator 8 is there
when the second hour begins, and it has left by the last epoch. An hour before the span is
stored, and so is an old version of the last hour. -/
def store : EmbeddedStore where
  tables :=
    { epochs := [⟨4, 8, metrics 40⟩, ⟨5, 7, metrics 50⟩, ⟨8, 7, metrics 80⟩, ⟨8, 9, metrics 90⟩]
      hourly := [⟨0, 2, 7, metrics 1⟩, ⟨8, 9, 7, metrics 2⟩]
      daily := []
      rolling := []
      catalogue := [layout.partitionAt .hourly 0, layout.partitionAt .daily 0] }
  faults := []
  isClosed := false

/-- The hours are folded, the last one first. -/
def folded : EmbeddedStore :=
  [4, 2, 1, 3].foldl (fun store index => (store.answer (.foldHour (layout.hour index))).2) store

theorem hoursFolded : HoursFolded layout store.tables.epochs [4, 2, 1, 3] store.tables.hourly
    folded.tables.hourly := by
  refine .fold 2 rfl (EmbeddedStore.given_of_answer (by decide +kernel)) ?_
  refine .fold 2 ?_ (EmbeddedStore.given_of_answer (by decide +kernel)) ?_
  · decide +kernel
  refine .fold 0 ?_ (EmbeddedStore.given_of_answer (by decide +kernel)) ?_
  · decide +kernel
  refine .fold 0 ?_ (EmbeddedStore.given_of_answer (by decide +kernel)) (.done _)
  decide +kernel

/-- A fold of a day over a range that begins and ends within hours. -/
abbrev dayFold : StoreCall := .foldDay ⟨1, 9⟩ (layout.clock.dayOf 0)

/-- A replacement of the window, from the second hour of the span to the last one. -/
abbrev windowFold : StoreCall := .replaceRolling 4 8

/-- Each validator has one row at each level. Balances that were missed are missing. -/
theorem evaluated :
    (folded.answer dayFold).1 = .ok (3 : Nat) ∧
      (folded.answer dayFold).2.tables.daily.map (fun row =>
        (row.validator, row.stop, row.metrics.balanceStart, row.metrics.balanceEnd)) =
          [(7, 9, none, some 80), (8, 9, some 40, none), (9, 9, none, some 90)] ∧
      (folded.answer windowFold).1 = .ok (3 : Nat) ∧
      (folded.answer windowFold).2.tables.rolling.map (fun row =>
        (row.validator, row.stop, row.metrics.balanceStart, row.metrics.balanceEnd)) =
          [(7, 9, none, some 80), (8, 9, some 40, none), (9, 9, none, some 90)] := by
  decide +kernel

end MissedBoundaries

open MissedBoundaries in
/-- Both levels agree with a single fold when hours are empty and validators miss the
boundaries. -/
theorem HoursFolded.levels_compose_missed_boundaries :
    (∃ rows : List DailyRow, (folded.answer dayFold).2.tables = folded.tables.withDays rows ∧
        IsSpanFold layout store.tables.epochs (layout.hourSpan 1 4) (rows.map DailyRow.total)) ∧
      (folded.answer dayFold).2.tables.daily.map (fun row =>
        (row.validator, row.stop, row.metrics.balanceStart, row.metrics.balanceEnd)) =
          [(7, 9, none, some 80), (8, 9, some 40, none), (9, 9, none, some 90)] ∧
      IsSpanFold layout store.tables.epochs (layout.hourSpan 1 4)
        ((folded.answer windowFold).2.tables.rolling.map RollingRow.total) := by
  obtain ⟨dayAnswered, dayRows, windowAnswered, -⟩ := evaluated
  have keyed : Keyed HourlyRow.key store.tables.hourly := by
    unfold Keyed
    decide +kernel
  have alone : ∀ row ∈ store.tables.hourly, ((layout.hourSpan 1 4).start : Int) ≤ row.start →
      row.start < (layout.hourSpan 1 4).stop →
        Rewritten layout store.tables.epochs [4, 2, 1, 3] row := by
    unfold Rewritten
    decide +kernel
  have exactly : ∀ row ∈ folded.tables.hourly, ((1 : Nat) : Int) ≤ row.start ∧
      row.start < (9 : Nat) ↔ ((layout.hourSpan 1 4).start : Int) ≤ row.start ∧
        row.start < (layout.hourSpan 1 4).stop := by
    decide +kernel
  have ends : SpanEnds store.tables.epochs (layout.hourSpan 1 4).start (layout.hourSpan 1 4).stop
      4 8 := ⟨by decide +kernel, by decide +kernel⟩
  have consecutive : ∀ index, index ∈ [4, 2, 1, 3] ↔ 1 ≤ index ∧ index < 1 + 4 := by
    intro index
    simp only [List.mem_cons, List.not_mem_nil, or_false]
    omega
  obtain ⟨days, window⟩ := levels_compose hoursFolded keyed consecutive alone
  obtain ⟨rows, same, -, -, fold⟩ := days folded.tables _ ⟨1, 9⟩ _ _ rfl exactly
    (EmbeddedStore.given_of_answer dayAnswered)
  exact ⟨⟨rows, same, fold⟩, dayRows, (window folded.tables _ 4 8 _ rfl ends
    (EmbeddedStore.given_of_answer windowAnswered)).2.2.2⟩

end EpochRollup
