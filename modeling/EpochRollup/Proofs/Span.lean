/-
This file says what the hours of a span are when its epochs are folded, apart from the order in
which that was done, and how much of the epochs can still be read off them: sums, marks, and the
values at an epoch, as long as the hour of that epoch carries it. The first and the last hour are
those of the earliest and the latest epoch present, whoever has them, so a validator that missed
one of these epochs has no value there at either level.
-/

import EpochRollup.Proofs.HourlyRows
import EpochRollup.Proofs.Window

namespace EpochRollup

/-! ### The hours of a span -/

/-- Hours are the rows of all hours between two hour starts. -/
structure SpanHours (width : Nat) (epochs : List EpochRow) (start stop : Int)
    (hours : List HourlyRow) : Prop where
  /-- The span starts with an hour. -/
  starts : IsHourStart width start
  /-- It ends with an hour. -/
  stops : IsHourStart width stop
  /-- A bucket and a validator have one row. -/
  keyed : Keyed HourlyRow.key hours
  /-- Each row is a row of the fold. -/
  rows : ∀ row ∈ hours, row.FoldOf width epochs ∧ start ≤ row.start ∧ row.start < stop
  /-- Each epoch of the span is in an hour. -/
  complete : ∀ source ∈ epochs, start ≤ source.epoch → source.epoch < stop →
    ∃ row ∈ hours, row.validator = source.validator ∧ row.start ≤ source.epoch ∧
      source.epoch < row.start + width

namespace SpanHours

variable {width : Nat} {epochs : List EpochRow} {start stop : Int} {hours : List HourlyRow}

/-- An hour of the span lies in it as a whole. -/
theorem le_stop (held : SpanHours width epochs start stop hours) {row : HourlyRow}
    (member : row ∈ hours) : row.start + width ≤ stop :=
  (held.rows row member).1.starts.add_le_of_lt held.stops (held.rows row member).2.2

/-- A row covers an epoch of the span. -/
theorem exists_source (held : SpanHours width epochs start stop hours) {row : HourlyRow}
    (member : row ∈ hours) : ∃ source ∈ epochs, (start ≤ source.epoch ∧ source.epoch < stop) ∧
      row.start ≤ source.epoch ∧ source.epoch < row.start + width := by
  obtain ⟨fold, after, -⟩ := held.rows row member
  obtain ⟨source, sourceMember, ⟨from_, before⟩, -⟩ := fold.exists_last
  have whole := held.le_stop member
  exact ⟨source, sourceMember, ⟨by omega, by omega⟩, from_, before⟩

/-- A span is cut between two hours. -/
theorem split (held : SpanHours width epochs start stop hours) {middle : Int}
    (cut : IsHourStart width middle) (after : start ≤ middle) (before : middle ≤ stop) :
    SpanHours width epochs start middle (hours.filter (·.start < middle)) ∧
      SpanHours width epochs middle stop (hours.filter (middle ≤ ·.start)) := by
  refine ⟨⟨held.starts, cut, held.keyed.filter _, fun row member => ?_, ?_⟩,
    ⟨cut, held.stops, held.keyed.filter _, fun row member => ?_, ?_⟩⟩
  · obtain ⟨inside, early⟩ := List.mem_filter.mp member
    obtain ⟨fold, low, -⟩ := held.rows row inside
    exact ⟨fold, low, of_decide_eq_true early⟩
  · intro source member low high
    obtain ⟨row, inside, validator, near, far⟩ := held.complete source member low (by omega)
    exact ⟨row, List.mem_filter.mpr ⟨inside, decide_eq_true (by omega)⟩, validator, near, far⟩
  · obtain ⟨inside, late⟩ := List.mem_filter.mp member
    obtain ⟨fold, -, high⟩ := held.rows row inside
    exact ⟨fold, of_decide_eq_true late, high⟩
  · intro source member low high
    obtain ⟨row, inside, validator, near, far⟩ := held.complete source member (by omega) high
    refine ⟨row, List.mem_filter.mpr ⟨inside, decide_eq_true ?_⟩, validator, near, far⟩
    by_contra early
    have whole := (held.rows row inside).1.starts.add_le_of_lt cut (by omega)
    omega

end SpanHours

/-! ### Sums -/

/-- A sum is taken in two parts. -/
theorem sum_map_eq_add {Row : Type} (key value : Row → Int) (middle : Int) (rows : List Row) :
    (rows.map value).sum = ((rows.filter (key · < middle)).map value).sum +
      ((rows.filter (middle ≤ key ·)).map value).sum := by
  induction rows with
  | nil => rfl
  | cons row rest inductionHypothesis =>
    rw [List.map_cons, List.sum_cons, inductionHypothesis]
    rcases lt_or_ge (key row) middle with early | late
    · rw [List.filter_cons_of_pos (by simpa using early),
        List.filter_cons_of_neg (by simpa using early), List.map_cons, List.sum_cons,
        Int.add_assoc]
    · rw [List.filter_cons_of_neg (by simpa using late),
        List.filter_cons_of_pos (by simpa using late), List.map_cons, List.sum_cons]
      omega

/-- The epochs of a validator in a span, up to a cut and from there. -/
theorem filter_ownEpochs (epochs : List EpochRow) (start middle stop validator : Int)
    (after : start ≤ middle) (before : middle ≤ stop) :
    (ownEpochs epochs start stop validator).filter (·.epoch < middle) =
        ownEpochs epochs start middle validator ∧
      (ownEpochs epochs start stop validator).filter (middle ≤ ·.epoch) =
        ownEpochs epochs middle stop validator := by
  unfold ownEpochs
  rw [List.filter_filter, List.filter_filter]
  refine ⟨List.filter_congr fun row _ => ?_, List.filter_congr fun row _ => ?_⟩ <;>
  · rw [Bool.eq_iff_iff]
    simp only [Bool.and_eq_true, decide_eq_true_eq]
    omega

theorem mem_ownEpochs {epochs : List EpochRow} {start stop validator : Int} {source : EpochRow} :
    source ∈ ownEpochs epochs start stop validator ↔
      source ∈ epochs ∧ (start ≤ source.epoch ∧ source.epoch < stop) ∧
        source.validator = validator := by
  simp [ownEpochs]

/-- An epoch is looked up among the epochs of a validator in any span that it is in. -/
theorem find?_ownEpochs (epochs : List EpochRow) {start stop key : Int} (validator : Int)
    (after : start ≤ key) (before : key < stop) :
    (ownEpochs epochs start stop validator).find? (·.epoch = key) =
      epochs.find? fun row => row.epoch = key ∧ row.validator = validator := by
  unfold ownEpochs
  rw [List.find?_filter]
  refine congrArg (fun kept => List.find? kept epochs) (funext fun row => ?_)
  rw [Bool.eq_iff_iff]
  simp only [decide_eq_true_eq]
  constructor
  · rintro ⟨⟨-, validator⟩, here⟩
    exact ⟨here, validator⟩
  · rintro ⟨rfl, validator⟩
    exact ⟨⟨⟨after, before⟩, validator⟩, rfl⟩

namespace SpanHours

variable {width : Nat} {epochs : List EpochRow} {start stop : Int} {hours : List HourlyRow}

/-- A validator has no row in a span exactly when it has no epoch there. -/
theorem filter_eq_nil_iff (held : SpanHours width epochs start stop hours) (validator : Int) :
    hours.filter (·.validator = validator) = [] ↔ ownEpochs epochs start stop validator = [] := by
  rw [List.filter_eq_nil_iff, List.eq_nil_iff_forall_not_mem]
  constructor
  · intro none source member
    obtain ⟨present, ⟨after, before⟩, same⟩ := mem_ownEpochs.mp member
    obtain ⟨row, rowMember, rowIs, -⟩ := held.complete source present after before
    exact none row rowMember (decide_eq_true (rowIs.trans same))
  · intro none row member isIt
    obtain ⟨fold, low, -⟩ := held.rows row member
    have whole := held.le_stop member
    obtain ⟨source, present, ⟨after, before⟩, same⟩ := mem_validators_epochSamples.mp fold.seen
    exact none source (mem_ownEpochs.mpr
      ⟨present, ⟨by omega, by omega⟩, same.trans (of_decide_eq_true isIt)⟩)

/-- The rows of one hour carry its sums. -/
theorem sum_hour (held : SpanHours width epochs start (start + width) hours)
    (column : Fin integerColumnCount) (validator : Int) :
    ((hours.filter (·.validator = validator)).map (·.metrics.integers.get column)).sum =
      ((ownEpochs epochs start (start + width) validator).map
        (·.metrics.integers.get column)).sum := by
  have here {row : HourlyRow} (member : row ∈ hours) : row.start = start := by
    obtain ⟨fold, low, high⟩ := held.rows row member
    exact Int.le_antisymm (fold.starts.le_of_lt held.starts high) low
  by_cases none : ownEpochs epochs start (start + width) validator = []
  · rw [none, (held.filter_eq_nil_iff validator).mpr none]
    rfl
  · obtain ⟨row, member⟩ :=
      List.exists_mem_of_ne_nil _ (mt (held.filter_eq_nil_iff validator).mp none)
    obtain ⟨rowMember, isIt⟩ := List.mem_filter.mp member
    have rowIs : row.validator = validator := of_decide_eq_true isIt
    have alone : hours.filter (·.validator = validator) = [row] :=
      held.keyed.filter_eq_singleton rowMember isIt fun other otherMember otherIs =>
        (HourlyRow.key_eq_iff other row).mpr ⟨(here otherMember).trans (here rowMember).symm,
          (of_decide_eq_true otherIs).trans rowIs.symm⟩
    rw [alone, List.map_singleton, List.sum_singleton,
      (held.rows row rowMember).1.summarizes.integers, here rowMember, rowIs]

/-- The rows of a span carry its sums, hour after hour. -/
theorem sum_eq {first count : Nat} {hours : List HourlyRow}
    (held : SpanHours width epochs (first * width : Nat) ((first + count) * width : Nat) hours)
    (column : Fin integerColumnCount) (validator : Int) :
    ((hours.filter (·.validator = validator)).map (·.metrics.integers.get column)).sum =
      ((ownEpochs epochs (first * width : Nat) ((first + count) * width : Nat) validator).map
        (·.metrics.integers.get column)).sum := by
  induction count generalizing hours with
  | zero =>
    have none : ownEpochs epochs (first * width : Nat) ((first + 0) * width : Nat) validator =
        [] := by
      refine List.eq_nil_iff_forall_not_mem.mpr fun source member => ?_
      obtain ⟨-, ⟨after, before⟩, -⟩ := mem_ownEpochs.mp member
      rw [Nat.add_zero] at before
      omega
    rw [none, (held.filter_eq_nil_iff validator).mpr none]
    rfl
  | succ count inductionHypothesis =>
    -- The last hour is cut off.
    have low : first * width ≤ (first + count) * width := Nat.mul_le_mul_right _ (by omega)
    have next : (first + (count + 1)) * width = (first + count) * width + width := by
      rw [← Nat.add_assoc, Nat.add_mul, Nat.one_mul]
    rw [next, Nat.cast_add] at held ⊢
    obtain ⟨early, late⟩ := held.split ⟨first + count, rfl⟩ (by omega) (by omega)
    obtain ⟨ownEarly, ownLate⟩ := filter_ownEpochs epochs (first * width : Nat)
      ((first + count) * width : Nat) (((first + count) * width : Nat) + width) validator
      (by omega) (by omega)
    have sums := inductionHypothesis early
    have hour := late.sum_hour column validator
    rw [List.filter_comm] at sums hour
    rw [sum_map_eq_add (·.start) _ ((first + count) * width : Nat),
      sum_map_eq_add (·.epoch) _ ((first + count) * width : Nat)
        (ownEpochs epochs _ _ validator), ownEarly, ownLate, ← sums, ← hour]

/-! ### Marks and boundaries -/

/-- A row of a validator is marked exactly when one of its epochs is. -/
theorem any_slashed (held : SpanHours width epochs start stop hours) (validator : Int) :
    (hours.filter (·.validator = validator)).any (·.metrics.slashed) =
      (ownEpochs epochs start stop validator).any (·.metrics.slashed) := by
  rw [Bool.eq_iff_iff, List.any_eq_true, List.any_eq_true]
  constructor
  · rintro ⟨row, member, marked⟩
    obtain ⟨rowMember, isIt⟩ := List.mem_filter.mp member
    obtain ⟨fold, low, -⟩ := held.rows row rowMember
    have whole := held.le_stop rowMember
    rw [fold.summarizes.slashed, List.any_eq_true] at marked
    obtain ⟨source, own, sourceMarked⟩ := marked
    obtain ⟨present, ⟨after, before⟩, same⟩ := mem_ownEpochs.mp own
    exact ⟨source, mem_ownEpochs.mpr ⟨present, ⟨by omega, by omega⟩,
      same.trans (of_decide_eq_true isIt)⟩, sourceMarked⟩
  · rintro ⟨source, own, marked⟩
    obtain ⟨present, ⟨after, before⟩, same⟩ := mem_ownEpochs.mp own
    obtain ⟨row, member, rowIs, near, far⟩ := held.complete source present after before
    refine ⟨row, List.mem_filter.mpr ⟨member, decide_eq_true (rowIs.trans same)⟩, ?_⟩
    rw [(held.rows row member).1.summarizes.slashed, List.any_eq_true]
    exact ⟨source, mem_ownEpochs.mpr ⟨present, ⟨near, far⟩, rowIs.symm⟩, marked⟩

/-- A value of an hour that is read at an epoch of it is the value at this epoch. -/
theorem find?_hour (held : SpanHours width epochs start stop hours) {hour key : Int}
    (value : Metrics → Option Int) (starts : IsHourStart width hour)
    (low : start ≤ hour) (high : hour < stop) (after : hour ≤ key) (before : key < hour + width)
    (each : ∀ row ∈ hours, row.start = hour → value row.metrics =
      ((ownEpochs epochs hour (hour + width) row.validator).find? (·.epoch = key)).bind
        (value ·.metrics)) (validator : Int) :
    ((hours.filter (·.validator = validator)).find? (·.start = hour)).bind (value ·.metrics) =
      ((ownEpochs epochs start stop validator).find? (·.epoch = key)).bind
        (value ·.metrics) := by
  have whole := starts.add_le_of_lt held.stops high
  rw [find?_ownEpochs epochs validator (by omega) (by omega)]
  cases found : (hours.filter (·.validator = validator)).find? (·.start = hour) with
  | some row =>
    obtain ⟨member, isIt⟩ := List.mem_filter.mp (List.mem_of_find?_eq_some found)
    have here : row.start = hour := by simpa using List.find?_some found
    have rowIs : row.validator = validator := of_decide_eq_true isIt
    rw [Option.bind_some, each row member here, find?_ownEpochs epochs _ after before, rowIs]
  | none =>
    have missed : (epochs.find? fun row => row.epoch = key ∧ row.validator = validator) =
        none := by
      refine List.find?_eq_none.mpr fun source present isIt => ?_
      obtain ⟨rfl, same⟩ := of_decide_eq_true isIt
      obtain ⟨row, member, rowIs, near, far⟩ :=
        held.complete source present (by omega) (by omega)
      have rowStarts := (held.rows row member).1.starts
      have here : row.start = hour := Int.le_antisymm (rowStarts.le_of_lt starts (by omega))
        (starts.le_of_lt rowStarts (by omega))
      exact List.find?_eq_none.mp found row
        (List.mem_filter.mpr ⟨member, decide_eq_true (rowIs.trans same)⟩) (decide_eq_true here)
    rw [missed]
    rfl

/-! ### The first and the last hour -/

/-- The samples of hours are those of a fold over the same epochs, as far as validators go. -/
theorem validators_eq (held : SpanHours width epochs start stop hours) :
    Sample.validators (hours.map (·.sample)) =
      Sample.validators (epochSamples epochs start stop) := by
  have keyed (samples : List Sample) : Keyed id (Sample.validators samples) :=
    Sample.pairwise_validators samples
  refine (keyed _).ext (keyed _) fun validator => ?_
  rw [Sample.mem_validators, mem_validators_epochSamples]
  constructor
  · rintro ⟨sample, member, same⟩
    obtain ⟨row, rowMember, rfl⟩ := List.mem_map.mp member
    obtain ⟨fold, low, -⟩ := held.rows row rowMember
    have whole := held.le_stop rowMember
    obtain ⟨source, present, ⟨after, before⟩, own⟩ := mem_validators_epochSamples.mp fold.seen
    exact ⟨source, present, ⟨by omega, by omega⟩, own.trans same⟩
  · rintro ⟨source, present, ⟨after, before⟩, same⟩
    obtain ⟨row, member, rowIs, -⟩ := held.complete source present after before
    exact ⟨row.sample, List.mem_map_of_mem member, rowIs.trans same⟩

end SpanHours

/-- The earliest and the latest epoch present in a span. -/
structure SpanEnds (epochs : List EpochRow) (start stop : Int) (earliest latest : Nat) : Prop where
  /-- The earliest. -/
  earliest : ((epochSamples epochs start stop).map (·.key)).min? = some (earliest : Int)
  /-- The latest. -/
  latest : ((epochSamples epochs start stop).map (·.key)).max? = some (latest : Int)

/-- The hour that holds an epoch starts with its bucket. -/
theorem IsHourStart.eq_start_bucketAt {layout : BucketLayout} {start : Int} {epoch : Nat}
    (starts : IsHourStart layout.hourlyWidth start) (near : start ≤ epoch)
    (far : epoch < start + layout.hourlyWidth) :
    start = ((layout.bucketAt .hourly epoch).start : Int) := by
  obtain ⟨first, rfl⟩ := Int.eq_ofNat_of_zero_le starts.nonneg
  exact congrArg Nat.cast (starts.bucketAt_eq (by omega) (by omega)).symm

namespace SpanHours

variable {layout : BucketLayout} {epochs : List EpochRow} {start stop : Int}
  {hours : List HourlyRow} {earliest latest : Nat}

/-- Where there are hours, there are an earliest and a latest epoch. -/
theorem exists_ends (held : SpanHours layout.hourlyWidth epochs start stop hours)
    {row : HourlyRow} (member : row ∈ hours) :
    ∃ earliest latest, SpanEnds epochs start stop earliest latest := by
  obtain ⟨source, present, inside, -⟩ := held.exists_source member
  have some_ := mem_map_key_epochSamples.mpr ⟨source, present, inside, rfl⟩
  have positive := held.starts.nonneg
  have natural {key : Int} (keyMember : key ∈ (epochSamples epochs start stop).map (·.key)) :
      key = key.toNat := by
    obtain ⟨_, -, ⟨after, -⟩, rfl⟩ := mem_map_key_epochSamples.mp keyMember
    omega
  cases least : ((epochSamples epochs start stop).map (·.key)).min? with
  | none => exact absurd (List.min?_eq_none_iff.mp least) (List.ne_nil_of_mem some_)
  | some first =>
    cases most : ((epochSamples epochs start stop).map (·.key)).max? with
    | none => exact absurd (List.max?_eq_none_iff.mp most) (List.ne_nil_of_mem some_)
    | some last =>
      exact ⟨first.toNat, last.toNat,
        least.trans (congrArg some (natural (List.min?_mem least))),
        most.trans (congrArg some (natural (List.max?_mem most)))⟩

/-- The first hour is the one of the earliest epoch. -/
theorem min?_start (held : SpanHours layout.hourlyWidth epochs start stop hours)
    (ends : SpanEnds epochs start stop earliest latest) :
    (hours.map (·.start)).min? = some ((layout.bucketAt .hourly earliest).start : Int) := by
  obtain ⟨inside, least⟩ := List.min?_eq_some_iff.mp ends.earliest
  obtain ⟨source, present, ⟨after, before⟩, sourceIs⟩ := mem_map_key_epochSamples.mp inside
  obtain ⟨row, member, -, near, far⟩ := held.complete source present after before
  rw [← (held.rows row member).1.starts.eq_start_bucketAt (by omega) (by omega)]
  refine List.min?_eq_some_iff.mpr ⟨List.mem_map_of_mem member, ?_⟩
  rintro _ otherMember
  obtain ⟨other, otherRow, rfl⟩ := List.mem_map.mp otherMember
  obtain ⟨own, ownPresent, ownInside, -, ownFar⟩ := held.exists_source otherRow
  have upTo := least _ (mem_map_key_epochSamples.mpr ⟨own, ownPresent, ownInside, rfl⟩)
  exact (held.rows row member).1.starts.le_of_lt (held.rows other otherRow).1.starts (by omega)

/-- The last hour is the one of the latest epoch. -/
theorem max?_start (held : SpanHours layout.hourlyWidth epochs start stop hours)
    (ends : SpanEnds epochs start stop earliest latest) :
    (hours.map (·.start)).max? = some ((layout.bucketAt .hourly latest).start : Int) := by
  obtain ⟨inside, most⟩ := List.max?_eq_some_iff.mp ends.latest
  obtain ⟨source, present, ⟨after, before⟩, sourceIs⟩ := mem_map_key_epochSamples.mp inside
  obtain ⟨row, member, -, near, far⟩ := held.complete source present after before
  rw [← (held.rows row member).1.starts.eq_start_bucketAt (by omega) (by omega)]
  refine List.max?_eq_some_iff.mpr ⟨List.mem_map_of_mem member, ?_⟩
  rintro _ otherMember
  obtain ⟨other, otherRow, rfl⟩ := List.mem_map.mp otherMember
  obtain ⟨own, ownPresent, ownInside, ownNear, -⟩ := held.exists_source otherRow
  have upTo := most _ (mem_map_key_epochSamples.mpr ⟨own, ownPresent, ownInside, rfl⟩)
  exact (held.rows other otherRow).1.starts.le_of_lt (held.rows row member).1.starts (by omega)

/-- The rows of the last hour cover the epochs up to the latest one. -/
theorem stop_of_last (held : SpanHours layout.hourlyWidth epochs start stop hours)
    (ends : SpanEnds epochs start stop earliest latest) {row : HourlyRow} (member : row ∈ hours)
    (last : row.start = ((layout.bucketAt .hourly latest).start : Int)) :
    row.stop = latest + 1 := by
  obtain ⟨fold, low, -⟩ := held.rows row member
  have whole := held.le_stop member
  have near := layout.start_bucketAt_le .hourly latest
  have far := layout.lt_stop_bucketAt .hourly latest
  rw [layout.stop_bucketAt_hourly] at far
  obtain ⟨inside, most⟩ := List.max?_eq_some_iff.mp ends.latest
  obtain ⟨source, present, -, sourceIs⟩ := mem_map_key_epochSamples.mp inside
  obtain ⟨own, ownMost⟩ := List.max?_eq_some_iff.mp fold.last
  have reached : (latest : Int) ≤ row.stop - 1 :=
    ownMost _ (mem_map_key_epochSamples.mpr ⟨source, present, ⟨by omega, by omega⟩, sourceIs⟩)
  obtain ⟨other, otherPresent, ⟨otherAfter, otherBefore⟩, otherIs⟩ :=
    mem_map_key_epochSamples.mp own
  have bounded : row.stop - 1 ≤ latest :=
    most _ (mem_map_key_epochSamples.mpr ⟨other, otherPresent, ⟨by omega, by omega⟩, otherIs⟩)
  omega

end SpanHours

/-- The coverage of the last hour ends after the latest epoch. -/
theorem SpanHours.coverage {layout : BucketLayout} {epochs : List EpochRow} {tables : Tables}
    {span : EpochRange} {earliest latest : Nat}
    (held : SpanHours layout.hourlyWidth epochs span.start span.stop
      (hoursIn tables.hourly span))
    (ends : SpanEnds epochs span.start span.stop earliest latest) :
    EmbeddedStore.coverage tables (layout.bucketAt .hourly latest).start =
      some ((latest : Int) + 1) := by
  obtain ⟨row, member, start⟩ := List.mem_map.mp (List.max?_mem (held.max?_start ends))
  obtain ⟨-, low, high⟩ := held.rows row member
  rw [coverage_eq tables (start ▸ low) (start ▸ high)]
  have every {other : HourlyRow} (otherMember : other ∈ (hoursIn tables.hourly span).filter
      (·.start = ((layout.bucketAt .hourly latest).start : Int))) : other.stop = latest + 1 := by
    obtain ⟨inside, last⟩ := List.mem_filter.mp otherMember
    exact held.stop_of_last ends inside (of_decide_eq_true last)
  have here : row ∈ (hoursIn tables.hourly span).filter
      (·.start = ((layout.bucketAt .hourly latest).start : Int)) :=
    List.mem_filter.mpr ⟨member, decide_eq_true start⟩
  refine List.max?_eq_some_iff.mpr ⟨List.mem_map.mpr ⟨row, here, every here⟩, ?_⟩
  rintro _ stopMember
  obtain ⟨other, otherMember, rfl⟩ := List.mem_map.mp stopMember
  exact Int.le_of_eq (every otherMember)

/-- The hours from the first one to the last one are those of the span. -/
theorem SpanHours.windowSamples_eq {layout : BucketLayout} {epochs : List EpochRow}
    {hours : List HourlyRow} {span : EpochRange} {earliest latest : Nat}
    (held : SpanHours layout.hourlyWidth epochs span.start span.stop (hoursIn hours span))
    (ends : SpanEnds epochs span.start span.stop earliest latest) :
    windowSamples hours (layout.bucketAt .hourly earliest).start
      (layout.bucketAt .hourly latest).start = (hoursIn hours span).map (·.sample) := by
  obtain ⟨firstMember, least⟩ := List.min?_eq_some_iff.mp (held.min?_start ends)
  obtain ⟨lastMember, most⟩ := List.max?_eq_some_iff.mp (held.max?_start ends)
  obtain ⟨first, firstInside, firstIs⟩ := List.mem_map.mp firstMember
  obtain ⟨last, lastInside, lastIs⟩ := List.mem_map.mp lastMember
  have low := (held.rows first firstInside).2.1
  have high := (held.rows last lastInside).2.2
  unfold windowSamples hoursIn
  refine congrArg _ (List.filter_congr fun row member => ?_)
  rw [Bool.eq_iff_iff]
  simp only [Bool.and_eq_true, decide_eq_true_eq]
  constructor
  · rintro ⟨after, before⟩
    exact ⟨by omega, by omega⟩
  · intro inside
    have start := List.mem_map_of_mem (f := HourlyRow.start) (mem_hoursIn.mpr ⟨member, inside⟩)
    exact ⟨least _ start, most _ start⟩

end EpochRollup
