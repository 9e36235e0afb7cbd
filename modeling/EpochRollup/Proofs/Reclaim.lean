/-
This file proves that reclaiming is safe. A walk over expired partitions may start anywhere,
be told any oldest bucket and end at any failed drop; what it leaves is always the tables it
began with less some partitions that had ended by the boundary, each with its rows and its
catalogue entry.

Expiry is decided on epochs and days are deleted by their dates. Dates decide the same as
epochs where the calendar has not ended (`BucketLayout.covers_iff_of_inCalendar`), so one
statement on rows and the partitions they lie in (`Tables.holds_drop_iff`) serves both
granularities.
-/

import EpochRollup.Proofs.DailyRetention

namespace EpochRollup

/-! ### The places of rows -/

namespace BucketLayout

variable (layout : BucketLayout)

/-- The bucket of a row. -/
def bucketOf (row : PartitionedRow) : EpochRange :=
  layout.bucketAt row.granularity row.start.toNat

/-- The partition a row lies in. -/
def partitionOf (row : PartitionedRow) : Partition :=
  layout.partitionAt row.granularity row.start.toNat

/-- The tables hold rows that folds of the layout have written, and the catalogue lists each
name once. -/
structure Wrote (tables : Tables) : Prop where
  /-- Rows are written by folds. -/
  rows : ∀ row, tables.Holds row → layout.Writes row
  /-- Names are the keys of the catalogue. -/
  names : (tables.catalogue.map Partition.name).Nodup

end BucketLayout

/-! ### Every run leaves such tables -/

theorem Tables.nodup_names_ensure {tables : Tables}
    (names : (tables.catalogue.map Partition.name).Nodup) (partition : Partition) :
    ((tables.ensure partition).catalogue.map Partition.name).Nodup := by
  unfold Tables.ensure
  split
  · exact names
  · rename_i absent
    rw [List.map_append, List.nodup_append]
    refine ⟨names, List.nodup_cons.mpr ⟨List.not_mem_nil, List.nodup_nil⟩, ?_⟩
    rintro name listed other new rfl
    rw [List.map_singleton, List.mem_singleton] at new
    obtain ⟨old, member, same⟩ := List.mem_map.mp listed
    exact absent (hasPartition_iff.mpr ⟨old, member, same.trans new⟩)

theorem Tables.nodup_names_drop {tables : Tables}
    (names : (tables.catalogue.map Partition.name).Nodup) (partition : Partition) :
    ((tables.drop partition).catalogue.map Partition.name).Nodup :=
  names.sublist (List.filter_sublist.map _)

/-- The catalogue lists each name once at every moment of every run. -/
theorem Runs.nodup_names {regime : Regime} {final : Chronicle} (runs : Runs regime .start final) :
    (final.now.catalogue.map Partition.name).Nodup := by
  refine @Runs.invariant regime (fun log => (log.now.catalogue.map Partition.name).Nodup)
    ?_ ?_ .start final runs List.nodup_nil
  · intro log rows after names _ given
    obtain ⟨stored, -, rfl⟩ := given.upsertEpochs
    rwa [Chronicle.now_record]
  · intro call issues log answer after names given
    rw [Chronicle.now_record]
    cases issues with
    | refresh refreshes =>
      obtain ⟨rolling, rfl⟩ := given.of_refreshes refreshes
      exact names
    | @fold granularity folds =>
      cases folds with
      | look looks => rwa [given.of_looks looks]
      | ensure epoch =>
        rw [given.ensurePartition.2]
        exact Tables.nodup_names_ensure names _
      | fold epoch =>
        cases granularity with
        | hourly =>
          rcases given.foldHour with ⟨-, -, rfl⟩ | ⟨last, rows, -, -, -, -, -, rfl⟩ <;> exact names
        | daily =>
          rcases given.foldDay with ⟨-, -, rfl⟩ | ⟨first, last, rows, -, -, -, -, -, -, rfl⟩ <;>
            exact names
    | reclaim reclaims =>
      cases reclaims with
      | look looks => rwa [given.of_looks looks]
      | drop epoch =>
        rw [given.dropPartition.2]
        exact Tables.nodup_names_drop names _

/-- Runs leave rows that folds have written. -/
theorem Runs.wrote {regime : Regime} {final : Chronicle} (runs : Runs regime .start final) :
    regime.layout.Wrote final.now where
  rows := fun row held => (runs.sound.rows row held).2
  names := runs.nodup_names

/-! ### What a drop deletes -/

namespace BucketLayout

variable {layout : BucketLayout} {granularity : Granularity}

/-- Where dates decide, the chain starts in the year 0 or later and the calendar has not ended
by this epoch. -/
def DatedUpTo (layout : BucketLayout) (granularity : Granularity) (stop : Nat) : Prop :=
  granularity = .daily → layout.clock.FromYearZero ∧ layout.clock.InCalendar stop

theorem DatedUpTo.of_le {stop later : Nat} (dated : layout.DatedUpTo granularity later)
    (before : stop ≤ later) : layout.DatedUpTo granularity stop :=
  fun daily => ⟨(dated daily).1, (dated daily).2.of_le _ before⟩

/-- A partition inside the calendar covers the day of an epoch exactly when it holds the epoch,
also when that epoch is past the end of the calendar. -/
theorem covers_iff_of_inCalendar (years : layout.clock.FromYearZero) {epoch other : Nat}
    (dated : layout.clock.InCalendar (layout.partitionRangeAt .daily epoch).stop) :
    ((layout.days (layout.partitionRangeAt .daily epoch)).start.textKey ≤
          (layout.clock.dayOf other).textKey ∧
        (layout.clock.dayOf other).textKey <
          (layout.days (layout.partitionRangeAt .daily epoch)).stop.textKey) ↔
      (layout.partitionRangeAt .daily epoch).start ≤ other ∧
        other < (layout.partitionRangeAt .daily epoch).stop := by
  have start := layout.clock.number_dayOf (layout.partitionRangeAt .daily epoch).start
  have stop := layout.clock.number_dayOf_of_inCalendar dated
  have last := layout.clock.number_dayOf (layout.partitionRangeAt .daily epoch).stop
  have here := layout.clock.number_dayOf other
  rw [mem_partitionRangeAt_daily_iff, days, years.textKey_le_iff, years.textKey_lt_iff]
  omega

/-- Partitions inside the calendar are known by their names. -/
theorem partitionAt_eq_of_name {epoch other : Nat}
    (dated : layout.DatedUpTo granularity (layout.partitionRangeAt granularity epoch).stop)
    (otherDated : layout.DatedUpTo granularity (layout.partitionRangeAt granularity other).stop)
    (same : (layout.partitionAt granularity other).name =
      (layout.partitionAt granularity epoch).name) :
    layout.partitionAt granularity other = layout.partitionAt granularity epoch := by
  cases granularity with
  | hourly => exact congrArg Partition.hourly (Partition.hourly_name_inj.mp same)
  | daily =>
    have numbers := number_stop_of_name same
    rw [layout.clock.number_dayOf_of_inCalendar (dated rfl).2,
      layout.clock.number_dayOf_of_inCalendar (otherDated rfl).2] at numbers
    exact partitionAt_daily_eq_of_stop (by omega)

theorem Writes.start_nonneg {row : PartitionedRow} (writes : layout.Writes row) :
    0 ≤ row.start := by
  cases row with
  | hourly row =>
    obtain ⟨epoch, same⟩ := writes
    show 0 ≤ row.start
    omega
  | daily row =>
    obtain ⟨epoch, same, -⟩ := writes
    show 0 ≤ row.start
    omega

end BucketLayout

theorem Tables.Holds.of_drop {tables : Tables} {partition : Partition} {row : PartitionedRow}
    (held : (tables.drop partition).Holds row) : tables.Holds row := by
  cases row with
  | hourly row =>
    cases partition with
    | hourly range => exact (mem_hourly_drop.mp held).1
    | daily range days => exact held
  | daily row =>
    cases partition with
    | hourly range => exact held
    | daily range days => exact (mem_daily_drop.mp held).1

/-- A drop deletes the rows that lie in its partition and no others, where the dates of days
decide the same as their epochs. -/
theorem Tables.holds_drop_iff_of_dates {layout : BucketLayout} {granularity : Granularity}
    {tables : Tables} {row : PartitionedRow} {epoch : Nat} (writes : layout.Writes row)
    (dates : granularity = .daily → ∀ day, row = .daily day →
      ((layout.days (layout.partitionRangeAt .daily epoch)).start.textKey ≤ day.day.textKey ∧
          day.day.textKey < (layout.days (layout.partitionRangeAt .daily epoch)).stop.textKey ↔
        (layout.partitionRangeAt .daily epoch).start ≤ day.start.toNat ∧
          day.start.toNat < (layout.partitionRangeAt .daily epoch).stop)) :
    (tables.drop (layout.partitionAt granularity epoch)).Holds row ↔
      tables.Holds row ∧ layout.partitionOf row ≠ layout.partitionAt granularity epoch := by
  have nonneg := writes.start_nonneg
  cases row with
  | hourly row =>
    cases granularity with
    | hourly =>
      have start : 0 ≤ row.start := nonneg
      refine mem_hourly_drop.trans (and_congr_right fun _ => not_congr ?_)
      show _ ↔ layout.partitionAt .hourly row.start.toNat = _
      rw [layout.partitionAt_eq_iff]
      omega
    | daily => exact (and_iff_left nofun).symm
  | daily row =>
    cases granularity with
    | hourly => exact (and_iff_left nofun).symm
    | daily =>
      refine mem_daily_drop.trans (and_congr_right fun _ => not_congr ?_)
      exact (dates rfl row rfl).trans layout.partitionAt_eq_iff.symm

theorem Tables.holds_drop_iff {layout : BucketLayout} {granularity : Granularity}
    {tables : Tables} {row : PartitionedRow} {epoch : Nat}
    (dated : layout.DatedUpTo granularity (layout.partitionRangeAt granularity epoch).stop)
    (writes : layout.Writes row) :
    (tables.drop (layout.partitionAt granularity epoch)).Holds row ↔
      tables.Holds row ∧ layout.partitionOf row ≠ layout.partitionAt granularity epoch := by
  refine holds_drop_iff_of_dates writes ?_
  rintro rfl row rfl
  obtain ⟨other, start, day⟩ := writes
  obtain ⟨years, inside⟩ := dated rfl
  rw [day, start, Int.toNat_natCast]
  exact layout.covers_iff_of_inCalendar years inside

/-- In sound tables the dates of stored rows decide, however far the partition goes. -/
theorem Tables.Sound.holds_drop_iff {layout : BucketLayout} {granularity : Granularity}
    {tables : Tables} (sound : tables.Sound layout) (years : layout.clock.FromYearZero)
    {epoch : Nat} {row : PartitionedRow} (held : tables.Holds row) :
    (tables.drop (layout.partitionAt granularity epoch)).Holds row ↔
      layout.partitionOf row ≠ layout.partitionAt granularity epoch := by
  refine (holds_drop_iff_of_dates (sound.rows row held).2 ?_).trans (and_iff_right held)
  rintro rfl row rfl
  obtain ⟨other, start, day, beforeLast⟩ := sound.covered years held
  rw [day] at beforeLast ⊢
  rw [start, Int.toNat_natCast]
  exact BucketLayout.covers_dayOf_iff years beforeLast

/-- A drop of a catalogued partition removes one entry, and another drop none, whichever entries
are counted: those of its name are all counted or all left out. -/
theorem Tables.countP_catalogue_drop {tables : Tables}
    (names : (tables.catalogue.map Partition.name).Nodup) {partition : Partition}
    {counts : Partition → Bool} {mark : Bool}
    (alike : ∀ entry : Partition, entry.name = partition.name → counts entry = mark) :
    (tables.drop partition).catalogue.countP counts +
        (if tables.hasPartition partition.name then mark.toNat else 0) =
      tables.catalogue.countP counts := by
  have general (entries : List Partition) (names : (entries.map Partition.name).Nodup) :
      (entries.filter (·.name ≠ partition.name)).countP counts +
        (if entries.any (·.name = partition.name) then mark.toNat else 0) =
          entries.countP counts := by
    induction entries with
    | nil => rfl
    | cons entry rest inductionHypothesis =>
      obtain ⟨fresh, names⟩ := List.nodup_cons.mp names
      have counted := inductionHypothesis names
      by_cases same : entry.name = partition.name
      · have absent : rest.any (·.name = partition.name) = false := by
          rw [List.any_eq_false]
          intro other member equal
          exact fresh (List.mem_map.mpr ⟨other, member, (of_decide_eq_true equal).trans same.symm⟩)
        rw [absent] at counted
        rw [List.countP_cons, alike entry same, ← counted]
        cases mark <;> simp [same]
      · simp only [List.any_cons, same, decide_false, Bool.false_or] at counted ⊢
        rw [List.filter_cons_of_pos (by simpa using same), List.countP_cons, List.countP_cons]
        omega
  exact general tables.catalogue names

theorem Tables.length_catalogue_drop {tables : Tables}
    (names : (tables.catalogue.map Partition.name).Nodup) (partition : Partition) :
    (tables.drop partition).catalogue.length +
        (if tables.hasPartition partition.name then 1 else 0) = tables.catalogue.length := by
  have alike : ∀ entry : Partition, entry.name = partition.name →
      (fun _ => true) entry = true := fun _ _ => rfl
  have counted := countP_catalogue_drop names alike
  rwa [List.countP_true] at counted

/-! ### How long a walk is and how it can end -/

namespace Dialogue

variable {Call : Type} {Answer : Call → Type} {Result Next : Type}

/-- Whatever it is answered, a dialogue comes after so many calls to a result that is
possible. -/
def Comes (possible : Result → Prop) : Nat → Dialogue Call Answer Result → Prop
  | _, .done result => possible result
  | 0, .ask _ _ => False
  | limit + 1, .ask _ resume => ∀ answer, (resume answer).Comes possible limit

theorem comes_done {possible : Result → Prop} {result : Result} (holds : possible result)
    (limit : Nat) : (done result : Dialogue Call Answer Result).Comes possible limit := by
  cases limit <;> exact holds

theorem Comes.mono {possible : Result → Prop} {dialogue : Dialogue Call Answer Result}
    {limit more : Nat} (comes : dialogue.Comes possible limit) (le : limit ≤ more) :
    dialogue.Comes possible more := by
  induction dialogue generalizing limit more with
  | done result =>
    have holds : possible result := by cases limit <;> exact comes
    exact comes_done holds more
  | ask call resume inductionHypothesis =>
    cases limit with
    | zero => exact comes.elim
    | succ limit =>
      obtain ⟨more, rfl⟩ : ∃ rest, more = rest + 1 := ⟨more - 1, by omega⟩
      exact fun answer => inductionHypothesis answer (comes answer) (by omega)

theorem Comes.bind {middle : Result → Prop} {possible : Next → Prop}
    {dialogue : Dialogue Call Answer Result} {next : Result → Dialogue Call Answer Next}
    {first rest : Nat} (begins : dialogue.Comes middle first)
    (goesOn : ∀ result, middle result → (next result).Comes possible rest) :
    (dialogue.bind next).Comes possible (first + rest) := by
  induction dialogue generalizing first with
  | done result =>
    have holds : middle result := by cases first <;> exact begins
    exact (goesOn result holds).mono (Nat.le_add_left _ _)
  | ask call resume inductionHypothesis =>
    cases first with
    | zero => exact begins.elim
    | succ first =>
      rw [Nat.succ_add]
      exact fun answer => inductionHypothesis answer (begins answer)

end Dialogue

namespace BucketLayout

variable {layout : BucketLayout} {granularity : Granularity} {boundary : Nat}

/-- Ways for a walk to end: with a count, or with the failed drop of a partition that ends by
the boundary. -/
def WalkEnds {Result : Type} (layout : BucketLayout) (granularity : Granularity)
    (boundary : Nat) : Except Failure Result → Prop
  | .ok _ => True
  | .error failure => ∃ epoch cause,
      (layout.partitionRangeAt granularity epoch).stop ≤ boundary ∧
      failure = .error (.bucket "drop_partition" (layout.partitionRangeAt granularity epoch) cause)

/-- A partition is there when its width, its epoch and its end are words. -/
theorem partitionFor_eq_ok_iff {epoch : Nat} {partition : Partition} :
    layout.partitionFor granularity epoch = .ok partition ↔
      layout.partitionSpan granularity < wordLimit ∧
        epoch + layout.shift granularity < wordLimit ∧
        (epoch + layout.shift granularity) / layout.partitionSpan granularity *
            layout.partitionSpan granularity + layout.partitionSpan granularity < wordLimit ∧
        partition = layout.partitionAt granularity epoch := by
  constructor
  · intro ok
    have same := layout.partitionFor_eq_ok ok
    unfold partitionFor at ok
    cases found : layout.partitionRange granularity epoch with
    | error cause => rw [found] at ok; cases ok
    | ok range =>
      obtain ⟨word, aligned⟩ := layout.partitionRange_eq_ok_iff.mp found
      obtain ⟨shifted, ended, -⟩ := alignedRange_eq_ok_iff.mp aligned
      exact ⟨word, shifted, ended, same⟩
  · rintro ⟨word, shifted, ended, rfl⟩
    have found : layout.partitionRange granularity epoch =
        .ok (layout.partitionRangeAt granularity epoch) :=
      layout.partitionRange_eq_ok_iff.mpr
        ⟨word, alignedRange_eq_ok_iff.mpr ⟨shifted, ended, rfl⟩⟩
    unfold partitionFor
    rw [found]
    cases granularity <;> rfl

/-- Epochs before one that has a partition have theirs. -/
theorem partitionFor_ok_of_le {epoch later : Nat} {partition : Partition}
    (ok : layout.partitionFor granularity later = .ok partition) (before : epoch ≤ later) :
    layout.partitionFor granularity epoch = .ok (layout.partitionAt granularity epoch) := by
  obtain ⟨word, shifted, ended, -⟩ := partitionFor_eq_ok_iff.mp ok
  have floored : (epoch + layout.shift granularity) / layout.partitionSpan granularity *
        layout.partitionSpan granularity ≤
      (later + layout.shift granularity) / layout.partitionSpan granularity *
        layout.partitionSpan granularity :=
    Nat.mul_le_mul_right _ (Nat.div_le_div_right (by omega))
  exact partitionFor_eq_ok_iff.mpr ⟨word, by omega, by omega, rfl⟩

/-- Every epoch of a partition that is there has that partition. -/
theorem partitionFor_ok_of_mem {epoch other : Nat} {partition : Partition}
    (ok : layout.partitionFor granularity epoch = .ok partition)
    (after : partition.range.start ≤ other) (before : other < partition.range.stop) :
    layout.partitionFor granularity other = .ok partition := by
  obtain ⟨word, shifted, ended, rfl⟩ := partitionFor_eq_ok_iff.mp ok
  rw [range_partitionAt] at after before
  have quotient := (EpochRange.mem_aligned_iff (layout.partitionSpan_pos granularity) epoch
    other).mp ⟨after, before⟩
  refine partitionFor_eq_ok_iff.mpr ⟨word, ?_, ?_,
    (layout.partitionAt_eq_iff.mpr ⟨after, before⟩).symm⟩
  · unfold partitionRangeAt EpochRange.aligned at before
    dsimp only at before
    omega
  · rw [quotient]
    exact ended

theorem comes_reclaimAt {candidate : Nat} {partition : Partition}
    (found : layout.partitionFor granularity candidate = .ok partition)
    (met : List EpochRange) (dropped : Nat) :
    (layout.reclaimAt granularity boundary candidate met dropped).run.Comes
      (layout.WalkEnds granularity boundary) 1 := by
  unfold reclaimAt
  rw [found]
  obtain rfl := layout.partitionFor_eq_ok found
  show Dialogue.Comes _ 1 (ExceptT.run (if _ then _ else _))
  rw [range_partitionAt]
  split
  · rename_i expired
    rintro (error | existed)
    · exact ⟨candidate, error, expired.1, by rw [range_partitionAt]⟩
    · cases existed <;> trivial
  · trivial

/-- A walk makes one call for each width that fits below its candidate, and one more. -/
theorem comes_reclaimFrom {candidate : Nat} {partition : Partition}
    (found : layout.partitionFor granularity candidate = .ok partition) (oldest : Nat)
    (met : List EpochRange) (dropped : Nat) :
    (layout.reclaimFrom granularity boundary oldest candidate met dropped).run.Comes
      (layout.WalkEnds granularity boundary) (candidate / layout.width granularity + 1) := by
  have positive := layout.width_pos granularity
  induction candidate using Nat.strongRecOn generalizing met dropped partition with
  | ind candidate inductionHypothesis =>
    rw [reclaimFrom, Nat.add_comm]
    refine (comes_reclaimAt found met dropped).bind fun outcome ends => ?_
    cases outcome with
    | error failure =>
      have fails : layout.WalkEnds granularity boundary (.error failure : Except Failure Nat) :=
        ends
      exact Dialogue.comes_done fails _
    | ok pair =>
      show Dialogue.Comes _ _ (ExceptT.run (if _ then _ else _))
      split
      · exact Dialogue.comes_done trivial _
      · rename_i goesOn
        have shorter : candidate / layout.width granularity =
            (candidate - layout.width granularity) / layout.width granularity + 1 :=
          Nat.div_eq_sub_div positive (by omega)
        rw [shorter]
        exact inductionHypothesis _ (by omega) (partitionFor_ok_of_le found (by omega)) _ _

/-! ### What a walk leaves -/

/-- The tables after are those before without some partitions that ended by the boundary. -/
structure Without (layout : BucketLayout) (granularity : Granularity) (boundary : Nat)
    (gone : List Partition) (before after : Tables) : Prop where
  /-- Only expired partitions are gone. -/
  expired : ∀ partition ∈ gone, ∃ epoch, partition = layout.partitionAt granularity epoch ∧
    (layout.partitionRangeAt granularity epoch).stop ≤ boundary
  /-- The epoch table is as it was. -/
  epochs : after.epochs = before.epochs
  /-- The trailing window is as it was. -/
  rolling : after.rolling = before.rolling
  /-- The table of the other granularity is as it was. -/
  otherRows : (granularity = .daily → after.hourly = before.hourly) ∧
    (granularity = .hourly → after.daily = before.daily)
  /-- The rows that are left are those that lie in other partitions. -/
  rows : ∀ row, after.Holds row ↔ before.Holds row ∧ layout.partitionOf row ∉ gone
  /-- The entries that are left are those with other names. -/
  entries : after.catalogue =
    before.catalogue.filter fun entry => entry.name ∉ gone.map Partition.name

namespace Without

variable {gone : List Partition} {before after : Tables}

theorem refl (tables : Tables) : layout.Without granularity boundary [] tables tables where
  expired := fun _ none => absurd none List.not_mem_nil
  epochs := rfl
  rolling := rfl
  otherRows := ⟨fun _ => rfl, fun _ => rfl⟩
  rows := fun _ => (and_iff_left List.not_mem_nil).symm
  entries := by simp

theorem drop (without : layout.Without granularity boundary gone before after)
    (wrote : layout.Wrote before) (dated : layout.DatedUpTo granularity boundary) {epoch : Nat}
    (expired : (layout.partitionRangeAt granularity epoch).stop ≤ boundary) :
    layout.Without granularity boundary (layout.partitionAt granularity epoch :: gone) before
      (after.drop (layout.partitionAt granularity epoch)) where
  expired := by
    intro partition member
    rcases List.mem_cons.mp member with rfl | old
    · exact ⟨epoch, rfl, expired⟩
    · exact without.expired partition old
  epochs := (Tables.epochs_drop _ _).trans without.epochs
  rolling := by
    rw [← without.rolling]
    cases granularity <;> rfl
  otherRows := by
    constructor
    · rintro rfl
      exact without.otherRows.1 rfl
    · rintro rfl
      exact without.otherRows.2 rfl
  rows := by
    intro row
    have within := dated.of_le expired
    constructor
    · intro held
      obtain ⟨old, outside⟩ := (without.rows row).mp held.of_drop
      have apart := ((Tables.holds_drop_iff within (wrote.rows row old)).mp held).2
      exact ⟨old, fun member => (List.mem_cons.mp member).elim apart outside⟩
    · rintro ⟨old, outside⟩
      obtain ⟨apart, others⟩ := not_or.mp fun either => outside (List.mem_cons.mpr either)
      exact (Tables.holds_drop_iff within (wrote.rows row old)).mpr
        ⟨(without.rows row).mpr ⟨old, others⟩, apart⟩
  entries := by
    show after.catalogue.filter _ = _
    rw [without.entries, List.filter_filter]
    refine List.filter_congr fun entry _ => ?_
    simp

theorem nodup_names (without : layout.Without granularity boundary gone before after)
    (wrote : layout.Wrote before) : (after.catalogue.map Partition.name).Nodup := by
  rw [without.entries]
  exact wrote.names.sublist (List.filter_sublist.map _)

end Without

variable {regime : Regime} {before : Tables}

/-- The tables are those before without some expired partitions, and these were counted. -/
def CountedOut (layout : BucketLayout) (granularity : Granularity) (boundary : Nat)
    (before : Tables) (count : Nat) (log : Chronicle) : Prop :=
  (∃ gone, layout.Without granularity boundary gone before log.now) ∧
    count + log.now.catalogue.length = before.catalogue.length

theorem keeps_countedOut_reclaimAt (wrote : layout.Wrote before)
    (dated : layout.DatedUpTo granularity boundary) (candidate : Nat) (met : List EpochRange)
    (dropped : Nat) :
    (layout.reclaimAt granularity boundary candidate met dropped).Keeps regime.quiet
      (fun log => ∃ gone, layout.Without granularity boundary gone before log.now)
      (layout.CountedOut granularity boundary before dropped)
      (fun result log => layout.CountedOut granularity boundary before result.2 log) := by
  refine Procedure.keeps_compute_bind (fun _ held => held.1) fun partition found => ?_
  obtain rfl := layout.partitionFor_eq_ok found
  rw [range_partitionAt]
  split
  · rename_i expired
    refine Procedure.keeps_bind
      (fun existed log => layout.CountedOut granularity boundary before
        (if existed then dropped + 1 else dropped) log)
      (Procedure.keeps_askFor (regime.stable_quiet _) (fun _ held => held.1) ?_) fun existed => ?_
    · rintro log existed after ⟨⟨gone, without⟩, counted⟩ given
      obtain ⟨rfl, rfl⟩ := given.dropPartition
      unfold CountedOut
      rw [Chronicle.now_record]
      refine ⟨⟨_, without.drop wrote dated expired.1⟩, ?_⟩
      have less := Tables.length_catalogue_drop (without.nodup_names wrote)
        (layout.partitionAt granularity candidate)
      split at less <;> simp_all only [Bool.false_eq_true, if_true, if_false] <;> omega
    · cases existed <;> exact Procedure.keeps_pure fun _ held => held
  · exact Procedure.keeps_pure fun _ held => held

theorem keeps_countedOut_reclaimFrom (wrote : layout.Wrote before)
    (dated : layout.DatedUpTo granularity boundary) (oldest candidate : Nat)
    (met : List EpochRange) (dropped : Nat) :
    (layout.reclaimFrom granularity boundary oldest candidate met dropped).Keeps regime.quiet
      (fun log => ∃ gone, layout.Without granularity boundary gone before log.now)
      (layout.CountedOut granularity boundary before dropped)
      (fun count log => layout.CountedOut granularity boundary before count log) := by
  have positive := layout.width_pos granularity
  induction candidate using Nat.strongRecOn generalizing met dropped with
  | ind candidate inductionHypothesis =>
    rw [reclaimFrom]
    refine Procedure.keeps_bind _ (keeps_countedOut_reclaimAt wrote dated candidate met dropped)
      fun result => ?_
    obtain ⟨last, count⟩ := result
    dsimp only
    split
    · exact Procedure.keeps_pure fun _ held => held
    · exact inductionHypothesis _ (by omega) last count

/-! ### Safety -/

/-- What reclaiming may do to the tables of a granularity, up to a boundary. -/
structure Reclaimed (layout : BucketLayout) (granularity : Granularity) (boundary : Nat)
    (before after : Tables) : Prop where
  /-- The epoch table is as it was. -/
  epochs : after.epochs = before.epochs
  /-- The trailing window is as it was. -/
  rolling : after.rolling = before.rolling
  /-- The table of the other granularity is as it was. -/
  otherRows : (granularity = .daily → after.hourly = before.hourly) ∧
    (granularity = .hourly → after.daily = before.daily)
  /-- The catalogue of the other granularity is as it was. -/
  otherEntries : after.catalogue.filter (·.granularity ≠ granularity) =
    before.catalogue.filter (·.granularity ≠ granularity)
  /-- No row is written. -/
  oldRows : ∀ row, after.Holds row → before.Holds row
  /-- No entry is made. -/
  oldEntries : after.catalogue.Sublist before.catalogue
  /-- A row that is gone lay in a partition that had ended by the boundary. -/
  removed : ∀ row, before.Holds row → ¬after.Holds row →
    row.granularity = granularity ∧ (layout.partitionOf row).range.stop ≤ boundary
  /-- A row whose bucket ends after the boundary is still there. -/
  unended : ∀ row, before.Holds row → boundary < (layout.bucketOf row).stop → after.Holds row
  /-- An entry that is gone had the name of a partition that had ended by the boundary. -/
  removedEntries : ∀ entry ∈ before.catalogue, entry ∉ after.catalogue →
    ∃ epoch, entry.name = (layout.partitionAt granularity epoch).name ∧
      (layout.partitionRangeAt granularity epoch).stop ≤ boundary
  /-- A partition that had ended is as it was, or its rows and its entry are gone. -/
  together : ∀ epoch, (layout.partitionRangeAt granularity epoch).stop ≤ boundary →
    ((∀ row, layout.partitionOf row = layout.partitionAt granularity epoch →
        (after.Holds row ↔ before.Holds row)) ∧
      ∀ entry, entry.name = (layout.partitionAt granularity epoch).name →
        (entry ∈ after.catalogue ↔ entry ∈ before.catalogue)) ∨
    ((∀ row, after.Holds row → layout.partitionOf row ≠ layout.partitionAt granularity epoch) ∧
      ∀ entry ∈ after.catalogue, entry.name ≠ (layout.partitionAt granularity epoch).name)

/-- The name of a partition of the layout tells the granularity. -/
theorem granularity_eq_of_name {entry : Partition} {epoch : Nat}
    (same : entry.name = (layout.partitionAt granularity epoch).name) :
    entry.granularity = granularity := by
  rw [Partition.granularity_eq_of_name same, granularity_partitionAt]

namespace Without

variable {gone : List Partition} {before after : Tables}

/-- An expired partition that is not gone shares no name with one that is. -/
theorem name_not_mem (without : layout.Without granularity boundary gone before after)
    (dated : layout.DatedUpTo granularity boundary) {epoch : Nat}
    (expired : (layout.partitionRangeAt granularity epoch).stop ≤ boundary)
    (kept : layout.partitionAt granularity epoch ∉ gone) :
    (layout.partitionAt granularity epoch).name ∉ gone.map Partition.name := by
  intro named
  obtain ⟨partition, member, same⟩ := List.mem_map.mp named
  obtain ⟨other, rfl, otherExpired⟩ := without.expired partition member
  rw [partitionAt_eq_of_name (dated.of_le expired) (dated.of_le otherExpired) same] at member
  exact kept member

/-- A name that is gone is the name of an expired partition. -/
theorem expired_of_name (without : layout.Without granularity boundary gone before after)
    {entry : Partition} (named : entry.name ∈ gone.map Partition.name) :
    ∃ epoch, entry.name = (layout.partitionAt granularity epoch).name ∧
      (layout.partitionRangeAt granularity epoch).stop ≤ boundary := by
  obtain ⟨partition, member, same⟩ := List.mem_map.mp named
  obtain ⟨epoch, rfl, expired⟩ := without.expired partition member
  exact ⟨epoch, same.symm, expired⟩

/-- A row that is lost lay in an expired partition. -/
theorem expired_of_lost (without : layout.Without granularity boundary gone before after)
    {row : PartitionedRow} (held : before.Holds row) (lost : ¬after.Holds row) :
    row.granularity = granularity ∧ (layout.partitionOf row).range.stop ≤ boundary := by
  have member : layout.partitionOf row ∈ gone := by
    by_contra outside
    exact lost ((without.rows row).mpr ⟨held, outside⟩)
  obtain ⟨epoch, same, expired⟩ := without.expired _ member
  have granularities := congrArg Partition.granularity same
  rw [partitionOf, granularity_partitionAt, granularity_partitionAt] at granularities
  rw [same, range_partitionAt]
  exact ⟨granularities, expired⟩

theorem mem_catalogue_iff (without : layout.Without granularity boundary gone before after)
    (entry : Partition) :
    entry ∈ after.catalogue ↔ entry ∈ before.catalogue ∧ entry.name ∉ gone.map Partition.name := by
  rw [without.entries, List.mem_filter, decide_eq_true_eq]

/-- The entries of the other granularity stay. -/
theorem otherEntries (without : layout.Without granularity boundary gone before after) :
    after.catalogue.filter (·.granularity ≠ granularity) =
      before.catalogue.filter (·.granularity ≠ granularity) := by
  rw [without.entries, List.filter_filter]
  refine List.filter_congr fun entry _ => ?_
  by_cases other : entry.granularity = granularity
  · simp [other]
  · have stays : entry.name ∉ gone.map Partition.name := fun named =>
      (without.expired_of_name named).elim fun epoch ended =>
        other (granularity_eq_of_name ended.1)
    simp only [stays, not_false_eq_true, decide_true, Bool.and_true]

theorem reclaimed (without : layout.Without granularity boundary gone before after)
    (dated : layout.DatedUpTo granularity boundary) :
    layout.Reclaimed granularity boundary before after where
  epochs := without.epochs
  rolling := without.rolling
  otherRows := without.otherRows
  otherEntries := without.otherEntries
  oldRows := fun row held => ((without.rows row).mp held).1
  oldEntries := by
    rw [without.entries]
    exact List.filter_sublist
  removed := fun _ => without.expired_of_lost
  unended := by
    intro row held late
    by_contra lost
    obtain ⟨rfl, expired⟩ := without.expired_of_lost held lost
    rw [partitionOf, range_partitionAt] at expired
    have within := layout.stop_bucketAt_le_stop_partition row.granularity row.start.toNat
    unfold bucketOf at late
    omega
  removedEntries := by
    intro entry member lost
    refine without.expired_of_name ?_
    by_contra stays
    exact lost ((without.mem_catalogue_iff entry).mpr ⟨member, stays⟩)
  together := by
    intro epoch expired
    by_cases member : layout.partitionAt granularity epoch ∈ gone
    · refine Or.inr ⟨fun row held same => ?_, fun entry held same => ?_⟩
      · exact ((without.rows row).mp held).2 (same ▸ member)
      · exact ((without.mem_catalogue_iff entry).mp held).2 (same ▸ List.mem_map_of_mem member)
    · refine Or.inl ⟨fun row same => ?_, fun entry same => ?_⟩
      · rw [without.rows, same]
        exact and_iff_left member
      · rw [without.mem_catalogue_iff, same]
        exact and_iff_left (without.name_not_mem dated expired member)

end Without

/-- Reclaiming is safe, on any tables that folds have written and for any oldest bucket. It
ends, after one call for each bucket below the boundary and one more at most, with a count or
with a failed drop, and either way the tables are those before without some partitions that
had ended. A count is the number of entries that are gone. -/
theorem reclaimExpired_reclaimed {oldest : Nat} {top : Partition} {log final : Chronicle}
    {outcome : Except Failure Nat} (found : layout.partitionFor granularity boundary = .ok top)
    (dated : layout.DatedUpTo granularity boundary) (wrote : layout.Wrote log.now)
    (ends : (layout.reclaimExpired granularity boundary oldest).Ends regime.quiet log outcome
      final) :
    (layout.reclaimExpired granularity boundary oldest).run.Comes
        (layout.WalkEnds granularity boundary) (boundary / layout.width granularity + 1) ∧
      layout.Reclaimed granularity boundary log.now final.now ∧
      ∀ count, outcome = .ok count →
        count + final.now.catalogue.length = log.now.catalogue.length := by
  refine ⟨comes_reclaimFrom found oldest [] 0, ?_⟩
  have kept := keeps_countedOut_reclaimFrom wrote dated oldest boundary [] 0
    ⟨⟨[], .refl _⟩, Nat.zero_add _⟩ ends
  cases outcome with
  | ok count =>
    obtain ⟨⟨gone, without⟩, counted⟩ := kept
    refine ⟨without.reclaimed dated, fun number same => ?_⟩
    cases same
    exact counted
  | error failure =>
    obtain ⟨gone, without⟩ := kept
    exact ⟨without.reclaimed dated, nofun⟩

end BucketLayout

namespace HalfReclaimed

/-- A chain that begins at eight in the morning, with three epochs to a day and partitions of
two days. -/
def layout : BucketLayout :=
  .ofNumbers ⟨1704096000, 0⟩ 4800 6 1 30 2 (by decide)

/-- Hours are kept for long and days for ever. -/
def retention : RetentionPolicy := ⟨100, none⟩

/-- A validator is seen in epochs 0 and 12, so that the partition between those of the two days
has no rows. Then no row of a day can be deleted any more. -/
def party : EmbeddedStore × Chronicle :=
  Act.playAll layout retention
    [.supply [⟨0, 7, .none⟩], .fold, .pass, .supply [⟨12, 7, .none⟩], .fold, .pass,
      .place [⟨.rows .daily, .delete, none⟩]] (.fresh, .start)

theorem runs_party : Runs (.free layout) .start party.2 ∧ party.2.now = party.1.tables :=
  Act.runs_playAll trivial .none rfl ⟨trivial, trivial, trivial⟩

/-- The outcome of a reclaim up to epoch 11, and the store after it. -/
def reclaiming : Except Failure Nat × EmbeddedStore × Chronicle :=
  (layout.reclaimExpired .daily 11 0).runOn party.1 party.2

/-- The walk drops the partition without rows and fails to drop the one below it. -/
theorem evaluated :
    reclaiming.1 = .error (.error (.bucket "drop_partition" ⟨0, 5⟩ (.database .injected))) ∧
      layout.partitionAt .daily 5 ∈ party.2.now.catalogue ∧
      layout.partitionAt .daily 5 ∉ reclaiming.2.2.now.catalogue ∧
      layout.partitionAt .daily 0 ∈ reclaiming.2.2.now.catalogue := by
  decide +kernel

theorem reclaim_ends :
    (layout.reclaimExpired .daily 11 0).Ends (Regime.free layout).quiet party.2 reclaiming.1
      reclaiming.2.2 := Procedure.ends_runOn _ runs_party.2 rfl

end HalfReclaimed

open HalfReclaimed in
/-- A reclaim that fails half-way has dropped one expired partition whole and left the other. -/
theorem reclaimExpired_reclaimed_half_way :
    layout.partitionFor .daily 11 = .ok (layout.partitionAt .daily 11) ∧
      layout.DatedUpTo .daily 11 ∧ layout.Wrote party.2.now ∧
      reclaiming.1 = .error (.error (.bucket "drop_partition" ⟨0, 5⟩ (.database .injected))) ∧
      layout.partitionAt .daily 5 ∉ reclaiming.2.2.now.catalogue ∧
      layout.partitionAt .daily 0 ∈ reclaiming.2.2.now.catalogue ∧
      layout.Reclaimed .daily 11 party.2.now reclaiming.2.2.now := by
  have found : layout.partitionFor .daily 11 = .ok (layout.partitionAt .daily 11) := rfl
  have dated : layout.DatedUpTo .daily 11 := fun _ =>
    ⟨by show (0 : Int) ≤ _; decide, by decide⟩
  have wrote : layout.Wrote party.2.now := runs_party.1.wrote
  exact ⟨found, dated, wrote, evaluated.1, evaluated.2.2.1, evaluated.2.2.2,
    (BucketLayout.reclaimExpired_reclaimed found dated wrote reclaim_ends).2.1⟩

end EpochRollup
