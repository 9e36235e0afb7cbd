/-
This file proves that a fold always finds the partition it writes to. A fold ensures the
partition of its bucket first, by name, and the store admits rows by the ranges of its
catalogue. Whatever entry has that name covers the bucket: the name of an hourly partition
tells its epochs, that of a daily one its days, and dates from the year 0 on are written in
their order. Nothing is asked of the catalogue, so that its other entries may come from any
layout, overlap, or be empty.

What is left are statements that fail for other reasons, and these are told apart by how they
fail: `Admitted` goes through a statement as `run_bind_eq_ok` does through one that succeeds.
-/

import EpochRollup.Proofs.Covered
import EpochRollup.Proofs.Gap
import EpochRollup.Proofs.Walk

namespace EpochRollup

/-! ### Statements that are admitted -/

namespace EmbeddedStore

variable {Result : Type} {store : EmbeddedStore} {tables : Tables}

/-- A statement that fails on these tables does not fail for want of a partition. -/
def Admitted (statement : Statement Result) (tables : Tables) : Prop :=
  ∀ error, statement.run tables = .error error → error.isMissingPartition = false

theorem admitted_pure (result : Result) : Admitted (pure result) tables := nofun

theorem admitted_database (cause : DatabaseError) :
    Admitted (throw (.database cause) : Statement Result) tables := by
  intro error failed
  cases failed
  rfl

/-- A statement fails where its first part fails, or where the second one does. -/
theorem Admitted.bind {First : Type} {first : Statement First}
    {next : First → Statement Result} (begins : Admitted first tables)
    (goesOn : ∀ found between, first.run tables = .ok (found, between) →
      Admitted (next found) between) : Admitted (first >>= next) tables := by
  intro error failed
  rw [StateT.run_bind] at failed
  cases ran : first.run tables with
  | error cause =>
    rw [ran] at failed
    cases failed
    exact begins error ran
  | ok pair =>
    rw [ran] at failed
    exact goesOn pair.1 pair.2 ran error failed

theorem admitted_get : Admitted (get : Statement Tables) tables := nofun

theorem admitted_modify (change : Tables → Tables) :
    Admitted (modify change : Statement Unit) tables := nofun

theorem admitted_checkFault (site : FaultSite) (event : RowEvent) (key : Int) :
    Admitted (store.checkFault site event key) tables := by
  unfold checkFault
  split
  · exact admitted_database _
  · exact admitted_pure _

theorem admitted_checkOpen : Admitted store.checkOpen tables := by
  unfold checkOpen
  split
  · exact admitted_database _
  · exact admitted_pure _

theorem admitted_checkMetrics (table : RollupTable) (metrics : Metrics) :
    Admitted (checkMetrics table metrics) tables := by
  unfold checkMetrics
  split
  · exact admitted_pure _
  · exact admitted_database _

theorem admitted_storedEpoch (epoch : Nat) :
    Admitted (liftM (storedEpoch epoch) : Statement Int) tables := by
  unfold storedEpoch
  split
  · exact admitted_pure _
  · intro error failed
    cases failed
    rfl

theorem admitted_mergeValidator (samples : List Sample) (firstKey lastKey validator : Int) :
    Admitted (mergeValidator samples firstKey lastKey validator) tables := by
  unfold mergeValidator
  split
  · exact admitted_pure _
  · exact admitted_database _

theorem admitted_mergeAll (samples : List Sample) (firstKey lastKey : Int) :
    Admitted (mergeAll samples firstKey lastKey) tables := by
  unfold mergeAll
  generalize Sample.validators samples = validators
  induction validators generalizing tables with
  | nil => exact admitted_pure _
  | cons validator rest inductionHypothesis =>
    rw [List.mapM_cons]
    refine Admitted.bind (Admitted.bind (admitted_mergeValidator _ _ _ _) fun _ _ _ =>
      admitted_pure _) fun _ _ _ => ?_
    exact Admitted.bind inductionHypothesis fun _ _ _ => admitted_pure _

/-- Statements are admitted one after the other when each keeps what the next one needs. -/
theorem admitted_forM {Item : Type} {act : Item → Statement Unit} {items : List Item}
    (needs : Tables → Prop) (needed : needs tables)
    (each : ∀ item tables, needs tables → Admitted (act item) tables)
    (keeps : ∀ item tables after, needs tables → (act item).run tables = .ok ((), after) →
      needs after) : Admitted (items.forM act) tables := by
  induction items generalizing tables with
  | nil => exact admitted_pure _
  | cons item rest inductionHypothesis =>
    rw [List.forM_eq_forM, List.forM_cons]
    exact Admitted.bind (each item _ needed) fun _ _ ran =>
      inductionHypothesis (keeps item _ _ needed ran)

theorem admitted_put {Row : Type} {kind : RowKind Row} {row : Row}
    (admits : kind.admits tables row = true) : Admitted (store.put kind row) tables := by
  refine Admitted.bind (admitted_checkFault _ _ _) fun _ _ unfaulted => ?_
  cases checkFault_eq_ok unfaulted
  refine Admitted.bind admitted_get fun _ _ got => ?_
  cases got
  refine Admitted.bind ?_ fun _ _ _ => Admitted.bind (admitted_checkMetrics _ _) fun _ _ _ =>
    admitted_modify _
  rw [admits]
  exact admitted_pure _

/-- Merged rows are written where every row of the fold is admitted. -/
theorem admitted_writeMerged {Row : Type} {kind : RowKind Row} {rowOf : Int → Metrics → Row}
    {samples : List Sample} {firstKey lastKey : Int}
    (admits : ∀ validator metrics, kind.admits tables (rowOf validator metrics) = true) :
    Admitted (store.writeMerged kind samples firstKey lastKey rowOf) tables := by
  refine Admitted.bind (admitted_mergeAll _ _ _) fun merged _ merging => ?_
  obtain ⟨rfl, -⟩ := mapM_merge_eq_ok merging
  refine Admitted.bind ?_ fun _ _ _ => admitted_pure _
  refine admitted_forM
    (fun tables => ∀ validator metrics, kind.admits tables (rowOf validator metrics) = true)
    admits (fun _ _ admits => admitted_put (admits _ _)) fun _ _ _ admits ran => ?_
  obtain ⟨-, kept, -, rfl⟩ := put_eq_ok ran
  intro validator metrics
  rw [kind.admits_withRows]
  exact admits validator metrics

/-- The rows of an hour are written where its start is admitted. -/
theorem admitted_foldHour {start : Int} (stop : Int) (admits : tables.admitsHour start = true) :
    Admitted (store.foldHour start stop) tables := by
  refine Admitted.bind admitted_get fun _ _ got => ?_
  cases got
  dsimp only
  split
  · exact admitted_pure _
  · exact admitted_writeMerged fun _ _ => admits

/-- The rows of a day are written where its date is admitted. -/
theorem admitted_foldDay (start stop : Int) {day : CalendarDay}
    (admits : tables.admitsDay day = true) : Admitted (store.foldDay start stop day) tables := by
  refine Admitted.bind admitted_get fun _ _ got => ?_
  cases got
  dsimp only
  split
  · exact admitted_writeMerged fun _ _ => admits
  · exact admitted_pure _

/-- An operation fails as its statement does. -/
theorem Admitted.answer {call : StoreCall} {error : StoreError}
    (admitted : Admitted (store.statement call) store.tables)
    (failed : (store.answer call).1 = .error error) : error.isMissingPartition = false := by
  unfold EmbeddedStore.answer at failed
  split at failed
  · cases failed
  · rename_i ran
    cases failed
    exact admitted _ ran

end EmbeddedStore

/-! ### Procedures that find their partitions -/

namespace Procedure

variable {Result : Type} {store : EmbeddedStore}

/-- A procedure that fails on a store does not fail for want of a partition. -/
def Finds (procedure : Procedure Result) (store : EmbeddedStore) : Prop :=
  ∀ cause after, procedure.runWith EmbeddedStore.answer store = (.error (.error cause), after) →
    cause.isMissingPartition = false

theorem finds_pure (result : Result) : (pure result : Procedure Result).Finds store := by
  intro cause after failed
  cases failed

/-- A procedure fails where its first part fails, or where the second one does. -/
theorem Finds.bind {First : Type} {first : Procedure First} {next : First → Procedure Result}
    (begins : first.Finds store)
    (goesOn : ∀ result after, first.runWith EmbeddedStore.answer store = (.ok result, after) →
      (next result).Finds after) : (first >>= next).Finds store := by
  intro cause after failed
  rcases ran : first.runWith EmbeddedStore.answer store with ⟨outcome, between⟩
  cases outcome with
  | ok result =>
    rw [runWith_bind ran] at failed
    exact goesOn result between ran cause after failed
  | error failure =>
    rw [runWith_bind_error ran] at failed
    cases failed
    exact begins cause _ ran

theorem finds_compute_bind {First : Type} {computed : Except Abort First}
    {next : First → Procedure Result}
    (goesOn : ∀ first, computed = .ok first → (next first).Finds store) :
    (compute computed >>= next).Finds store := by
  cases computed with
  | ok first => exact goesOn first rfl
  | error cause =>
    intro error after failed
    cases failed

theorem finds_settle {call : StoreCall} {blame : StoreError → RollupError}
    (tells : ∀ error, (blame error).isMissingPartition = error.isMissingPartition)
    (admitted : EmbeddedStore.Admitted (store.statement call) store.tables) :
    Finds (ExceptT.mk do return settle blame (← Dialogue.call call)) store := by
  intro cause after failed
  obtain ⟨settled, -⟩ := Prod.mk.inj (show (settle blame (store.answer call).1, _) = _ from failed)
  cases reply : (store.answer call).1 with
  | ok answer =>
    rw [reply] at settled
    cases settled
  | error error =>
    rw [reply] at settled
    cases settled
    rw [tells]
    exact admitted.answer reply

theorem finds_ask {operation : String} {call : StoreCall}
    (admitted : EmbeddedStore.Admitted (store.statement call) store.tables) :
    (ask operation call).Finds store := finds_settle (fun _ => rfl) admitted

theorem finds_askFor {operation : String} {range : EpochRange} {call : StoreCall}
    (admitted : EmbeddedStore.Admitted (store.statement call) store.tables) :
    (askFor operation range call).Finds store := finds_settle (fun _ => rfl) admitted

/-- A procedure that comes back has come through its first part. -/
theorem exists_of_runWith_bind {First : Type} {first : Procedure First}
    {next : First → Procedure Result} {result : Result} {after : EmbeddedStore}
    (ran : (first >>= next).runWith EmbeddedStore.answer store = (.ok result, after)) :
    ∃ found between, first.runWith EmbeddedStore.answer store = (.ok found, between) ∧
      (next found).runWith EmbeddedStore.answer between = (.ok result, after) := by
  rcases begun : first.runWith EmbeddedStore.answer store with ⟨outcome, between⟩
  cases outcome with
  | ok found =>
    rw [runWith_bind begun] at ran
    exact ⟨found, between, rfl, ran⟩
  | error failure =>
    rw [runWith_bind_error begun] at ran
    cases ran

theorem runWith_compute_eq_ok {computed : Except Abort Result} {result : Result}
    {after : EmbeddedStore}
    (ran : (compute computed).runWith EmbeddedStore.answer store = (.ok result, after)) :
    computed = .ok result ∧ after = store := by
  cases computed with
  | ok value =>
    cases ran
    exact ⟨rfl, rfl⟩
  | error cause => cases ran

/-- What has been answered has been given. -/
theorem given_of_runWith_settle {call : StoreCall} {blame : StoreError → RollupError}
    {answer : call.Answer} {after : EmbeddedStore}
    (ran : runWith EmbeddedStore.answer (ExceptT.mk do return settle blame (← Dialogue.call call))
      store = (.ok answer, after)) : Given store.tables call answer after.tables := by
  obtain ⟨settled, rfl⟩ := Prod.mk.inj (show (settle blame (store.answer call).1, _) = _ from ran)
  refine EmbeddedStore.given_of_answer ?_
  cases reply : (store.answer call).1 with
  | ok other =>
    rw [reply] at settled
    cases settled
    rfl
  | error error =>
    rw [reply] at settled
    cases settled

end Procedure

/-! ### Buckets and the catalogue -/

/-- The catalogue admits the rows of a bucket: its start for hours, its date for days. -/
def Tables.Admits (tables : Tables) (layout : BucketLayout) (granularity : Granularity)
    (bucket : EpochRange) : Prop :=
  match granularity with
  | .hourly => tables.admitsHour bucket.start = true
  | .daily => tables.admitsDay (layout.clock.dayOf bucket.start) = true

namespace BucketLayout

variable {layout : BucketLayout} {granularity : Granularity} {store : EmbeddedStore}

/-- Where dates decide, the chain starts in the year 0 or later and the epoch starts before the
last day of the calendar, which no partition covers. -/
def DatedBeforeLast (layout : BucketLayout) (granularity : Granularity) (epoch : Nat) : Prop :=
  granularity = .daily → layout.clock.FromYearZero ∧
    (layout.clock.dayOf epoch).number < CalendarDay.last.number

theorem DatedBeforeLast.of_le {epoch later : Nat} (dated : layout.DatedBeforeLast granularity later)
    (before : epoch ≤ later) : layout.DatedBeforeLast granularity epoch := fun daily =>
  ⟨(dated daily).1, Int.lt_of_le_of_lt (layout.clock.number_dayOf_mono before) (dated daily).2⟩

/-- A catalogue with the name of the partition of a bucket admits the rows of the bucket,
whichever entry has the name. -/
theorem admits_of_hasPartition {tables : Tables} {bucket : EpochRange}
    (dated : layout.DatedBeforeLast granularity bucket.start)
    (present : tables.hasPartition (layout.partitionAt granularity bucket.start).name = true) :
    tables.Admits layout granularity bucket := by
  have positive := layout.partitionSpan_pos granularity
  have after : (layout.partitionRangeAt granularity bucket.start).start ≤ bucket.start :=
    EpochRange.start_aligned_le positive _
  have before : bucket.start < (layout.partitionRangeAt granularity bucket.start).stop :=
    EpochRange.lt_stop_aligned positive _
  cases granularity with
  | hourly =>
    exact Tables.admitsHour_iff.mpr ⟨_, Tables.hasPartition_hourly_iff.mp present,
      Int.ofNat_le.mpr after, Int.ofNat_lt.mpr before⟩
  | daily =>
    obtain ⟨years, beforeLast⟩ := dated rfl
    obtain ⟨partition, member, same⟩ := Tables.hasPartition_iff.mp present
    cases partition with
    | hourly range => exact absurd same (Partition.hourly_name_ne_daily_name _ _ _)
    | daily range days =>
      obtain rfl := Partition.daily_name_inj.mp same
      exact Tables.admitsDay_iff.mpr ⟨range, _, member,
        (covers_dayOf_iff years beforeLast).mpr ⟨after, before⟩⟩

/-! ### Folds -/

theorem finds_ensurePartition (partition : Partition) :
    (Procedure.ensurePartition partition).Finds store := by
  refine Procedure.finds_askFor ?_
  have ensures : EmbeddedStore.Admitted (do store.checkOpen; store.ensurePartition partition)
      store.tables := by
    refine EmbeddedStore.Admitted.bind EmbeddedStore.admitted_checkOpen fun _ _ _ => ?_
    refine EmbeddedStore.Admitted.bind (EmbeddedStore.admitted_checkFault _ _ _) fun _ _ _ => ?_
    refine EmbeddedStore.Admitted.bind EmbeddedStore.admitted_get fun _ _ _ => ?_
    split
    · exact EmbeddedStore.admitted_pure _
    · exact EmbeddedStore.Admitted.bind (EmbeddedStore.admitted_modify _) fun _ _ _ =>
        EmbeddedStore.admitted_pure _
  cases partition with
  | hourly range =>
    refine EmbeddedStore.Admitted.bind (EmbeddedStore.admitted_storedEpoch _) fun _ _ lifted => ?_
    obtain ⟨-, rfl⟩ := EmbeddedStore.run_lift_eq_ok lifted
    refine EmbeddedStore.Admitted.bind (EmbeddedStore.admitted_storedEpoch _) fun _ _ lifted => ?_
    obtain ⟨-, rfl⟩ := EmbeddedStore.run_lift_eq_ok lifted
    exact ensures
  | daily range days => exact ensures

/-- A bucket whose rows are admitted is folded, or it fails for another reason. -/
theorem finds_foldBucket {bucket : EpochRange}
    (admits : store.tables.Admits layout granularity bucket) :
    (layout.foldBucket granularity bucket).Finds store := by
  have stored {Result : Type} {work : Int → Int → EmbeddedStore.Statement Result}
      (admitted : EmbeddedStore.Admitted (work bucket.start bucket.stop) store.tables) :
      EmbeddedStore.Admitted (do
        let start ← storedEpoch bucket.start
        let stop ← storedEpoch bucket.stop
        store.checkOpen
        work start stop) store.tables := by
    refine EmbeddedStore.Admitted.bind (EmbeddedStore.admitted_storedEpoch _) fun _ _ lifted => ?_
    obtain ⟨start, rfl⟩ := EmbeddedStore.run_lift_eq_ok lifted
    refine EmbeddedStore.Admitted.bind (EmbeddedStore.admitted_storedEpoch _) fun _ _ lifted => ?_
    obtain ⟨stop, rfl⟩ := EmbeddedStore.run_lift_eq_ok lifted
    obtain ⟨-, rfl⟩ := storedEpoch_eq_ok_iff.mp start
    obtain ⟨-, rfl⟩ := storedEpoch_eq_ok_iff.mp stop
    refine EmbeddedStore.Admitted.bind EmbeddedStore.admitted_checkOpen fun _ _ opened => ?_
    cases EmbeddedStore.checkOpen_eq_ok opened
    exact admitted
  cases granularity with
  | hourly => exact Procedure.finds_askFor (stored (EmbeddedStore.admitted_foldHour _ admits))
  | daily => exact Procedure.finds_askFor (stored (EmbeddedStore.admitted_foldDay _ _ admits))

/-- Once the partition of an epoch is ensured, its name is there. -/
theorem hasPartition_of_ensurePartitionFor {epoch : Nat} {result : Partition × Bool}
    {after : EmbeddedStore}
    (ran : (layout.ensurePartitionFor granularity epoch).runWith EmbeddedStore.answer store =
      (.ok result, after)) :
    after.tables.hasPartition (layout.partitionAt granularity epoch).name = true := by
  obtain ⟨partition, _, computed, rest⟩ := Procedure.exists_of_runWith_bind ran
  obtain ⟨found, rfl⟩ := Procedure.runWith_compute_eq_ok computed
  obtain ⟨created, _, ensured, returned⟩ := Procedure.exists_of_runWith_bind rest
  cases returned
  rw [(Procedure.given_of_runWith_settle ensured).ensurePartition.2,
    ← layout.partitionFor_eq_ok found]
  exact Tables.hasPartition_ensure _ _

/-- Folding a bucket finds the partition that it has ensured. -/
theorem finds_aggregate {bucket : EpochRange}
    (dated : layout.DatedBeforeLast granularity bucket.start) :
    (layout.aggregate granularity bucket).Finds store := by
  refine Procedure.Finds.bind ?_ fun pair between ran => ?_
  · exact Procedure.finds_compute_bind fun partition _ =>
      Procedure.Finds.bind (finds_ensurePartition partition) fun _ _ _ => Procedure.finds_pure _
  · exact Procedure.Finds.bind
      (finds_foldBucket (admits_of_hasPartition dated (hasPartition_of_ensurePartitionFor ran)))
      fun _ _ _ => Procedure.finds_pure _

/-- So does the loop of a fold, which goes no further than its last epoch. -/
theorem finds_foldBuckets (latest : Option EpochRange) {last : Nat}
    (dated : layout.DatedBeforeLast granularity last) (remaining candidate : Nat)
    (report : FoldReport)
    (counted : layout.bucketIndex granularity candidate + remaining ≤
      max (layout.bucketIndex granularity last + 1) (layout.bucketIndex granularity candidate)) :
    (layout.foldBuckets granularity latest remaining candidate report).Finds store := by
  induction remaining generalizing candidate report store with
  | zero => exact Procedure.finds_pure _
  | succ remaining inductionHypothesis =>
    refine Procedure.finds_compute_bind fun bucket found =>
      Procedure.finds_compute_bind fun _ _ => ?_
    obtain rfl := layout.bucket_eq_ok found
    have upTo : (layout.bucketAt granularity candidate).start ≤ last :=
      layout.start_bucketAt_le_of_bucketIndex (by omega)
    have next := layout.bucketIndex_stop granularity candidate
    split
    · exact inductionHypothesis _ _ (by omega)
    · exact Procedure.Finds.bind (finds_aggregate (dated.of_le upTo)) fun _ _ _ =>
        Procedure.finds_compute_bind fun _ _ => inductionHypothesis _ _ (by omega)

theorem finds_foldThrough (latest : Option EpochRange) (resume : Nat) {head : Nat}
    (dated : layout.DatedBeforeLast granularity head) :
    (layout.foldThrough granularity latest resume head).Finds store :=
  Procedure.finds_compute_bind fun _ _ => finds_foldBuckets latest dated _ _ _ (by
    unfold bucketsBetween
    omega)

end BucketLayout

/-! ### Operations -/

/-- A call that only looks is never refused for want of a partition. -/
theorem StoreCall.Looks.admitted {call : StoreCall} (looks : call.Looks) (store : EmbeddedStore) :
    EmbeddedStore.Admitted (store.statement call) store.tables := by
  have view {Result : Type} (view : Tables → Result) (tables : Tables) : EmbeddedStore.Admitted
      (do store.checkOpen; return view (← get) : EmbeddedStore.Statement Result) tables :=
    EmbeddedStore.Admitted.bind EmbeddedStore.admitted_checkOpen fun _ _ _ =>
      EmbeddedStore.Admitted.bind EmbeddedStore.admitted_get fun _ _ _ =>
        EmbeddedStore.admitted_pure _
  cases looks with
  | firstHourlyFrom epoch =>
    exact EmbeddedStore.Admitted.bind (EmbeddedStore.admitted_storedEpoch _) fun _ _ _ => view _ _
  | _ => exact view _ _

theorem finds_storedBounds (clock : ChainClock) (bound : Bound) {store : EmbeddedStore} :
    (storedBounds clock bound).Finds store := by
  have look {operation : String} {call : StoreCall} (looks : call.Looks) (store : EmbeddedStore) :
      (Procedure.ask operation call).Finds store := Procedure.finds_ask (looks.admitted store)
  cases bound with
  | lastEpoch => exact look .lastEpoch _
  | firstEpoch => exact look .firstEpoch _
  | lastHourly => exact look .lastHourlyBounds _
  | firstHourly => exact look .firstHourlyEpoch _
  | dayOldHourly =>
    refine Procedure.Finds.bind (look .lastHourlyBounds _) fun head _ _ => ?_
    cases head with
    | none => exact Procedure.finds_pure _
    | some head => exact look (.firstHourlyFrom _) _
  | lastDaily => exact look .lastDailyBounds _
  | firstDaily => exact look .firstDailyEpoch _

namespace BucketLayout

variable {layout : BucketLayout} {store : EmbeddedStore}

theorem finds_foldHours : (layout.foldHours (storedBounds layout.clock)).Finds store := by
  refine Procedure.Finds.bind (finds_storedBounds _ .lastEpoch) fun head _ _ => ?_
  cases head with
  | none => exact Procedure.finds_pure _
  | some head =>
    refine Procedure.Finds.bind (finds_storedBounds _ .lastHourly) fun latest _ _ => ?_
    cases latest with
    | some latest => exact finds_foldThrough _ _ nofun
    | none =>
      exact Procedure.Finds.bind (finds_storedBounds _ .firstEpoch) fun _ _ _ =>
        finds_foldThrough _ _ nofun

theorem finds_foldDays
    (dated : ∀ head, store.tables.head? = some head → layout.DatedBeforeLast .daily head) :
    (layout.foldDays (storedBounds layout.clock)).Finds store := by
  refine Procedure.Finds.bind (finds_storedBounds _ .lastHourly) fun head _ read => ?_
  cases head with
  | none => exact Procedure.finds_pure _
  | some head =>
    refine Procedure.Finds.bind (finds_storedBounds _ .lastDaily) fun latest _ _ => ?_
    refine finds_foldThrough _ _ (dated _ (Tables.head?_of_lastHourly? ?_))
    exact ((Procedure.given_of_runWith_settle read).look fun _ => rfl).2.symm

/-- A fold never fails for want of a partition, whatever the store holds and whatever rows the
fold writes. On a chain that starts in the year 0 or later this is so for each hour and each
day whose epochs start before the last day of the calendar, hence for every fold that goes up
to such an epoch, wherever it resumes, and for the two folds of the engine. -/
theorem fold_finds_partition (years : layout.clock.FromYearZero) (store : EmbeddedStore) :
    (∀ granularity epoch bucket, layout.bucket granularity epoch = .ok bucket →
        (layout.clock.dayOf epoch).number < CalendarDay.last.number →
          (layout.aggregate granularity bucket).Finds store) ∧
      (∀ granularity latest resume head,
        (layout.clock.dayOf head).number < CalendarDay.last.number →
          (layout.foldThrough granularity latest resume head).Finds store) ∧
      (layout.foldHours (storedBounds layout.clock)).Finds store ∧
      ((∀ head, store.tables.head? = some head →
          (layout.clock.dayOf head).number < CalendarDay.last.number) →
        (layout.foldDays (storedBounds layout.clock)).Finds store) := by
  refine ⟨fun granularity epoch bucket found beforeLast => ?_,
    fun granularity latest resume head beforeLast => ?_, finds_foldHours, fun beforeLast => ?_⟩
  · obtain rfl := layout.bucket_eq_ok found
    have dated : layout.DatedBeforeLast granularity epoch := fun _ => ⟨years, beforeLast⟩
    exact finds_aggregate (dated.of_le (layout.start_bucketAt_le granularity epoch))
  · exact finds_foldThrough _ _ fun _ => ⟨years, beforeLast⟩
  · exact finds_foldDays fun head headIs _ => ⟨years, beforeLast head headIs⟩

end BucketLayout

namespace LastDays

/-- A chain of the last three days of the calendar, with three epochs to a day. Each partition
of days goes on past the end of the calendar. -/
def layout : BucketLayout :=
  .ofNumbers ⟨253402041600, 0⟩ 1800 16 2 2 4 (by decide)

/-- The hours of the three days are there, and with them a partition of another layout that
covers none of the days. -/
def store : EmbeddedStore :=
  ((layout.foldHours (storedBounds layout.clock)).runWith EmbeddedStore.answer
    ([.ensurePartition (.daily ⟨0, 3⟩ ⟨layout.clock.dayOf 6, layout.clock.dayOf 0⟩),
      .upsertEpochs [⟨0, 7, .none⟩, ⟨5, 7, .none⟩, ⟨7, 8, .none⟩]].foldl
        (fun store call => (store.answer call).2) .fresh)).2

/-- The same store while no row of validator 7 can be written from epoch 3 on. -/
def faulty : EmbeddedStore := store.place ⟨.rows .daily, .insert, some 3⟩

/-- The day before the last one. -/
def day : EpochRange := ⟨3, 6⟩

/-- The day before the last one is folded. With a fault it fails, but not for want of a
partition. The last day does. -/
theorem evaluated :
    layout.bucket .daily 5 = .ok day ∧
      ((layout.aggregate .daily day).runWith EmbeddedStore.answer store).1 = .ok (1, true) ∧
      ((layout.aggregate .daily day).runWith EmbeddedStore.answer faulty).1 =
        .error (.error (.bucket "fold_day" day (.database .injected))) ∧
      ((layout.aggregate .daily ⟨6, 9⟩).runWith EmbeddedStore.answer store).1 =
        .error (.error (.bucket "fold_day" ⟨6, 9⟩ (.missingPartition
          "no partition of relation validator_dashboard_data_daily found for row"))) := by
  decide +kernel

end LastDays

open LastDays in
/-- Up to the last day of the calendar folds find their partitions, also where they fail. -/
theorem BucketLayout.fold_finds_partition_last_days :
    layout.clock.FromYearZero ∧ layout.bucket .daily 5 = .ok day ∧
      (layout.clock.dayOf 5).number < CalendarDay.last.number ∧
      ((layout.aggregate .daily day).runWith EmbeddedStore.answer faulty).1 =
        .error (.error (.bucket "fold_day" day (.database .injected))) ∧
      (layout.aggregate .daily day).Finds faulty ∧
      ¬(layout.aggregate .daily ⟨6, 9⟩).Finds store := by
  have years : layout.clock.FromYearZero := by show (0 : Int) ≤ _; decide
  have beforeLast : (layout.clock.dayOf 5).number < CalendarDay.last.number := by decide
  obtain ⟨found, -, failed, missed⟩ := evaluated
  refine ⟨years, found, beforeLast, failed,
    (BucketLayout.fold_finds_partition years faulty).1 .daily 5 day found beforeLast,
    fun finds => ?_⟩
  have missing := finds _ _ (Prod.ext missed rfl)
  cases missing

end EpochRollup
