/-
This file proves that a store that looks partitions up by name never takes one interval of keys
for another. A name stands for the keys of its partition and for nothing else
(`Partition.name_eq_iff_keys`), so the catalogue can be read as a set of intervals that knows
nothing of names: a partition that is ensured adds its interval, one that is dropped takes its
interval away, and whether a partition was there is whether its interval was.
-/

import Mathlib.Data.Set.Insert
import EpochRollup.Proofs.Covered

namespace EpochRollup

/-! ### Intervals of keys -/

/-- The keys that a partition covers. Where the epochs of a daily partition lie does not
matter. -/
inductive KeyInterval where
  /-- The epochs in which hours start. -/
  | epochs (range : EpochRange)
  /-- The days. -/
  | days (range : DayRange)
deriving DecidableEq, Repr

namespace Partition

/-- The keys of a partition. -/
def keys : Partition → KeyInterval
  | .hourly range => .epochs range
  | .daily _ days => .days days

/-- A partition of hours and a partition of days have no keys in common. -/
theorem granularity_eq_of_keys {left right : Partition} (same : left.keys = right.keys) :
    left.granularity = right.granularity := by
  cases left <;> cases right <;> first | rfl | cases same

/-- A name stands for the keys of its partition. -/
theorem name_eq_iff_keys {left right : Partition} :
    left.name = right.name ↔ left.keys = right.keys := by
  cases left with
  | hourly range =>
    cases right with
    | hourly other => simp [hourly_name_inj, keys]
    | daily other days => simp [hourly_name_ne_daily_name, keys]
  | daily range days =>
    cases right with
    | hourly other => simp [(hourly_name_ne_daily_name other range days).symm, keys]
    | daily other otherDays => simp [daily_name_inj, keys]

end Partition

/-! ### The catalogue as a set of intervals -/

namespace Tables

variable {tables : Tables} {partition : Partition}

/-- The intervals that the catalogue holds. -/
def intervals (tables : Tables) : Set KeyInterval :=
  {keys | ∃ entry ∈ tables.catalogue, entry.keys = keys}

/-- A name is found exactly when the interval is held. -/
theorem hasPartition_iff_keys :
    tables.hasPartition partition.name = true ↔ partition.keys ∈ tables.intervals := by
  rw [hasPartition_iff]
  exact exists_congr fun entry => and_congr_right fun _ => Partition.name_eq_iff_keys

/-- A partition that is ensured adds its interval, and no other. -/
theorem intervals_ensure :
    (tables.ensure partition).intervals = insert partition.keys tables.intervals := by
  ext keys
  constructor
  · rintro ⟨entry, member, rfl⟩
    rcases mem_catalogue_ensure.mp member with old | ⟨rfl, -⟩
    · exact Or.inr ⟨entry, old, rfl⟩
    · exact Or.inl rfl
  · rintro (rfl | ⟨entry, old, rfl⟩)
    · exact hasPartition_iff_keys.mp (hasPartition_ensure tables partition)
    · exact ⟨entry, catalogue_subset_ensure tables partition old, rfl⟩

/-- A partition that is dropped takes its interval away, and no other. -/
theorem intervals_drop :
    (tables.drop partition).intervals = tables.intervals \ {partition.keys} := by
  ext keys
  constructor
  · rintro ⟨entry, member, rfl⟩
    obtain ⟨old, apart⟩ := mem_catalogue_drop.mp member
    exact ⟨⟨entry, old, rfl⟩, fun same => apart (Partition.name_eq_iff_keys.mpr same)⟩
  · rintro ⟨⟨entry, old, rfl⟩, apart⟩
    exact ⟨entry, mem_catalogue_drop.mpr
      ⟨old, fun same => apart (Partition.name_eq_iff_keys.mp same)⟩, rfl⟩

theorem intervals_congr {after : Tables} (same : after.catalogue = tables.catalogue) :
    after.intervals = tables.intervals := by
  unfold intervals
  rw [same]

end Tables

/-! ### Answers by interval -/

namespace StoreCall

/-- The intervals that are held once a call is answered. -/
def intervalsAfter (held : Set KeyInterval) : StoreCall → Set KeyInterval
  | .ensurePartition partition => insert partition.keys held
  | .dropPartition partition => held \ {partition.keys}
  | _ => held

/-- The answer is the one that a catalogue of intervals gives. -/
def AnsweredBy (held : Set KeyInterval) : (call : StoreCall) → call.Answer → Prop
  | .ensurePartition partition, created => created = true ↔ partition.keys ∉ held
  | .dropPartition partition, existed => existed = true ↔ partition.keys ∈ held
  | .partitionExists partition, found => found = true ↔ partition.keys ∈ held
  | _, _ => True

end StoreCall

/-- Replies to calls that a catalogue of intervals gives, one after the other. A call that
fails leaves it as it was. -/
def AnsweredByIntervals (held : Set KeyInterval) : List (Σ call : StoreCall, call.Reply) → Prop
  | [] => True
  | ⟨call, .ok answer⟩ :: rest =>
    call.AnsweredBy held answer ∧ AnsweredByIntervals (call.intervalsAfter held) rest
  | ⟨_, .error _⟩ :: rest => AnsweredByIntervals held rest

namespace Given

variable {tables after : Tables}

/-- An answer is what the intervals of the catalogue give. -/
theorem answeredBy {call : StoreCall} {answer : call.Answer}
    (given : Given tables call answer after) : call.AnsweredBy tables.intervals answer := by
  cases call with
  | ensurePartition partition =>
    have created := given.ensurePartition.1
    change (answer = true ↔ _)
    rw [created, Bool.not_eq_true', ← Bool.not_eq_true, Tables.hasPartition_iff_keys]
  | dropPartition partition =>
    have existed := given.dropPartition.1
    change (answer = true ↔ _)
    rw [existed, Tables.hasPartition_iff_keys]
  | partitionExists partition =>
    obtain ⟨store, ok⟩ := given.run
    have found := (of_look ok).2
    change (answer = true ↔ _)
    rw [found, Tables.hasPartition_iff_keys]
  | _ => trivial

/-- An answer leaves the intervals that its call does. -/
theorem intervals_eq {call : StoreCall} {answer : call.Answer}
    (given : Given tables call answer after) :
    after.intervals = call.intervalsAfter tables.intervals := by
  cases call with
  | upsertEpochs rows =>
    obtain ⟨stored, -, rfl⟩ := given.upsertEpochs
    exact Tables.intervals_congr rfl
  | foldHour bucket =>
    rcases given.foldHour with ⟨-, -, rfl⟩ | ⟨last, rows, -, -, -, -, -, rfl⟩
    · rfl
    · exact Tables.intervals_congr rfl
  | upsertHourly rows =>
    obtain ⟨stored, -, rfl⟩ := given.upsertHourly
    exact Tables.intervals_congr rfl
  | foldDay range day =>
    rcases given.foldDay with ⟨-, -, rfl⟩ | ⟨first, last, rows, -, -, -, -, -, -, rfl⟩
    · rfl
    · exact Tables.intervals_congr rfl
  | replaceRolling start head =>
    obtain ⟨rolling, rfl⟩ := given.of_refreshes (.replace start head)
    exact Tables.intervals_congr rfl
  | clearRolling =>
    rw [given.clearRolling]
    exact Tables.intervals_congr rfl
  | ensurePartition partition =>
    rw [given.ensurePartition.2]
    exact Tables.intervals_ensure
  | dropPartition partition =>
    rw [given.dropPartition.2]
    exact Tables.intervals_drop
  | _ => rw [given.of_reads rfl]; rfl

end Given

namespace EmbeddedStore

/-- The replies of a store to calls that are made one after the other. -/
def replies (store : EmbeddedStore) : List StoreCall → List (Σ call : StoreCall, call.Reply)
  | [] => []
  | call :: rest => ⟨call, (store.answer call).1⟩ :: (store.answer call).2.replies rest

/-- Whatever is asked of a store and whatever fails, it replies as a catalogue of intervals
does. -/
theorem answeredByIntervals_replies (calls : List StoreCall) (store : EmbeddedStore) :
    AnsweredByIntervals store.tables.intervals (store.replies calls) := by
  induction calls generalizing store with
  | nil => trivial
  | cons call rest inductionHypothesis =>
    have later := inductionHypothesis (store.answer call).2
    unfold replies
    rcases store.answer_cases call with ⟨answer, answered, given⟩ | ⟨error, failed⟩
    · rw [given.intervals_eq] at later
      rw [answered]
      exact ⟨given.answeredBy, later⟩
    · rw [failed] at later ⊢
      exact later

end EmbeddedStore

/-- Two partitions share a name exactly when they have one granularity and one interval of
keys. A store that knows partitions by their names alone therefore answers every sequence of
calls as a store that knows them by their intervals. -/
theorem Partition.identified_by_name :
    (∀ left right : Partition, left.name = right.name ↔
      left.granularity = right.granularity ∧ left.keys = right.keys) ∧
      ∀ (store : EmbeddedStore) (calls : List StoreCall),
        AnsweredByIntervals store.tables.intervals (store.replies calls) := by
  refine ⟨fun left right => ?_, fun store calls => store.answeredByIntervals_replies calls⟩
  rw [name_eq_iff_keys]
  exact ⟨fun same => ⟨granularity_eq_of_keys same, same⟩, And.right⟩

end EpochRollup
