/-
This file maps epochs to wall-clock time. A chain clock has a genesis instant, a
slot length and a number of slots per epoch; the length of an epoch divides a day,
so that a UTC day holds a whole number of epochs. The structure carries these facts, and
that the chain starts in the calendar: a clock that exists is a clock that the checks of
`ChainClock.new` accepted.
-/

import EpochRollup.Word
import EpochRollup.Calendar

namespace EpochRollup

/-- Why chain timing parameters are refused. -/
inductive TimingFault where
  /-- The genesis timestamp lies outside the calendar. -/
  | genesisOutOfRange (timestamp : Int)
  /-- A slot has no length. -/
  | emptySlot
  /-- An epoch has no slots. -/
  | emptyEpoch
  /-- The length of an epoch in seconds leaves the word. -/
  | epochTooLong
  /-- The length of an epoch does not divide a day. -/
  | unevenEpoch (seconds : Nat)
deriving DecidableEq, Repr

/-- The reason a fault gives. -/
def TimingFault.reason : TimingFault → String
  | .genesisOutOfRange timestamp =>
    "invalid genesis timestamp " ++ toString timestamp ++ ": timestamp was not in range"
  | .emptySlot => "seconds_per_slot must be > 0"
  | .emptyEpoch => "slots_per_epoch must be > 0"
  | .epochTooLong => "seconds per epoch overflows u64"
  | .unevenEpoch seconds =>
    "seconds per epoch (" ++ toString seconds ++ ") must evenly divide a day"

/-- Chain clock mapping epoch indices to wall-clock time from genesis parameters. -/
structure ChainClock where
  /-- Start of epoch 0. -/
  genesis : Instant
  /-- Length of a slot. -/
  secondsPerSlot : Nat
  /-- Slots in one epoch. -/
  slotsPerEpoch : Nat
  /-- The chain starts in the calendar. -/
  genesis_inCalendar : genesis.InCalendar
  /-- An epoch has a length. -/
  epoch_pos : 0 < secondsPerSlot * slotsPerEpoch
  /-- An epoch divides a day. -/
  epoch_dvd_day : secondsPerDay % (secondsPerSlot * slotsPerEpoch) = 0
deriving DecidableEq

namespace ChainClock

/-- Why the length of an epoch is refused, if it is. The first parameter that is refused is
named. -/
def lengthFault? (secondsPerSlot slotsPerEpoch : Nat) : Option TimingFault :=
  if secondsPerSlot = 0 then
    some .emptySlot
  else if slotsPerEpoch = 0 then
    some .emptyEpoch
  else if wordLimit ≤ secondsPerSlot * slotsPerEpoch then
    some .epochTooLong
  else if secondsPerDay % (secondsPerSlot * slotsPerEpoch) = 0 then
    none
  else
    some (.unevenEpoch (secondsPerSlot * slotsPerEpoch))

theorem of_lengthFault?_eq_none {secondsPerSlot slotsPerEpoch : Nat}
    (accepted : lengthFault? secondsPerSlot slotsPerEpoch = none) :
    0 < secondsPerSlot * slotsPerEpoch ∧
      secondsPerDay % (secondsPerSlot * slotsPerEpoch) = 0 := by
  unfold lengthFault? at accepted
  split at accepted
  · cases accepted
  · rename_i slot
    split at accepted
    · cases accepted
    · rename_i epoch
      split at accepted
      · cases accepted
      · split at accepted
        · rename_i divides
          exact ⟨Nat.mul_pos (Nat.pos_of_ne_zero slot) (Nat.pos_of_ne_zero epoch), divides⟩
        · cases accepted

/-- A clock from a genesis instant of the calendar. -/
def new (genesis : Instant) (inside : genesis.InCalendar) (secondsPerSlot slotsPerEpoch : Nat) :
    Except TimingFault ChainClock :=
  match accepted : lengthFault? secondsPerSlot slotsPerEpoch with
  | some fault => .error fault
  | none => .ok
    { genesis
      secondsPerSlot
      slotsPerEpoch
      genesis_inCalendar := inside
      epoch_pos := (of_lengthFault?_eq_none accepted).1
      epoch_dvd_day := (of_lengthFault?_eq_none accepted).2 }

/-- A clock from a genesis timestamp in seconds since 1970-01-01. -/
def ofTimestamp (timestamp : Int) (secondsPerSlot slotsPerEpoch : Nat) :
    Except TimingFault ChainClock :=
  if inside : Instant.InCalendar ⟨timestamp, 0⟩ then
    new ⟨timestamp, 0⟩ inside secondsPerSlot slotsPerEpoch
  else
    .error (.genesisOutOfRange timestamp)

/-- Length of an epoch. -/
def secondsPerEpoch (clock : ChainClock) : Nat := clock.secondsPerSlot * clock.slotsPerEpoch

/-- Number of epochs in one UTC day. -/
def epochsPerDay (clock : ChainClock) : Nat := secondsPerDay / clock.secondsPerEpoch

/-- Wall-clock start of an epoch, held at the end of the calendar. -/
def timeOf (clock : ChainClock) (epoch : Nat) : Instant :=
  clock.genesis.later (epoch * clock.secondsPerEpoch)

/-- UTC calendar day on which an epoch starts. -/
def dayOf (clock : ChainClock) (epoch : Nat) : CalendarDay := (clock.timeOf epoch).day

/-- Whole epochs between the UTC midnight before genesis and genesis itself. Adding them
to an epoch moves it where the multiples of `epochsPerDay` fall on UTC midnight. -/
def utcOffset (clock : ChainClock) : Nat := clock.genesis.sinceMidnight / clock.secondsPerEpoch

theorem secondsPerEpoch_pos (clock : ChainClock) : 0 < clock.secondsPerEpoch := clock.epoch_pos

theorem secondsPerEpoch_mul_epochsPerDay (clock : ChainClock) :
    clock.secondsPerEpoch * clock.epochsPerDay = secondsPerDay :=
  Nat.mul_div_cancel' (Nat.dvd_of_mod_eq_zero clock.epoch_dvd_day)

theorem epochsPerDay_pos (clock : ChainClock) : 0 < clock.epochsPerDay :=
  Nat.pos_of_ne_zero fun none => by
    have whole := clock.secondsPerEpoch_mul_epochsPerDay
    rw [none, Nat.mul_zero] at whole
    exact absurd whole (by decide)

end ChainClock

/-- Why a clock cannot be built from a local genesis time. -/
inductive LocalClockFailure where
  /-- The timing parameters are refused. -/
  | timing (fault : TimingFault)
  /-- The local time has no counterpart in UTC. -/
  | aborted (cause : Abort)
deriving DecidableEq, Repr

/-- A clock whose genesis is given as a local time. The genesis is moved to UTC only after
the other parameters are accepted. -/
def ChainClock.ofLocalTime (time : LocalTime) (secondsPerSlot slotsPerEpoch : Nat) :
    Except LocalClockFailure ChainClock :=
  if inside : time.instant.InCalendar then
    (ChainClock.new time.instant inside secondsPerSlot slotsPerEpoch).mapError .timing
  else
    match ChainClock.lengthFault? secondsPerSlot slotsPerEpoch with
    | some fault => .error (.timing fault)
    | none => .error (.aborted .localTime)

end EpochRollup
