/-!
# Two representations of time

A wire message carries a `Timestamp`: whole seconds since the epoch and a count of nanoseconds, any
pair of machine integers. It is *normalized* when the nanoseconds make less than a second; an
instant before the epoch then has negative seconds and a positive remainder.

A model holds a `DateTime`: a calendar instant in a bounded range of seconds. Its nanoseconds may
run past one second, which is how a leap second is told from the second after it. The bounds are
part of the type, so that a `DateTime` is always an instant of the calendar. Which second a leap
second follows is not: made from its parts it follows the last second of a minute
(`DateTime.ofParts?`), but the nanoseconds of an instant can also be set later, on any second.

`Timestamp.ofDateTime` never fails and carries a leap second into the next second;
`Timestamp.toDateTime` fails with the timestamp itself when it is not normalized or out of range.
-/

namespace Crosswalk

/-- Nanoseconds in a second. -/
def nanosPerSecond : Nat := 1000000000

/-- Seconds and nanoseconds since the epoch, as carried on the wire. -/
structure Timestamp where
  seconds : Int64
  nanos : Int32
deriving DecidableEq

/-- An instant of the calendar. -/
structure DateTime where
  seconds : Int
  nanos : Nat
  first_le : -8334601228800 ≤ seconds
  le_last : seconds ≤ 8210266876799
  nanos_lt : nanos < 2 * nanosPerSecond
deriving DecidableEq

namespace DateTime

/-- The instant made from these parts, if the calendar has one. A leap second is made at the end of
a minute only. -/
def ofParts? (seconds : Int) (nanos : Nat) : Option DateTime :=
  if h : -8334601228800 ≤ seconds ∧ seconds ≤ 8210266876799 ∧ nanos < 2 * nanosPerSecond ∧
      (nanosPerSecond ≤ nanos → seconds % 60 = 59) then
    some ⟨seconds, nanos, h.1, h.2.1, h.2.2.1⟩
  else none

/-- The start of the epoch. -/
def epoch : DateTime := ⟨0, 0, by decide, by decide, by decide⟩

/-- Whether this is an instant within a leap second. -/
def isLeap (d : DateTime) : Bool := decide (nanosPerSecond ≤ d.nanos)

end DateTime

/-- A timestamp that denotes no calendar instant. -/
structure TimeRangeError where
  timestamp : Timestamp
deriving DecidableEq

namespace TimeRangeError

def message (e : TimeRangeError) : String :=
  s!"timestamp out of range: {e.timestamp.seconds.toInt}s {e.timestamp.nanos.toInt}ns"

end TimeRangeError

namespace Timestamp

/-- The start of the epoch, which is what a timestamp field holds at first. -/
def epoch : Timestamp := ⟨0, 0⟩

/-- Whether the nanoseconds are a proper part of a second. -/
def isNormalized (t : Timestamp) : Bool :=
  decide (0 ≤ t.nanos.toInt ∧ t.nanos.toInt < nanosPerSecond)

/-- The timestamp of an instant. The part of a leap second that runs past the second is carried. -/
def ofDateTime (d : DateTime) : Timestamp where
  seconds := Int64.ofInt (d.seconds + (d.nanos / nanosPerSecond : Nat))
  nanos := Int32.ofNat (d.nanos % nanosPerSecond)

/-- The instant of a normalized timestamp within the range of the calendar. -/
def toDateTime (t : Timestamp) : Except TimeRangeError DateTime :=
  if t.isNormalized then
    match DateTime.ofParts? t.seconds.toInt t.nanos.toInt.toNat with
    | some d => .ok d
    | none => .error ⟨t⟩
  else .error ⟨t⟩

/-- Seconds decide, then nanoseconds. On normalized timestamps this is the order of instants. -/
def compare (a b : Timestamp) : Ordering :=
  (Ord.compare a.seconds.toInt b.seconds.toInt).then (Ord.compare a.nanos.toInt b.nanos.toInt)

instance : Ord Timestamp := ⟨compare⟩

/-- A list in ascending order, where equal timestamps keep their places. -/
def sort (ts : List Timestamp) : List Timestamp :=
  ts.mergeSort fun a b => (compare a b).isLE

/-- The timestamp as a stored document writes it. -/
def toJson (t : Timestamp) : String :=
  s!"\x7b\"seconds\":{t.seconds.toInt},\"nanos\":{t.nanos.toInt}\x7d"

end Timestamp

end Crosswalk
