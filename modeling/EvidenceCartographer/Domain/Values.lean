import EvidenceCartographer.Python.Json

/-! The values of the domain models that carry behaviour of their own: UUIDs, aware datetimes and
    the string enumerations. -/

namespace EvidenceCartographer.Domain

open Python

/-- A `uuid.UUID`. -/
structure UUID where
  int : Fin (2 ^ 128)
  deriving DecidableEq

/-- `uuid.UUID(int=n)`. -/
def UUID.ofNat (n : Nat) : UUID := ⟨.ofNat _ n⟩

def sampleId : UUID := .ofNat 1

/-- The hexadecimal digits `i, …, i + n - 1` of a UUID, most significant first. -/
def UUID.hex (u : UUID) (i n : Nat) : List Char :=
  (List.range n).map fun j => Nat.digitChar (u.int.val / 16 ^ (31 - (i + j)) % 16)

/-- `str(uuid)`. -/
def UUID.str (u : UUID) : String :=
  .ofList (u.hex 0 8 ++ '-' :: u.hex 8 4 ++ '-' :: u.hex 12 4 ++ '-' :: u.hex 16 4 ++
    '-' :: u.hex 20 12)

def UUID.dump (u : UUID) : Json := .str u.str

/-- The microseconds of a day. -/
def microsPerDay : Nat := 86400 * 1000000

/-- The ordinal of 9999-12-31. -/
def maxOrdinal : Nat := 3652059

/-- An aware `datetime`: its local date as a proleptic Gregorian ordinal, its local time of day, and
    its offset from UTC. -/
structure AwareDatetime where
  ordinal : Nat
  micros : Nat
  utcoffset : Int
  ordinal_pos : 1 ≤ ordinal
  ordinal_le : ordinal ≤ maxOrdinal
  micros_lt : micros < microsPerDay
  offset_lt : utcoffset.natAbs < microsPerDay

/-- Midnight of 2026-07-27, in UTC. -/
def sampleInstant : AwareDatetime :=
  ⟨739824, 0, 0, by decide, by decide, by decide, by decide⟩

/-- A calendar date. -/
structure Date where
  year : Nat
  month : Nat
  day : Nat
  deriving DecidableEq

def daysBeforeMonth : List Nat := [0, 0, 31, 59, 90, 120, 151, 181, 212, 243, 273, 304, 334]

def daysInMonth (leapYear : Bool) (month : Nat) : Nat :=
  if month = 2 then (if leapYear then 29 else 28)
  else if month = 4 ∨ month = 6 ∨ month = 9 ∨ month = 11 then 30 else 31

/-- `date.fromordinal`. -/
def fromOrdinal (ordinal : Nat) : Date :=
  let n := ordinal - 1
  let n400 := n / 146097
  let n := n % 146097
  let n100 := n / 36524
  let n := n % 36524
  let n4 := n / 1461
  let n := n % 1461
  let n1 := n / 365
  let n := n % 365
  let year := n400 * 400 + 1 + n100 * 100 + n4 * 4 + n1
  if n1 = 4 ∨ n100 = 4 then ⟨year - 1, 12, 31⟩
  else
    let leapYear := n1 == 3 && (n4 != 24 || n100 == 3)
    let month := (n + 50) / 32
    let preceding := daysBeforeMonth.getD month 0 + if 2 < month && leapYear then 1 else 0
    if n < preceding then
      let month := month - 1
      ⟨year, month, n - (preceding - daysInMonth leapYear month) + 1⟩
    else ⟨year, month, n - preceding + 1⟩

example : fromOrdinal 739824 = ⟨2026, 7, 27⟩ := by decide

/-- The date of `value.astimezone(UTC)`, or nothing where it falls outside the years 1 to 9999. -/
def AwareDatetime.utcDate (t : AwareDatetime) : Option Date :=
  let utc : Int := (t.ordinal * microsPerDay + t.micros : Nat) - t.utcoffset
  let ordinal := (utc / microsPerDay).toNat
  if 1 ≤ ordinal ∧ ordinal ≤ maxOrdinal then some (fromOrdinal ordinal) else none

/-- `n` in decimal, at least `width` digits. -/
def zeroPad (width n : Nat) : String :=
  let digits := Nat.toDigits 10 n
  .ofList (List.replicate (width - digits.length) '0' ++ digits)

/-- The offset as Pydantic writes it, to the second. -/
def offsetText (utcoffset : Int) : String :=
  let seconds := (utcoffset.natAbs + 500000) / 1000000
  if seconds = 0 then "Z"
  else (if utcoffset < 0 then "-" else "+") ++ zeroPad 2 (seconds / 3600) ++ ":" ++
    zeroPad 2 (seconds / 60 % 60)

/-- The value in Pydantic's JSON mode. -/
def AwareDatetime.text (t : AwareDatetime) : String :=
  let date := fromOrdinal t.ordinal
  let seconds := t.micros / 1000000
  let fraction := t.micros % 1000000
  zeroPad 4 date.year ++ "-" ++ zeroPad 2 date.month ++ "-" ++ zeroPad 2 date.day ++ "T" ++
    zeroPad 2 (seconds / 3600) ++ ":" ++ zeroPad 2 (seconds / 60 % 60) ++ ":" ++
    zeroPad 2 (seconds % 60) ++ (if fraction = 0 then "" else "." ++ zeroPad 6 fraction) ++
    offsetText t.utcoffset

def AwareDatetime.dump (t : AwareDatetime) : Json := .str t.text

inductive SourceName where | met | aic
  deriving DecidableEq

def SourceName.value : SourceName → String
  | .met => "met"
  | .aic => "aic"

inductive ContractOutcome where | accepted | acceptedWithWarnings | quarantined | rejected
  deriving DecidableEq

/-- The members in definition order, as iterating over the enumeration gives them. -/
def ContractOutcome.members : List ContractOutcome :=
  [.accepted, .acceptedWithWarnings, .quarantined, .rejected]

def ContractOutcome.value : ContractOutcome → String
  | .accepted => "accepted"
  | .acceptedWithWarnings => "accepted_with_warnings"
  | .quarantined => "quarantined"
  | .rejected => "rejected"

inductive IngestionMode where | fullSnapshot | incremental
  deriving DecidableEq

def IngestionMode.value : IngestionMode → String
  | .fullSnapshot => "full_snapshot"
  | .incremental => "incremental"

inductive RetrievalStatus where | notRequested | available | cached | unavailable | failed
  deriving DecidableEq

def RetrievalStatus.value : RetrievalStatus → String
  | .notRequested => "not_requested"
  | .available => "available"
  | .cached => "cached"
  | .unavailable => "unavailable"
  | .failed => "failed"

/-- An optional text in JSON mode. -/
def dumpText : Option String → Json
  | none => .null
  | some s => .str s

end EvidenceCartographer.Domain
