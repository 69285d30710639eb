import TaskShell.Text.Search
import TaskShell.Number.Double

/-!
# Dates and times

A stamp is a calendar date with a time of day. Stamps are made from fields, with
a check of every range, or from seconds since the epoch, and written in the ISO
form with a choice of separator and precision.
-/

namespace TaskShell.Calendar

open Text

structure Stamp where
  year : Nat
  month : Nat
  day : Nat
  hour : Nat
  minute : Nat
  second : Nat
  micro : Nat
  deriving DecidableEq, Repr, Inhabited

inductive StampFault where
  | year (value : Int)
  | month (value : Int)
  | day (value : Int) (last month year : Nat)
  | hour (value : Int)
  | minute (value : Int)
  | second (value : Int)
  | micro (value : Int)
  | precision
  deriving DecidableEq, Repr

def StampFault.message : StampFault → String
  | year v => s!"year must be in 1..9999, not {v}"
  | month v => s!"month must be in 1..12, not {v}"
  | day v last m y =>
    s!"day {v} must be in range 1..{last} for month {m} in year {y}"
  | hour v => s!"hour must be in 0..23, not {v}"
  | minute v => s!"minute must be in 0..59, not {v}"
  | second v => s!"second must be in 0..59, not {v}"
  | micro v => s!"microsecond must be in 0..999999, not {v}"
  | precision => "Unknown timespec value"

def isLeap (y : Nat) : Bool :=
  y % 4 == 0 && (y % 100 != 0 || y % 400 == 0)

def daysIn (y m : Nat) : Nat :=
  if m == 2 then (if isLeap y then 29 else 28)
  else if m == 4 || m == 6 || m == 9 || m == 11 then 30 else 31

/-- Checks the ranges of all fields of a `Stamp`, the date first. -/
def Stamp.check (y mo d h mi s us : Int) : Except StampFault Stamp :=
  if y < 1 || 9999 < y then .error (.year y)
  else if mo < 1 || 12 < mo then .error (.month mo)
  else
    let last := daysIn y.toNat mo.toNat
    if d < 1 || (last : Int) < d then .error (.day d last mo.toNat y.toNat)
    else if h < 0 || 23 < h then .error (.hour h)
    else if mi < 0 || 59 < mi then .error (.minute mi)
    else if s < 0 || 59 < s then .error (.second s)
    else if us < 0 || 999999 < us then .error (.micro us)
    else .ok ⟨y.toNat, mo.toNat, d.toNat, h.toNat, mi.toNat, s.toNat, us.toNat⟩

/-- The time of numbers in order, from the year on; those that are missing are
zero. -/
def Stamp.ofParts (parts : List Int) : Except StampFault Stamp :=
  let part (i : Nat) : Int := parts.getD i 0
  check (part 0) (part 1) (part 2) (part 3) (part 4) (part 5) (part 6)

/-- The month and day of a day of the year, counted from zero, by trying the
months from `m` on. -/
def monthDay (y : Nat) : Nat → Nat → Nat → Nat × Nat
  | 0, m, n => (m, n + 1)
  | fuel + 1, m, n => if n < daysIn y m then (m, n + 1)
      else monthDay y fuel (m + 1) (n - daysIn y m)

/-- The year and the day of the year of a day counted from the first of January
of the year 1. -/
def yearDay (n : Int) : Int × Nat :=
  let r := (n.fmod 146097).toNat
  let n100 := min 3 (r / 36524)
  let r := r - n100 * 36524
  let n4 := r / 1461
  let r := r % 1461
  let n1 := min 3 (r / 365)
  (n.fdiv 146097 * 400 + (n100 * 100 + n4 * 4 + n1 + 1 : Nat), r - n1 * 365)

def Stamp.ofEpoch (seconds : Int) (micro : Nat) : Except StampFault Stamp :=
  let (y, n) := yearDay (seconds.fdiv 86400 + 719162)
  let rest := (seconds.fmod 86400).toNat
  if y < 1 || 9999 < y then .error (.year y)
  else
    let (m, d) := monthDay y.toNat 11 1 n
    .ok ⟨y.toNat, m, d, rest / 3600, rest / 60 % 60, rest % 60, micro⟩

/-- The integer nearest to a double that is not negative, a tie to the even
one. -/
def roundEven (x : Float) : Nat :=
  let d := Number.Dyadic.ofFloat x
  if 0 ≤ d.exponent then d.mantissa * Nat.pow 2 d.exponent.toNat
  else Number.roundDiv d.mantissa (Nat.pow 2 (-d.exponent).toNat)

/-- The whole seconds of a time in seconds, and the microseconds nearest to the
rest. -/
def splitSeconds (t : Float) : Int × Nat :=
  let whole := Number.truncate t
  let part := roundEven (Float.abs (t - Number.ofInt whole) * 1000000.0)
  let total := whole * 1000000 + (if t < 0 then -(part : Int) else part)
  (total.fdiv 1000000, (total.fmod 1000000).toNat)

def Stamp.ofSeconds (t : Float) : Except StampFault Stamp :=
  let (s, us) := splitSeconds t
  Stamp.ofEpoch s us

inductive Precision where
  /-- To the second, with microseconds unless they are zero. -/
  | auto
  | hours
  | minutes
  | seconds
  | milliseconds
  | microseconds
  deriving DecidableEq, Repr

def Precision.ofName? : String → Option Precision
  | "auto" => some .auto
  | "hours" => some .hours
  | "minutes" => some .minutes
  | "seconds" => some .seconds
  | "milliseconds" => some .milliseconds
  | "microseconds" => some .microseconds
  | _ => none

/-- A number with at least `width` digits. -/
def padded (width n : Nat) : String :=
  padLeft width '0' (toString n)

def Stamp.timeText (t : Stamp) (precision : Precision) : String :=
  let hm := padded 2 t.hour ++ ":" ++ padded 2 t.minute
  let hms := hm ++ ":" ++ padded 2 t.second
  match precision with
  | .hours => padded 2 t.hour
  | .minutes => hm
  | .seconds => hms
  | .milliseconds => hms ++ "." ++ padded 3 (t.micro / 1000)
  | .microseconds => hms ++ "." ++ padded 6 t.micro
  | .auto => if t.micro == 0 then hms else hms ++ "." ++ padded 6 t.micro

def Stamp.iso (t : Stamp) (sep : String) (precision : Precision) : String :=
  padded 4 t.year ++ "-" ++ padded 2 t.month ++ "-" ++ padded 2 t.day ++ sep ++
    t.timeText precision

end TaskShell.Calendar
