/-! Instants and their texts in the form of RFC 3339, in universal time. The clock itself is read
outside of the library; whatever depends on the time takes an instant. -/

namespace TypeSketch

structure Instant where
  nanos : Nat
  deriving DecidableEq, Inhabited, Repr

structure CivilDate where
  year : Nat
  month : Nat
  day : Nat
  deriving DecidableEq, Repr

/-- The date a number of days after the start of 1970. Years are counted from March on, so that the
leap day comes last, and in eras of four centuries. -/
def CivilDate.ofDays (days : Nat) : CivilDate :=
  let z := days + 719468
  let era := z / 146097
  let day := z % 146097
  let year := (day - day / 1460 + day / 36524 - day / 146096) / 365
  let rest := day - (365 * year + year / 4 - year / 100)
  let m := (5 * rest + 2) / 153
  let month := if m < 10 then m + 3 else m - 9
  { year := year + era * 400 + (if month ≤ 2 then 1 else 0)
    month
    day := rest - (153 * m + 2) / 5 + 1 }

def padded (width n : Nat) : String :=
  let digits := (toString n).toList
  String.ofList (List.replicate (width - digits.length) '0' ++ digits)

def CivilDate.yearText (d : CivilDate) : String :=
  if d.year < 10000 then padded 4 d.year else "+" ++ toString d.year

namespace Instant

def date (t : Instant) : CivilDate :=
  .ofDays (t.nanos / 1000000000 / 86400)

def secondsText (t : Instant) : String :=
  let d := t.date
  let s := t.nanos / 1000000000 % 86400
  d.yearText ++ "-" ++ padded 2 d.month ++ "-" ++ padded 2 d.day ++ "T"
    ++ padded 2 (s / 3600) ++ ":" ++ padded 2 (s / 60 % 60) ++ ":" ++ padded 2 (s % 60)

def milliText (t : Instant) : String :=
  t.secondsText ++ "." ++ padded 3 (t.nanos / 1000000 % 1000) ++ "Z"

def text (t : Instant) : String :=
  let n := t.nanos % 1000000000
  let fraction :=
    if n = 0 then ""
    else if n % 1000000 = 0 then "." ++ padded 3 (n / 1000000)
    else if n % 1000 = 0 then "." ++ padded 6 (n / 1000)
    else "." ++ padded 9 n
  t.secondsText ++ fraction ++ "Z"

end Instant
end TypeSketch
