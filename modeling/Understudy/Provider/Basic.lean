/-!
# Understudy.Provider.Basic

Where values come from. A provider answers one draw after another and may keep a state of any type
between them. Dates are among the answers: their written form, and the date of a day counted from
the first day of 1970.
-/

namespace Understudy

/-- A calendar date. The year counts on below 1 through 0 and the negative years. -/
structure Date where
  year : Int
  month : Nat
  day : Nat
  deriving Repr, DecidableEq

namespace Date

/-- The decimal digits of a number, with zeros in front up to a width. -/
def padded (width n : Nat) : String :=
  let digits := toString n
  String.ofList (List.replicate (width - digits.length) '0') ++ digits

/-- The written form of a year: at least four digits, with a sign in front outside 0 to 9999. -/
def yearText (year : Int) : String :=
  if year < 0 then "-" ++ padded 4 year.natAbs
  else if 9999 < year then "+" ++ toString year.natAbs
  else padded 4 year.natAbs

/-- Year, month and day, joined by hyphens. -/
def text (d : Date) : String :=
  yearText d.year ++ "-" ++ padded 2 d.month ++ "-" ++ padded 2 d.day

/-- The date of the day with a given number, where day 0 is the first of January 1970. Years are
counted from March, so that the leap day is the last of its year, within eras of 400 years of
146097 days. -/
def ofDayNumber (n : Int) : Date :=
  let shifted := n + 719468
  let era := shifted.fdiv 146097
  let dayOfEra := (shifted.fmod 146097).toNat
  let yearOfEra := (dayOfEra - dayOfEra / 1460 + dayOfEra / 36524 - dayOfEra / 146096) / 365
  let dayOfYear := dayOfEra - (365 * yearOfEra + yearOfEra / 4 - yearOfEra / 100)
  let monthFromMarch := (5 * dayOfYear + 2) / 153
  let day := dayOfYear - (153 * monthFromMarch + 2) / 5 + 1
  let month := if monthFromMarch < 10 then monthFromMarch + 3 else monthFromMarch - 9
  let year := (yearOfEra : Int) + era * 400 + (if month ≤ 2 then 1 else 0)
  ⟨year, month, day⟩

end Date

/-- A request for one value. -/
inductive Draw
  | word
  /-- An integer between two bounds, both included. -/
  | integer (low high : Int)
  | date
  | email
  | streetName
  | country
  | city
  | firstName
  | boolean
  deriving Repr, DecidableEq

/-- What answers a draw. -/
def Draw.Answer : Draw → Type
  | integer _ _ => Int
  | date => Date
  | boolean => Bool
  | word | email | streetName | country | city | firstName => String

/-- A source of values with states of a given type. -/
structure Provider (σ : Type) where
  answer : (draw : Draw) → σ → draw.Answer × σ

end Understudy
