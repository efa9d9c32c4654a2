import Understudy.Provider.Basic

/-!
# Understudy.Provider.Seeded

A provider that answers at random: equal seeds give equal answers. The state is a counter that
advances by an odd constant, and a random number is the counter with its bits mixed. Dates lie in
the day before a given moment.
-/

namespace Understudy.Seeded

/-- The counter after one step. -/
def advance (state : UInt64) : UInt64 := state + 0x9E3779B97F4A7C15

/-- Mixes the bits of the counter. -/
def mix (state : UInt64) : UInt64 :=
  let z := (state ^^^ (state >>> 30)) * 0xBF58476D1CE4E5B9
  let z := (z ^^^ (z >>> 27)) * 0x94D049BB133111EB
  z ^^^ (z >>> 31)

/-- A number below a bound, which must not be 0, and the next state. -/
def below (bound : Nat) (state : UInt64) : Nat × UInt64 :=
  let state := advance state
  ((mix state).toNat % bound, state)

/-- An element of a list, or a default if it is empty. -/
def pick (choices : List String) (default : String) (state : UInt64) : String × UInt64 :=
  let (n, state) := below choices.length state
  (choices.getD n default, state)

/-- An integer between two bounds; the lower one if there is no room. -/
def integer (low high : Int) (state : UInt64) : Int × UInt64 :=
  if high ≤ low then (low, state)
  else
    let (n, state) := below (high - low + 1).toNat state
    (low + n, state)

def words : List String := [
  "lorem", "ipsum", "dolor", "sit", "amet", "consectetur", "adipisci", "elit", "sed", "eiusmod",
  "tempora", "incidunt", "labore", "magnam", "aliquam", "quaerat", "voluptatem", "minima", "veniam",
  "nostrum", "ullam", "corporis", "suscipit", "laboriosam", "nisi", "aliquid", "commodi", "quis",
  "autem", "velit", "esse", "nihil", "molestiae", "illum", "fugiat", "quo", "nulla", "pariatur"]

def firstNames : List String := [
  "Ada", "Alma", "Anton", "Bela", "Bruno", "Carla", "Clara", "Dora", "Edgar", "Elsa", "Emil",
  "Flora", "Frida", "Greta", "Hugo", "Ida", "Iris", "Jonas", "Klara", "Leo", "Lina", "Mara", "Nora",
  "Oscar", "Paula", "Rosa", "Ruben", "Selma", "Theo", "Vera"]

def cities : List String := [
  "Ashford", "Brookfield", "Clearwater", "Dunmore", "Eastport", "Fairview", "Glenwood", "Harborton",
  "Kingsbridge", "Lakeside", "Millbrook", "Northfield", "Oakdale", "Pinehurst", "Riverton",
  "Stonebridge", "Thornhill", "Westbury"]

def countries : List String := [
  "Argentina", "Belgium", "Canada", "Denmark", "Egypt", "Finland", "Ghana", "Hungary", "Iceland",
  "Japan", "Kenya", "Latvia", "Mexico", "Norway", "Oman", "Portugal", "Senegal", "Tunisia",
  "Uruguay", "Vietnam"]

def streetNames : List String := [
  "Acacia Avenue", "Birch Lane", "Cedar Court", "Chapel Road", "Elm Street", "Garden Walk",
  "High Street", "Hill Road", "Lake Drive", "Linden Row", "Maple Street", "Mill Lane", "Oak Avenue",
  "Park Place", "River Road", "School Street", "Station Road", "Willow Way"]

/-- The seconds of a day. -/
def daySeconds : Nat := 86400

/-- The provider, for a moment given in seconds from the start of 1970. -/
def provider (now : Int) : Provider UInt64 where
  answer
    | .word, s => pick words "lorem" s
    | .integer low high, s => integer low high s
    | .date, s =>
      let (back, s) := below daySeconds s
      (Date.ofDayNumber ((now - back).fdiv daySeconds), s)
    | .email, s =>
      let (user, s) := pick words "lorem" s
      let (host, s) := pick ["com", "net", "org"] "org" s
      (user ++ "@example." ++ host, s)
    | .streetName, s => pick streetNames "Main Street" s
    | .country, s => pick countries "Norway" s
    | .city, s => pick cities "Springfield" s
    | .firstName, s => pick firstNames "Jane" s
    | .boolean, s =>
      let (n, s) := below 2 s
      (n == 1, s)

end Understudy.Seeded
