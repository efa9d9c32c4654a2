/-!
# Understudy.Glob.Pattern

Wildcard patterns. A `?` stands for one character, a `*` for any characters, brackets for one
character inside or (after a `!`) outside some ranges, and `**` between separators for any number of
directories. A wildcard between brackets stands for itself, which is how a text is escaped. What is
wrong with a text that is no pattern is said with the place where it shows.
-/

namespace Understudy.Glob

/-- What is wrong with a pattern. -/
inductive Fault.Cause
  /-- A bracket that opens no range. -/
  | range
  /-- Two stars that are not alone between separators. -/
  | recursion
  /-- Three stars or more in a row. -/
  | stars
  deriving Repr, DecidableEq

/-- A fault of a pattern and the place where it shows, as a count of characters. -/
structure Fault where
  position : Nat
  cause : Fault.Cause
  deriving Repr, DecidableEq

def Fault.Cause.message : Fault.Cause → String
  | range => "invalid range pattern"
  | recursion => "recursive wildcards must form a single path component"
  | stars => "wildcards are either regular \x60*\x60 or recursive \x60**\x60"

/-- The description of a fault. -/
def Fault.message (f : Fault) : String :=
  "Pattern syntax error near position " ++ toString f.position ++ ": " ++ f.cause.message

/-- A range of characters, both ends included. -/
structure Range where
  first : Char
  last : Char
  deriving Repr, DecidableEq

/-- A piece of a pattern. -/
inductive Token
  /-- A character that stands for itself. -/
  | char (c : Char)
  /-- Any one character. -/
  | anyChar
  /-- Any characters. -/
  | anyText
  /-- Any number of directories. -/
  | anyDirectories
  | inside (ranges : List Range)
  | outside (ranges : List Range)
  deriving Repr, DecidableEq

/-- A pattern, as its pieces. -/
abbrev Pattern := List Token

/-- The ranges that stand between brackets: `a-z` is one, any other character is one by itself. -/
def ranges : List Char → List Range
  | a :: '-' :: b :: rest => ⟨a, b⟩ :: ranges rest
  | c :: rest => ⟨c, c⟩ :: ranges rest
  | [] => []

/-- Splits what follows an opening bracket into the text of the ranges, which is not empty, and what
follows the closing bracket. -/
def bracketed? : List Char → Option (List Char × List Char)
  | [] => none
  | first :: rest =>
    if rest.contains ']' then
      some (first :: rest.takeWhile (· ≠ ']'), (rest.dropWhile (· ≠ ']')).tail)
    else none

/-- Reads what follows an opening bracket. -/
def range? : List Char → Option (Token × List Char)
  | '!' :: rest => (bracketed? rest).map fun (text, rest) => (.outside (ranges text), rest)
  | rest => (bracketed? rest).map fun (text, rest) => (.inside (ranges text), rest)

theorem length_of_bracketed? {cs text rest : List Char} (h : bracketed? cs = some (text, rest)) :
    rest.length < cs.length := by
  cases cs with
  | nil => simp [bracketed?] at h
  | cons c cs =>
    simp only [bracketed?] at h
    split at h
    · simp only [Option.some.injEq, Prod.mk.injEq] at h
      rw [← h.2, List.length_tail, List.length_cons]
      have := (List.dropWhile_sublist (l := cs) (· ≠ ']')).length_le
      omega
    · simp at h

theorem length_of_range? {cs rest : List Char} {token : Token}
    (h : range? cs = some (token, rest)) : rest.length < cs.length := by
  unfold range? at h
  split at h <;> simp only [Option.map_eq_some_iff, Prod.mk.injEq] at h <;>
    obtain ⟨⟨text, tail⟩, h, -, rfl⟩ := h
  · exact Nat.lt_succ_of_lt (length_of_bracketed? h)
  · exact length_of_bracketed? h

/-- Reads a pattern from a place, given the character before it. Two stars are alone between
separators if none or a separator precedes and follows them; the separator after them is part of
the piece. -/
def parseFrom (place : Nat) (before : Option Char) (cs : List Char) : Except Fault Pattern :=
  match cs with
  | [] => .ok []
  | '?' :: rest => return .anyChar :: (← parseFrom (place + 1) (some '?') rest)
  | '*' :: '*' :: '*' :: _ => .error ⟨place + 2, .stars⟩
  | '*' :: '*' :: rest =>
    if before = none ∨ before = some '/' then
      match rest with
      | [] => .ok [.anyDirectories]
      | '/' :: rest => return .anyDirectories :: (← parseFrom (place + 3) (some '/') rest)
      | _ :: _ => .error ⟨place + 2, .recursion⟩
    else .error ⟨place - 1, .recursion⟩
  | '*' :: rest => return .anyText :: (← parseFrom (place + 1) (some '*') rest)
  | '[' :: rest =>
    match h : range? rest with
    | some (token, tail) =>
      have : tail.length < rest.length := length_of_range? h
      return token :: (← parseFrom (place + 1 + (rest.length - tail.length)) (some ']') tail)
    | none => .error ⟨place, .range⟩
  | c :: rest => return .char c :: (← parseFrom (place + 1) (some c) rest)
termination_by cs.length

/-- Reads a pattern. -/
def parse (text : List Char) : Except Fault Pattern := parseFrom 0 none text

/-- The pattern that stands for a text alone: wildcards and brackets are put between brackets. -/
def escape (text : List Char) : List Char :=
  text.flatMap fun c => if c = '?' ∨ c = '*' ∨ c = '[' ∨ c = ']' then ['[', c, ']'] else [c]

/-- Whether a character lies in one of some ranges. -/
def inRanges (ranges : List Range) (c : Char) : Bool :=
  ranges.any fun r => Nat.ble r.first.toNat c.toNat && Nat.ble c.toNat r.last.toNat

/-- Whether a piece that stands for one character stands for this one. -/
def Token.admits (c : Char) : Token → Bool
  | char d => c == d
  | anyChar => true
  | inside ranges => inRanges ranges c
  | outside ranges => !inRanges ranges c
  | anyText | anyDirectories => false

/-- Whether a test holds of some end of a text. -/
def anyTail (test : List Char → Bool) : List Char → Bool
  | [] => test []
  | c :: rest => test (c :: rest) || anyTail test rest

namespace Pattern

/-- Whether a pattern stands for a name, in which no separator occurs. -/
def covers : Pattern → List Char → Bool
  | [], name => name.isEmpty
  | .anyText :: pattern, name | .anyDirectories :: pattern, name => anyTail (covers pattern) name
  | token :: pattern, c :: name => token.admits c && covers pattern name
  | _ :: _, [] => false

/-- The text that a pattern without wildcards stands for. -/
def literal? : Pattern → Option (List Char)
  | [] => some []
  | .char c :: pattern => (literal? pattern).map (c :: ·)
  | _ :: _ => none

/-- Whether a pattern stands for any number of directories. -/
def isRecursive (pattern : Pattern) : Bool := pattern.contains .anyDirectories

end Pattern

end Understudy.Glob
