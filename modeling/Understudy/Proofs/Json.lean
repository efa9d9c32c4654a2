import Mathlib.Data.List.Basic
import Understudy.Dump

/-!
# Understudy.Proofs.Json

**Reading JSON.** A reader for the whole format, with numerals, all escapes and blanks between any two
tokens, and the proof that it undoes what `Json.text` writes (`Json.read?_text`).

The reader takes one token after another from the front of the text and hands it to a machine with a
stack of open containers (`Reader.step`). Members of an object stay in their order, and a key may come
more than once. The texts that we write are read by one law: from wherever a value is due, reading
its written form is the same as having the value, with the stack and the rest of the text as they were
(`Reader.run_textAt`). It holds for whatever comes behind, so it goes through by induction on the value.
-/

namespace Understudy.Json

/-- A value of the JSON format. -/
inductive Value
  | null
  | bool (b : Bool)
  /-- A number, as it is spelled. -/
  | number (numeral : String)
  | string (s : String)
  | array (elements : List Value)
  /-- Members in order. -/
  | object (members : List (String × Value))

/-! ### Texts -/

/-- The number that a hexadecimal digit stands for. -/
def hexValue? (c : Char) : Option Nat :=
  if '0' ≤ c ∧ c ≤ '9' then some (c.toNat - 48)
  else if 'a' ≤ c ∧ c ≤ 'f' then some (c.toNat - 87)
  else if 'A' ≤ c ∧ c ≤ 'F' then some (c.toNat - 55)
  else none

/-- The number that four hexadecimal digits stand for. -/
def hexCode? (a b c d : Char) : Option Nat := do
  return 4096 * (← hexValue? a) + 256 * (← hexValue? b) + 16 * (← hexValue? c) + (← hexValue? d)

/-- The character that a backslash and the given character stand for. -/
def unescape? (c : Char) : Option Char :=
  if c = '"' ∨ c = '\\' ∨ c = '/' then some c
  else if c = 'b' then some '\x08'
  else if c = 'f' then some '\x0c'
  else if c = 'n' then some '\n'
  else if c = 'r' then some '\r'
  else if c = 't' then some '\t'
  else none

/-- Puts a code in front of the codes that have been read. -/
def withCode (code : Nat) (read : List Nat × List Char) : List Nat × List Char :=
  (code :: read.1, read.2)

/-- Reads from behind the opening quote: the codes of the text, and what follows the closing quote.
The code of a character stands for it, and an escape may give half of a surrogate pair. -/
def readCodes? : List Char → Option (List Nat × List Char)
  | '\\' :: 'u' :: a :: b :: c :: d :: rest =>
    (hexCode? a b c d).bind fun code => (readCodes? rest).map (withCode code)
  | '\\' :: e :: rest =>
    (unescape? e).bind fun c => (readCodes? rest).map (withCode c.toNat)
  | c :: rest =>
    if c = '"' then some ([], rest)
    else if c = '\\' ∨ c.toNat < 32 then none
    else (readCodes? rest).map (withCode c.toNat)
  | [] => none

/-- The characters of some codes. Two halves of a surrogate pair are one character, and a half alone
is none. -/
def ofCodes? : List Nat → Option (List Char)
  | [] => some []
  | code :: rest =>
    if code.isValidChar then (ofCodes? rest).map (Char.ofNat code :: ·)
    else
      match rest with
      | [] => none
      | low :: rest =>
        if code < 0xDC00 ∧ 0xDC00 ≤ low ∧ low < 0xE000 then
          (ofCodes? rest).map (Char.ofNat (0x10000 + (code - 0xD800) * 0x400 + (low - 0xDC00)) :: ·)
        else none

/-! ### Tokens -/

/-- A token of the format. -/
inductive Token
  | openArray
  | closeArray
  | openObject
  | closeObject
  | comma
  | colon
  | null
  | bool (b : Bool)
  | number (numeral : String)
  | string (s : String)
  deriving Repr, DecidableEq

/-- Whether a character may stand between tokens. -/
def isBlank (c : Char) : Bool := c = ' ' || c = '\t' || c = '\n' || c = '\r'

/-- Whether a text is made of digits, one at least. -/
def isDigits (text : List Char) : Bool := !text.isEmpty && text.all Char.isDigit

/-- A text without the sign that it may start with. -/
def dropSign (signs text : List Char) : List Char :=
  if text.head?.any signs.contains then text.tail else text

/-- Whether a text is a numeral: digits with no zero in front, and perhaps a minus sign, a fraction
and an exponent. -/
def isNumeral (text : List Char) : Bool :=
  let (mantissa, exponent) := (dropSign ['-'] text).span fun c => c ≠ 'e' && c ≠ 'E'
  let (whole, fraction) := mantissa.span (· ≠ '.')
  isDigits whole && (whole = ['0'] || whole.head? ≠ some '0')
    && (fraction.isEmpty || isDigits fraction.tail)
    && (exponent.isEmpty || isDigits (dropSign ['+', '-'] exponent.tail))

/-- Whether a character may stand in a numeral. -/
def isNumeralChar (c : Char) : Bool := c.isDigit || ['-', '+', '.', 'e', 'E'].contains c

/-- Reads a string from behind its opening quote. -/
def readString? (text : List Char) : Option (Token × List Char) := do
  let (codes, rest) ← readCodes? text
  return (.string (String.ofList (← ofCodes? codes)), rest)

/-- Reads a numeral, as far as its characters go. -/
def readNumeral? (text : List Char) : Option (Token × List Char) :=
  let numeral := text.takeWhile isNumeralChar
  if isNumeral numeral then
    some (.number (String.ofList numeral), text.dropWhile isNumeralChar)
  else none

/-- Reads a token from the front of a text. -/
def token? : List Char → Option (Token × List Char)
  | '[' :: rest => some (.openArray, rest)
  | ']' :: rest => some (.closeArray, rest)
  | '\x7b' :: rest => some (.openObject, rest)
  | '\x7d' :: rest => some (.closeObject, rest)
  | ',' :: rest => some (.comma, rest)
  | ':' :: rest => some (.colon, rest)
  | '"' :: rest => readString? rest
  | 'n' :: 'u' :: 'l' :: 'l' :: rest => some (.null, rest)
  | 't' :: 'r' :: 'u' :: 'e' :: rest => some (.bool true, rest)
  | 'f' :: 'a' :: 'l' :: 's' :: 'e' :: rest => some (.bool false, rest)
  | text => readNumeral? text

/-! ### The machine -/

namespace Reader

/-- A container that is still open, with what has been read of it. -/
inductive Frame
  | array (elements : List Value)
  /-- The key is that of the member whose value comes next. -/
  | object (members : List (String × Value)) (key : String)

/-- What comes next, within which open containers. -/
inductive State
  /-- A value. -/
  | value (stack : List Frame)
  /-- A value, or the end of the array that has just been opened. -/
  | firstElement (stack : List Frame)
  /-- A key, or the end of the object that has just been opened. -/
  | firstKey (stack : List Frame)
  /-- The key of one more member. -/
  | key (members : List (String × Value)) (stack : List Frame)
  /-- The colon behind a key. -/
  | colon (members : List (String × Value)) (key : String) (stack : List Frame)
  /-- What may follow a value that has just ended. -/
  | done (value : Value) (stack : List Frame)

/-- The token that a value starts with. -/
def start (stack : List Frame) : Token → Option State
  | .null => some (.done .null stack)
  | .bool b => some (.done (.bool b) stack)
  | .number numeral => some (.done (.number numeral) stack)
  | .string s => some (.done (.string s) stack)
  | .openArray => some (.firstElement stack)
  | .openObject => some (.firstKey stack)
  | _ => none

/-- Takes one token. -/
def step : State → Token → Option State
  | .value stack, token => start stack token
  | .firstElement stack, .closeArray => some (.done (.array []) stack)
  | .firstElement stack, token => start (.array [] :: stack) token
  | .firstKey stack, .closeObject => some (.done (.object []) stack)
  | .firstKey stack, .string key => some (.colon [] key stack)
  | .key members stack, .string key => some (.colon members key stack)
  | .colon members key stack, .colon => some (.value (.object members key :: stack))
  | .done value (.array elements :: stack), .comma =>
    some (.value (.array (elements ++ [value]) :: stack))
  | .done value (.array elements :: stack), .closeArray =>
    some (.done (.array (elements ++ [value])) stack)
  | .done value (.object members key :: stack), .comma =>
    some (.key (members ++ [(key, value)]) stack)
  | .done value (.object members key :: stack), .closeObject =>
    some (.done (.object (members ++ [(key, value)])) stack)
  | _, _ => none

end Reader

/-! ### Every token takes up text -/

theorem exists_of_map_withCode {code : Nat} {read : Option (List Nat × List Char)}
    {codes : List Nat} {rest : List Char} (h : read.map (withCode code) = some (codes, rest)) :
    ∃ more, read = some (more, rest) := by
  obtain ⟨⟨more, left⟩, hread, h⟩ := Option.map_eq_some_iff.mp h
  cases h
  exact ⟨more, hread⟩

theorem length_lt_of_readCodes? {text rest : List Char} {codes : List Nat}
    (h : readCodes? text = some (codes, rest)) : rest.length < text.length := by
  fun_induction readCodes? text generalizing codes rest with
  | case1 a b c d text ih =>
      obtain ⟨code, -, h⟩ := Option.bind_eq_some_iff.mp h
      obtain ⟨more, hread⟩ := exists_of_map_withCode h
      have hlt := ih hread
      simp only [List.length_cons]
      omega
  | case2 e text _ ih =>
      obtain ⟨c, -, h⟩ := Option.bind_eq_some_iff.mp h
      obtain ⟨more, hread⟩ := exists_of_map_withCode h
      have hlt := ih hread
      simp only [List.length_cons]
      omega
  | case3 text =>
      cases h
      exact Nat.lt_succ_self _
  | case4 => cases h
  | case5 c text _ _ _ _ ih =>
      obtain ⟨more, hread⟩ := exists_of_map_withCode h
      exact Nat.lt_succ_of_lt (ih hread)
  | case6 => cases h

theorem length_lt_of_readString? {text rest : List Char} {token : Token}
    (h : readString? text = some (token, rest)) : rest.length < text.length := by
  obtain ⟨⟨codes, left⟩, hread, h⟩ := Option.bind_eq_some_iff.mp h
  obtain ⟨chars, -, h⟩ := Option.bind_eq_some_iff.mp h
  cases h
  exact length_lt_of_readCodes? hread

theorem length_lt_of_readNumeral? {text rest : List Char} {token : Token}
    (h : readNumeral? text = some (token, rest)) : rest.length < text.length := by
  rw [readNumeral?] at h
  split_ifs at h with hnumeral
  cases h
  have hne : text.takeWhile isNumeralChar ≠ [] := by
    intro hnil
    rw [hnil] at hnumeral
    exact absurd hnumeral (by decide)
  have hpos := List.length_pos_of_ne_nil hne
  have hlength := congrArg List.length
    (List.takeWhile_append_dropWhile (p := isNumeralChar) (l := text))
  rw [List.length_append] at hlength
  omega

/-- A token takes up some of the text. -/
theorem length_lt_of_token? {text rest : List Char} {token : Token}
    (h : token? text = some (token, rest)) : rest.length < text.length := by
  unfold token? at h
  split at h
  case h_7 => exact Nat.lt_succ_of_lt (length_lt_of_readString? h)
  case h_11 => exact length_lt_of_readNumeral? h
  all_goals
    cases h
    simp only [List.length_cons]
    omega

namespace Reader

/-- Reads a text to its end. -/
def run (text : List Char) (state : State) : Option State :=
  match text with
  | [] => some state
  | c :: rest =>
    if isBlank c then run rest state
    else
      match _h : token? (c :: rest) with
      | none => none
      | some (token, left) => (step state token).bind (run left)
termination_by text.length
decreasing_by
  · exact Nat.lt_succ_self _
  · exact length_lt_of_token? ‹_›

end Reader

/-- Reads a text that holds one value. -/
def read? (text : String) : Option Value :=
  match Reader.run text.toList (.value []) with
  | some (.done value []) => some value
  | _ => none

/-! ### Reading texts -/

theorem hexValue?_hexDigit : ∀ n < 16, hexValue? (hexDigit n) = some n := by decide

theorem hexCode?_hexDigit {n : Nat} (h : n < 256) :
    hexCode? '0' '0' (hexDigit (n / 16)) (hexDigit (n % 16)) = some n := by
  have hzero : hexValue? '0' = some 0 := by decide
  rw [hexCode?, hzero, hexValue?_hexDigit _ (by omega), hexValue?_hexDigit _ (by omega)]
  simp only [Option.pure_def, Option.bind_eq_bind, Option.bind_some, Option.some.injEq]
  omega

/-- A character is read from the way it is written. -/
theorem readCodes?_escape (c : Char) (text : List Char) :
    readCodes? (escape c ++ text) = (readCodes? text).map (withCode c.toNat) := by
  unfold escape
  split_ifs with hquote hbackslash hfeed hreturn htab hbackspace hform hcontrol
  · rw [hquote]; rfl
  · rw [hbackslash]; rfl
  · rw [hfeed]; rfl
  · rw [hreturn]; rfl
  · rw [htab]; rfl
  · rw [hbackspace]; rfl
  · rw [hform]; rfl
  · simp only [List.cons_append, List.nil_append, readCodes?]
    rw [hexCode?_hexDigit (by omega), Option.bind_some]
  · rw [List.singleton_append, readCodes?, if_neg hquote, if_neg (by simp [hbackslash, hcontrol])]
    · exact fun _ _ _ _ _ h => absurd h hbackslash
    · exact fun _ _ h => absurd h hbackslash

theorem readCodes?_flatMap_escape (chars rest : List Char) :
    readCodes? (chars.flatMap escape ++ '"' :: rest) = some (chars.map Char.toNat, rest) := by
  induction chars with
  | nil => rfl
  | cons c chars ih =>
      rw [List.flatMap_cons, List.append_assoc, readCodes?_escape, ih]
      rfl

/-- The codes of characters are no surrogates. -/
theorem ofCodes?_map_toNat (chars : List Char) : ofCodes? (chars.map Char.toNat) = some chars := by
  induction chars with
  | nil => rfl
  | cons c chars ih =>
      have hcons : ofCodes? (c.toNat :: chars.map Char.toNat) =
          (ofCodes? (chars.map Char.toNat)).map (Char.ofNat c.toNat :: ·) := by
        rw [ofCodes?.eq_def]
        exact if_pos c.valid
      rw [List.map_cons, hcons, ih, Option.map_some, Char.ofNat_toNat]

/-! ### Reading tokens -/

/-- Whether a text is read as a token, whatever follows it. -/
structure Token.SpelledBy (token : Token) (s : String) : Prop where
  /-- It does not start with a blank. -/
  head : s.toList.head?.any isBlank = false
  token?_append : ∀ rest, token? (s.toList ++ rest) = some (token, rest)

namespace Token

theorem spelledBy_openArray : openArray.SpelledBy "[" := ⟨rfl, fun _ => rfl⟩

theorem spelledBy_closeArray : closeArray.SpelledBy "]" := ⟨rfl, fun _ => rfl⟩

theorem spelledBy_openObject : openObject.SpelledBy "\x7b" := ⟨rfl, fun _ => rfl⟩

theorem spelledBy_closeObject : closeObject.SpelledBy "\x7d" := ⟨rfl, fun _ => rfl⟩

theorem spelledBy_comma : comma.SpelledBy "," := ⟨rfl, fun _ => rfl⟩

theorem spelledBy_colon : colon.SpelledBy ":" := ⟨rfl, fun _ => rfl⟩

theorem spelledBy_bool (b : Bool) : (bool b).SpelledBy (if b then "true" else "false") := by
  cases b <;> exact ⟨rfl, fun _ => rfl⟩

theorem spelledBy_string (s : String) : (string s).SpelledBy (stringText s) := by
  have htext : (stringText s).toList = '"' :: (s.toList.flatMap escape ++ ['"']) :=
    String.toList_ofList
  refine ⟨?_, fun rest => ?_⟩
  · rw [htext]
    rfl
  · rw [htext, List.cons_append, List.append_assoc, List.singleton_append]
    show readString? _ = _
    rw [readString?, readCodes?_flatMap_escape]
    simp [ofCodes?_map_toNat]

end Token

namespace Reader

theorem run_of_spelledBy {token : Token} {s : String} (h : token.SpelledBy s) (rest : List Char)
    (state : State) : run (s.toList ++ rest) state = (step state token).bind (run rest) := by
  have htoken := h.token?_append rest
  cases hs : s.toList with
  | nil =>
      have hnil := h.token?_append []
      rw [hs] at hnil
      cases hnil
  | cons c chars =>
      have hblank : isBlank c = false := by
        simpa [hs] using h.head
      rw [hs, List.cons_append] at htoken
      rw [List.cons_append, run, if_neg (by simp [hblank])]
      split
      · rename_i hnone
        cases htoken.symm.trans hnone
      · rename_i hsome
        cases htoken.symm.trans hsome
        rfl

theorem run_blanks {blanks : List Char} (h : ∀ c ∈ blanks, isBlank c = true) (rest : List Char)
    (state : State) : run (blanks ++ rest) state = run rest state := by
  induction blanks with
  | nil => rfl
  | cons c blanks ih =>
      obtain ⟨hc, hblanks⟩ := List.forall_mem_cons.mp h
      rw [List.cons_append, run, if_pos hc, ih hblanks]

theorem run_newline (depth : Nat) (rest : List Char) (state : State) :
    run ((newline depth).toList ++ rest) state = run rest state := by
  refine run_blanks (fun c hc => ?_) rest state
  rw [newline, String.toList_ofList, List.mem_cons, List.mem_replicate] at hc
  rcases hc with rfl | ⟨-, rfl⟩
  · rfl
  · rfl

end Reader

/-! ### Reading values -/

mutual

/-- What is written for a value reads as. -/
def value : Json → Value
  | bool b => .bool b
  | string s => .string s
  | array elements => .array (elementValues elements)
  | object members => .object (memberValues members)

def elementValues : List Json → List Value
  | [] => []
  | e :: es => e.value :: elementValues es

def memberValues : List (String × Json) → List (String × Value)
  | [] => []
  | (key, j) :: members => (key, j.value) :: memberValues members

end

theorem elementValues_eq_map (es : List Json) : elementValues es = es.map value := by
  induction es with
  | nil => rfl
  | cons e es ih => rw [elementValues, ih, List.map_cons]

theorem memberValues_eq_map (members : List (String × Json)) :
    memberValues members = members.map fun member => (member.1, member.2.value) := by
  induction members with
  | nil => rfl
  | cons member members ih => rw [memberValues, ih, List.map_cons]

namespace Reader

/-- Whether a value is due within some open containers. An array that has just been opened may end
instead. -/
def State.Awaits (state : State) (stack : List Frame) : Prop :=
  ∀ token ≠ Token.closeArray, step state token = start stack token

theorem awaits_value (stack : List Frame) : (State.value stack).Awaits stack :=
  fun _ _ => rfl

theorem awaits_firstElement (stack : List Frame) :
    (State.firstElement stack).Awaits (.array [] :: stack) := by
  intro token h
  cases token with
  | closeArray => exact absurd rfl h
  | _ => rfl

theorem run_colon (members : List (String × Value)) (key : String) (stack : List Frame)
    (rest : List Char) :
    run (": ".toList ++ rest) (.colon members key stack) =
      run rest (.value (.object members key :: stack)) := by
  have hcolon : ": ".toList = ":".toList ++ [' '] := rfl
  rw [hcolon, List.append_assoc, run_of_spelledBy Token.spelledBy_colon]
  exact run_blanks (List.forall_mem_singleton.mpr rfl) rest _

mutual

/-- Reading the written form of a value where one is due is the same as having the value. -/
theorem run_textAt (depth : Nat) (j : Json) {state : State} {stack : List Frame}
    (h : state.Awaits stack) (rest : List Char) :
    run ((j.textAt depth).toList ++ rest) state = run rest (.done j.value stack) := by
  match j with
  | bool b =>
      rw [textAt, run_of_spelledBy (Token.spelledBy_bool b), h _ (by simp)]
      rfl
  | string s =>
      rw [textAt, run_of_spelledBy (Token.spelledBy_string s), h _ (by simp)]
      rfl
  | array [] =>
      have hbrackets : "[]".toList = "[".toList ++ "]".toList := rfl
      rw [textAt, hbrackets, List.append_assoc, run_of_spelledBy Token.spelledBy_openArray,
        h _ (by simp)]
      exact run_of_spelledBy Token.spelledBy_closeArray rest (.firstElement stack)
  | array (e :: es) =>
      -- the first element comes where the array might still end, hence the law for all such states
      simp only [textAt, String.toList_append, List.append_assoc]
      rw [run_of_spelledBy Token.spelledBy_openArray, h _ (by simp), start, Option.bind_some,
        run_newline, run_textAt (depth + 1) e (awaits_firstElement stack)]
      exact run_elementsText depth es [] e.value stack rest
  | object [] =>
      have hbraces : "\x7b\x7d".toList = "\x7b".toList ++ "\x7d".toList := rfl
      rw [textAt, hbraces, List.append_assoc, run_of_spelledBy Token.spelledBy_openObject,
        h _ (by simp)]
      exact run_of_spelledBy Token.spelledBy_closeObject rest (.firstKey stack)
  | object ((key, j) :: members) =>
      simp only [textAt, String.toList_append, List.append_assoc]
      rw [run_of_spelledBy Token.spelledBy_openObject, h _ (by simp), start, Option.bind_some,
        run_newline, run_of_spelledBy (Token.spelledBy_string key), step, Option.bind_some,
        run_colon, run_textAt (depth + 1) j (awaits_value _)]
      exact run_membersText depth members [] key j.value stack rest

/-- The elements behind one that has just ended are read up to the end of the array. -/
theorem run_elementsText (depth : Nat) (es : List Json) (read : List Value) (v : Value)
    (stack : List Frame) (rest : List Char) :
    run ((elementsText (depth + 1) es).toList ++ ((newline depth).toList ++ ("]".toList ++ rest)))
        (.done v (.array read :: stack)) =
      run rest (.done (.array (read ++ v :: elementValues es)) stack) := by
  match es with
  | [] =>
      rw [elementsText, String.toList_empty, List.nil_append, run_newline]
      exact run_of_spelledBy Token.spelledBy_closeArray rest _
  | e :: es =>
      -- past the comma, `v` has joined the elements read, and `e` is the one that ends next
      simp only [elementsText, String.toList_append, List.append_assoc]
      rw [run_of_spelledBy Token.spelledBy_comma, step, Option.bind_some, run_newline,
        run_textAt (depth + 1) e (awaits_value _), run_elementsText depth es (read ++ [v]),
        List.append_assoc]
      rfl

/-- The members behind one that has just ended are read up to the end of the object. -/
theorem run_membersText (depth : Nat) (members : List (String × Json))
    (read : List (String × Value)) (key : String) (v : Value) (stack : List Frame)
    (rest : List Char) :
    run ((membersText (depth + 1) members).toList ++
          ((newline depth).toList ++ ("\x7d".toList ++ rest)))
        (.done v (.object read key :: stack)) =
      run rest (.done (.object (read ++ (key, v) :: memberValues members)) stack) := by
  match members with
  | [] =>
      rw [membersText, String.toList_empty, List.nil_append, run_newline]
      exact run_of_spelledBy Token.spelledBy_closeObject rest _
  | (next, j) :: members =>
      simp only [membersText, String.toList_append, List.append_assoc]
      rw [run_of_spelledBy Token.spelledBy_comma, step, Option.bind_some, run_newline,
        run_of_spelledBy (Token.spelledBy_string next), step, Option.bind_some, run_colon,
        run_textAt (depth + 1) j (awaits_value _), run_membersText depth members (read ++ [(key, v)]),
        List.append_assoc]
      rfl

end

end Reader

/-- **Reading undoes writing.** The written form of a value is read, and it is read as that value. -/
theorem read?_text (j : Json) : read? j.text = some j.value := by
  have hrun := Reader.run_textAt 0 j (Reader.awaits_value []) []
  rw [List.append_nil, Reader.run] at hrun
  rw [read?, text, hrun]

end Understudy.Json
