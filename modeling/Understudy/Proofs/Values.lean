import Understudy.Proofs.Readback

/-!
# Understudy.Proofs.Values

**What values look like.** The value of a field is written in the form of its kind, and what it was
made of can be read from it: a number from its digits, a date from its ten characters, and a text from
between its quotes. `Kind.Writes` says so for each kind, without the forms of values that drafting goes
through. It holds if the provider keeps to the bounds that it is given and to years of four digits
(`Kind.Shows.writes`). No value opens with a bracket by itself, so a bracket is in front of the
values of array fields and of no others (`Field.writes_literal`).

A value should also stay on its line. Line feeds are escaped, but carriage returns are written as they
are, each of them (`Text.Quoted.count_return_encode`). So a value is as free of them as the texts that
were drawn for it (`Field.count_return_literal`).
-/

namespace Understudy

variable {σ : Type}

/-! ### Numerals -/

namespace Text

/-- The number that a decimal numeral says. It has no zero in front of another digit. -/
def numeral? (text : List Char) : Option Nat :=
  if text ≠ [] ∧ text.all Char.isDigit ∧ (text.head? = some '0' → text = ['0']) then
    some (Nat.ofDigitChars 10 text 0)
  else none

/-- The number that a given number of digits says, with zeros in front or without. -/
def digits? (width : Nat) (text : List Char) : Option Nat :=
  if text.length = width ∧ text.all Char.isDigit then some (Nat.ofDigitChars 10 text 0) else none

theorem head?_toDigits {n : Nat} (h : 0 < n) : (Nat.toDigits 10 n).head? ≠ some '0' := by
  induction n using Nat.strongRecOn with
  | ind n ih =>
      by_cases hlt : n < 10
      · rw [Nat.toDigits_of_lt_base hlt, List.head?_cons, ne_eq, Option.some.injEq,
          Nat.digitChar_eq_zero]
        omega
      · have hfront := ih (n / 10) (by omega) (by omega)
        rwa [Nat.toDigits_of_base_le (by decide) (by omega),
          List.head?_append_of_ne_nil _ Nat.toDigits_ne_nil]

theorem numeral?_toDigits (n : Nat) : numeral? (Nat.toDigits 10 n) = some n := by
  have hdigits : (Nat.toDigits 10 n).all Char.isDigit = true :=
    List.all_eq_true.mpr fun c hc => Nat.isDigit_of_mem_toDigits (by decide) (by decide) hc
  have hhead : (Nat.toDigits 10 n).head? = some '0' → Nat.toDigits 10 n = ['0'] := by
    intro hzero
    cases n with
    | zero => exact Nat.toDigits_zero 10
    | succ n => exact absurd hzero (head?_toDigits (Nat.succ_pos n))
  rw [numeral?, if_pos ⟨Nat.toDigits_ne_nil, hdigits, hhead⟩, Nat.ofDigitChars_ten_toDigits]

/-- A number between the two has five digits. -/
theorem length_toDigits_eq_five {n : Nat} (hlow : 10000 ≤ n) (hhigh : n ≤ 99999) :
    (Nat.toDigits 10 n).length = 5 := by
  have hle : (Nat.toDigits 10 n).length ≤ 5 :=
    (Nat.length_toDigits_le_iff (by decide) (by decide)).mpr (by omega)
  have hlt : ¬(Nat.toDigits 10 n).length ≤ 4 :=
    (Nat.length_toDigits_le_iff (by decide) (by decide)).not.mpr (by omega)
  omega

theorem toList_toString_natCast (n : Nat) : (toString (n : Int)).toList = Nat.toDigits 10 n := by
  show (Nat.repr n).toList = _
  rw [Nat.toList_repr]

theorem numeral?_toString (n : Nat) : numeral? (toString (n : Int)).toList = some n := by
  rw [toList_toString_natCast, numeral?_toDigits]

/-- Whether a character can stand in a number or in a date. -/
def IsNumeric (c : Char) : Prop := c.isDigit = true ∨ c = '-' ∨ c = '+'

instance (c : Char) : Decidable (IsNumeric c) := inferInstanceAs (Decidable (_ ∨ _))

theorem IsNumeric.ne {c e : Char} (hc : IsNumeric c) (he : ¬IsNumeric e) : c ≠ e :=
  fun heq => he (heq ▸ hc)

theorem isNumeric_of_mem_toString {n : Int} {c : Char} (h : c ∈ (toString n).toList) :
    IsNumeric c :=
  (isDigit_of_mem_toString h).symm.imp_right Or.inl

end Text

/-! ### Dates -/

namespace Date

open Text

/-- Reads four digits, two and two, with hyphens between them. -/
def read? (text : List Char) : Option Date :=
  match text.splitOn '-' with
  | [year, month, day] =>
    (digits? 4 year).bind fun y => (digits? 2 month).bind fun m => (digits? 2 day).map fun d =>
      ⟨y, m, d⟩
  | _ => none

theorem toList_padded (width n : Nat) : (padded width n).toList =
    List.replicate (width - (Nat.toDigits 10 n).length) '0' ++ Nat.toDigits 10 n := by
  rw [padded, String.toList_append, String.toList_ofList, Nat.toString_eq_repr, ← Nat.toList_repr,
    String.length_toList]

theorem isDigit_of_mem_padded {width n : Nat} {c : Char} (h : c ∈ (padded width n).toList) :
    c.isDigit = true := by
  rw [toList_padded, List.mem_append] at h
  rcases h with h | h
  · rw [List.eq_of_mem_replicate h]
    rfl
  · exact Nat.isDigit_of_mem_toDigits (by decide) (by decide) h

/-- Digits that fit are padded to just the width, and say the same number. -/
theorem digits?_padded {width n : Nat} (h : (Nat.toDigits 10 n).length ≤ width) :
    digits? width (padded width n).toList = some n := by
  have hfit : (padded width n).toList.length = width := by
    rw [toList_padded, List.length_append, List.length_replicate]
    omega
  have hdigits : (padded width n).toList.all Char.isDigit = true :=
    List.all_eq_true.mpr fun c hc => isDigit_of_mem_padded hc
  rw [digits?, if_pos ⟨hfit, hdigits⟩, toList_padded,
    Nat.ofDigitChars_append, Nat.ofDigitChars_replicate_zero, Nat.mul_zero,
    Nat.ofDigitChars_ten_toDigits]

theorem not_mem_padded {width n : Nat} {c : Char} (hc : c.isDigit = false) :
    c ∉ (padded width n).toList := by
  intro h
  rw [isDigit_of_mem_padded h] at hc
  cases hc

/-- A date is written with digits, hyphens and perhaps a plus sign. -/
theorem isNumeric_of_mem_text {d : Date} {c : Char} (h : c ∈ d.text.toList) : IsNumeric c := by
  have hyear : c ∈ (yearText d.year).toList → IsNumeric c := by
    intro hc
    unfold yearText at hc
    split_ifs at hc
    · rw [String.toList_append, List.mem_append] at hc
      exact hc.symm.imp isDigit_of_mem_padded fun h => Or.inl (List.mem_singleton.mp h)
    · rw [String.toList_append, List.mem_append] at hc
      exact hc.symm.imp isDigit_of_mem_repr fun h => Or.inr (List.mem_singleton.mp h)
    · exact Or.inl (isDigit_of_mem_padded hc)
  have hhyphen : c ∈ "-".toList → IsNumeric c := fun hc =>
    Or.inr (Or.inl (List.mem_singleton.mp hc))
  simp only [text, String.toList_append, List.mem_append] at h
  rcases h with (((h | h) | h) | h) | h
  · exact hyear h
  · exact hhyphen h
  · exact Or.inl (isDigit_of_mem_padded h)
  · exact hhyphen h
  · exact Or.inl (isDigit_of_mem_padded h)

/-- Whether a date is a day of one of the years 0 to 9999. No month has more than 31 days. -/
structure IsFourDigit (d : Date) : Prop where
  year : 0 ≤ d.year ∧ d.year ≤ 9999
  month : 1 ≤ d.month ∧ d.month ≤ 12
  day : 1 ≤ d.day ∧ d.day ≤ 31

instance (d : Date) : Decidable d.IsFourDigit :=
  decidable_of_iff ((0 ≤ d.year ∧ d.year ≤ 9999) ∧ (1 ≤ d.month ∧ d.month ≤ 12) ∧
      (1 ≤ d.day ∧ d.day ≤ 31))
    ⟨fun ⟨year, month, day⟩ => ⟨year, month, day⟩, fun h => ⟨h.year, h.month, h.day⟩⟩

theorem toList_text {d : Date} (h : d.IsFourDigit) :
    d.text.toList = (padded 4 d.year.natAbs).toList ++
      '-' :: ((padded 2 d.month).toList ++ '-' :: (padded 2 d.day).toList) := by
  obtain ⟨hlow, hhigh⟩ := h.year
  have hyear : yearText d.year = padded 4 d.year.natAbs := by
    rw [yearText, if_neg (Int.not_lt.mpr hlow), if_neg (Int.not_lt.mpr hhigh)]
  have hhyphen : ∀ rest : List Char, "-".toList ++ rest = '-' :: rest := fun _ => rfl
  simp only [text, hyear, String.toList_append, List.append_assoc, hhyphen, List.cons_append]

/-- A date with a year of four digits is read back. -/
theorem read?_text {d : Date} (h : d.IsFourDigit) : read? d.text.toList = some d := by
  obtain ⟨hlow, hhigh⟩ := h.year
  have hmonth := h.month.2
  have hday := h.day.2
  have hsplit : ∀ width n, (padded width n).toList.splitOn '-' = [(padded width n).toList] :=
    fun width n => List.splitOn_eq_singleton (not_mem_padded (by decide))
  have hparts : d.text.toList.splitOn '-' =
      [(padded 4 d.year.natAbs).toList, (padded 2 d.month).toList, (padded 2 d.day).toList] := by
    rw [toList_text h, List.splitOn_append_cons_self, List.splitOn_append_cons_self, hsplit, hsplit,
      hsplit]
    rfl
  have hyears : digits? 4 (padded 4 d.year.natAbs).toList = some d.year.natAbs :=
    digits?_padded ((Nat.length_toDigits_le_iff (by decide) (by decide)).mpr (by omega))
  have hmonths : digits? 2 (padded 2 d.month).toList = some d.month :=
    digits?_padded ((Nat.length_toDigits_le_iff (by decide) (by decide)).mpr (by omega))
  have hdays : digits? 2 (padded 2 d.day).toList = some d.day :=
    digits?_padded ((Nat.length_toDigits_le_iff (by decide) (by decide)).mpr (by omega))
  rw [read?, hparts]
  simp only [hyears, hmonths, hdays, Option.bind_some, Option.map_some,
    Int.natAbs_of_nonneg hlow]

end Date

/-! ### The forms of values -/

/-- Whether a reply keeps to what its draw asks for: an integer lies between the bounds, and a date is
one of the years 0 to 9999. -/
def Reply.IsInBounds : Reply → Prop
  | ⟨.integer low high, (n : Int)⟩ => low ≤ n ∧ n ≤ high
  | ⟨.date, (d : Date)⟩ => d.IsFourDigit
  | _ => True

instance (reply : Reply) : Decidable reply.IsInBounds :=
  match reply with
  | ⟨.integer low high, (n : Int)⟩ => inferInstanceAs (Decidable (low ≤ n ∧ n ≤ high))
  | ⟨.date, (d : Date)⟩ => inferInstanceAs (Decidable d.IsFourDigit)
  | ⟨.word, _⟩ | ⟨.email, _⟩ | ⟨.streetName, _⟩ | ⟨.country, _⟩ | ⟨.city, _⟩ | ⟨.firstName, _⟩
  | ⟨.boolean, _⟩ => inferInstanceAs (Decidable True)

open Text Text.Quoted in
/-- How a value of a kind is written, given the replies to its draws. -/
inductive Kind.Writes : Kind → List Reply → List Char → Prop
  /-- A number stands for itself. -/
  | number {text : List Char} (n : Nat) : n ≤ 99999 → numeral? text = some n →
    Writes .number [⟨numberDraw, (n : Int)⟩] text
  /-- A postal code is five digits between quotes. -/
  | zip {digits : List Char} (n : Nat) : 10000 ≤ n → n ≤ 99999 → digits.length = 5 →
    numeral? digits = some n → Writes .zip [⟨zipDraw, (n : Int)⟩] (mark :: (digits ++ [mark]))
  /-- A street and a house number, with a blank between them. -/
  | street {text digits : List Char} (name : String) (n : Nat) : 1 ≤ n → n ≤ 200 →
    numeral? digits = some n → read? text = some (name.toList ++ ' ' :: digits, []) →
    Writes .street [⟨.streetName, name⟩, ⟨houseNumberDraw, (n : Int)⟩] text
  /-- A date is ten characters between quotes. -/
  | date {written : List Char} (d : Date) : Date.read? written = some d →
    Writes .date [⟨.date, d⟩] (mark :: (written ++ [mark]))
  | string {text : List Char} (raw : String) : read? text = some (raw.toList, []) →
    Writes .string [⟨.word, raw⟩] text
  | email {text : List Char} (raw : String) : read? text = some (raw.toList, []) →
    Writes .email [⟨.email, raw⟩] text
  | country {text : List Char} (raw : String) : read? text = some (raw.toList, []) →
    Writes .country [⟨.country, raw⟩] text
  | city {text : List Char} (raw : String) : read? text = some (raw.toList, []) →
    Writes .city [⟨.city, raw⟩] text
  | name {text : List Char} (raw : String) : read? text = some (raw.toList, []) →
    Writes .name [⟨.firstName, raw⟩] text
  | boolean (b : Bool) : Writes .boolean [⟨.boolean, b⟩] (if b then "true" else "false").toList
  | null : Writes .null [] "null".toList
  | reference (interface : String) :
    Writes (.reference interface) [] ("\x7b...mock" ++ interface ++ "1\x7d").toList

namespace Text.Quoted

/-- A text with nothing to escape is written between the quotes as it is. -/
theorem encode_of_isPlain {raw : List Char} (h : IsPlain raw) :
    encode raw = mark :: (raw ++ [mark]) := by
  rw [encode, flatMap_escape_eq_self_iff.mpr h]

theorem isPlain_of_isNumeric {raw : List Char} (h : ∀ c ∈ raw, IsNumeric c) : IsPlain raw :=
  fun c hc => ⟨(h c hc).ne (by decide), (h c hc).ne (by decide), (h c hc).ne (by decide)⟩

end Text.Quoted

namespace Literal

open Text.Quoted

theorem toList_text_quoted (raw : String) : (quoted raw).text.toList = encode raw.toList := by
  rw [text, String.toList_ofList]

theorem read?_text_quoted (raw : String) :
    read? (quoted raw).text.toList = some (raw.toList, []) := by
  rw [toList_text_quoted, read?_eq_some_iff, List.append_nil]

theorem text_spread_first (interface : String) :
    (spread (MockName.first interface)).text = "\x7b...mock" ++ interface ++ "1\x7d" := by
  rw [text, MockName.text_first, ← String.toList_inj]
  simp only [String.toList_append, List.append_assoc]
  rfl

end Literal

open Text in
/-- A value is written in the form of its kind if the replies keep to what the draws ask for. -/
theorem Kind.Shows.writes {kind : Kind} {replies : List Reply} {value : Literal}
    (h : kind.Shows replies value) (hbounds : ∀ reply ∈ replies, reply.IsInBounds) :
    kind.Writes replies value.text.toList := by
  cases h with
  | number n =>
      obtain ⟨hlow, hhigh⟩ : 0 ≤ n ∧ n ≤ 99999 := hbounds _ List.mem_cons_self
      obtain ⟨k, rfl⟩ := Int.eq_ofNat_of_zero_le hlow
      exact .number k (by omega) (numeral?_toString k)
  | string raw => exact .string raw (Literal.read?_text_quoted raw)
  | boolean b => cases b <;> exact .boolean _
  | date d =>
      have hdate : d.IsFourDigit := hbounds _ List.mem_cons_self
      have hplain := Quoted.isPlain_of_isNumeric fun c => d.isNumeric_of_mem_text (c := c)
      rw [Literal.toList_text_quoted, Quoted.encode_of_isPlain hplain]
      exact .date d (Date.read?_text hdate)
  | zip n =>
      obtain ⟨hlow, hhigh⟩ : 10000 ≤ n ∧ n ≤ 99999 := hbounds _ List.mem_cons_self
      obtain ⟨k, rfl⟩ := Int.eq_ofNat_of_zero_le (show 0 ≤ n by omega)
      have hplain := Quoted.isPlain_of_isNumeric fun c => isNumeric_of_mem_toString (n := k) (c := c)
      rw [Literal.toList_text_quoted, Quoted.encode_of_isPlain hplain, toList_toString_natCast]
      exact .zip k (by omega) (by omega) (length_toDigits_eq_five (by omega) (by omega))
        (numeral?_toDigits k)
  | street name n =>
      obtain ⟨hlow, hhigh⟩ : 1 ≤ n ∧ n ≤ 200 :=
        hbounds ⟨houseNumberDraw, n⟩ (List.mem_cons_of_mem _ List.mem_cons_self)
      obtain ⟨k, rfl⟩ := Int.eq_ofNat_of_zero_le (show 0 ≤ n by omega)
      refine .street name k (by omega) (by omega) (numeral?_toString k) ?_
      rw [Literal.read?_text_quoted, String.toList_append, String.toList_append, List.append_assoc]
      rfl
  | email raw => exact .email raw (Literal.read?_text_quoted raw)
  | country raw => exact .country raw (Literal.read?_text_quoted raw)
  | city raw => exact .city raw (Literal.read?_text_quoted raw)
  | name raw => exact .name raw (Literal.read?_text_quoted raw)
  | null => exact .null
  | reference interface =>
      rw [Literal.text_spread_first]
      exact .reference interface

/-! ### Brackets -/

/-- No value is an array by itself. -/
theorem Kind.Shows.ne_array {kind : Kind} {replies : List Reply} {value : Literal}
    (h : kind.Shows replies value) (element : Literal) : value ≠ .array element := by
  cases h <;> simp

theorem Kind.Shows.head?_ne_bracket {kind : Kind} {replies : List Reply} {value : Literal}
    (h : kind.Shows replies value) : value.text.toList.head? ≠ some '[' := by
  intro hhead
  obtain ⟨rest, htext⟩ := List.head?_eq_some_iff.mp hhead
  rcases Literal.cases_of_text htext with ⟨mock, rfl⟩ | ⟨element, rfl⟩ | ⟨-, hbracket⟩
  · rw [Literal.text, String.toList_append, String.toList_append] at htext
    cases htext
  · exact h.ne_array element rfl
  · exact hbracket rfl

theorem Literal.text_arrayIf_eq (isArray : Bool) (value : Literal) :
    (value.arrayIf isArray).text = if isArray then "[" ++ value.text ++ "]" else value.text := by
  cases isArray <;> rfl

/-- **The written form of a value.** If the replies to the draws for a field keep to what is asked for,
its value is written in the form of its kind, which shows what has been drawn; null is written for a
field without a kind. Brackets are around it if and only if the field is an array. -/
theorem Field.writes_literal (p : Provider σ) (known : String → Bool) (field : Field)
    (s : Session σ) {kind : Kind} (hkind : (field.kind? known).getD .null = kind)
    (hbounds : ∀ reply ∈ p.replies kind.draws s.state, reply.IsInBounds) :
    ∃ inner : String,
      ((field.literal p known).run s).1.text =
        (if field.isArray then "[" ++ inner ++ "]" else inner) ∧
      inner.toList.head? ≠ some '[' ∧
      ((field.literal p known).run s).2.draws = s.draws ++ kind.draws ∧
      kind.Writes (p.replies kind.draws s.state) inner.toList := by
  obtain ⟨hsession, element, hshows, hvalue⟩ := field.makes_literal p known s
  rw [hkind] at hsession hshows
  refine ⟨element.text, ?_, hshows.head?_ne_bracket, ?_, hshows.writes hbounds⟩
  · rw [hvalue, Literal.text_arrayIf_eq]
  · rw [hsession]

/-- A house number at the upper bound, and a street with a quote and a bracket in its name. -/
theorem Field.writes_literal_street :
    let field : Field := ⟨"street", "string", true⟩
    let p := Script.provider { streetNames := ["Place d\x27Or]"], integers := [200] }
    (field.kind? fun _ => false).getD .null = .street ∧
      (∀ reply ∈ p.replies Kind.street.draws {}, reply.IsInBounds) ∧
      ∃ inner : String,
        ((field.literal p fun _ => false).run { state := {} }).1.text = "[" ++ inner ++ "]" ∧
        inner = "'Place d\\'Or] 200'" ∧ inner.toList.head? ≠ some '[' ∧
        Kind.street.Writes (p.replies Kind.street.draws {}) inner.toList := by
  intro field p
  have hkind : (field.kind? fun _ => false).getD .null = .street := by decide
  have hbounds : ∀ reply ∈ p.replies Kind.street.draws {}, reply.IsInBounds := by decide +kernel
  obtain ⟨inner, htext, hhead, -, hwrites⟩ :=
    Field.writes_literal p (fun _ => false) field { state := {} } hkind hbounds
  refine ⟨hkind, hbounds, inner, htext, ?_, hhead, hwrites⟩
  have hvalue : ((field.literal p fun _ => false).run { state := {} }).1.text =
      "[" ++ "'Place d\\'Or] 200'" ++ "]" := by decide +kernel
  exact (String.append_right_inj "[").mp ((String.append_left_inj "]").mp (htext.symm.trans hvalue))

/-! ### Line breaks -/

/-- The text that a reply brings in, if it is one. -/
def Reply.text : Reply → List Char
  | ⟨.word, (raw : String)⟩ | ⟨.email, (raw : String)⟩ | ⟨.streetName, (raw : String)⟩
  | ⟨.country, (raw : String)⟩ | ⟨.city, (raw : String)⟩ | ⟨.firstName, (raw : String)⟩ => raw.toList
  | _ => []

namespace Text.Quoted

/-- No character but a carriage return is written with one. -/
theorem count_return_escape (c : Char) : (escape c).count '\r' = [c].count '\r' := by
  rcases escape_cases c with ⟨-, -, -, hescape⟩ | ⟨e, hescape, hunescape⟩
  · rw [hescape]
  · have hc : c ≠ '\r' := by
      rintro rfl
      cases hescape
    have he : e ≠ '\r' := by
      rintro rfl
      cases hunescape
    rw [hescape, List.count_cons_of_ne (by decide), List.count_cons_of_ne he,
      List.count_cons_of_ne hc]

/-- Carriage returns are written as they are. -/
theorem count_return_encode (raw : List Char) : (encode raw).count '\r' = raw.count '\r' := by
  have hbody : (raw.flatMap escape).count '\r' = raw.count '\r' := by
    induction raw with
    | nil => rfl
    | cons c raw ih =>
        rw [List.flatMap_cons, List.count_append, count_return_escape, ih, ← List.count_append,
          List.singleton_append]
  rw [encode, List.count_cons_of_ne (by decide), List.count_append, hbody]
  rfl

end Text.Quoted

theorem count_return_of_isNumeric {raw : List Char} (h : ∀ c ∈ raw, Text.IsNumeric c) :
    raw.count '\r' = 0 :=
  List.count_eq_zero.mpr fun hc => (h _ hc).ne (by decide) rfl

/-- The carriage returns of a value are those of the texts that were drawn for it. -/
theorem Kind.Shows.count_return {kind : Kind} {replies : List Reply} {value : Literal}
    (h : kind.Shows replies value)
    (hkind : ∀ interface, kind = .reference interface → '\r' ∉ interface.toList) :
    value.text.toList.count '\r' = (replies.flatMap Reply.text).count '\r' := by
  have hquoted : ∀ raw : String,
      (Literal.quoted raw).text.toList.count '\r' = raw.toList.count '\r' := by
    intro raw
    rw [Literal.toList_text_quoted, Text.Quoted.count_return_encode]
  have hinteger : ∀ n : Int, (toString n).toList.count '\r' = 0 := fun n =>
    count_return_of_isNumeric fun _ => Text.isNumeric_of_mem_toString
  cases h with
  | number n => exact hinteger n
  | boolean b => cases b <;> rfl
  | date d =>
      have hdate := count_return_of_isNumeric fun c => d.isNumeric_of_mem_text (c := c)
      rw [hquoted, hdate]
      rfl
  | zip n =>
      rw [hquoted, hinteger]
      rfl
  | street name n =>
      have hblank : " ".toList.count '\r' = 0 := by decide
      show _ = (name.toList ++ []).count '\r'
      rw [hquoted, String.toList_append, String.toList_append, List.count_append,
        List.count_append, hinteger, hblank, List.append_nil, Nat.add_zero]
  | null => rfl
  | reference interface =>
      have hinterface := List.count_eq_zero.mpr (hkind interface rfl)
      rw [Literal.text_spread_first, String.toList_append, String.toList_append, List.count_append,
        List.count_append, hinterface]
      rfl
  | string raw | email raw | country raw | city raw | name raw =>
      show _ = (raw.toList ++ []).count '\r'
      rw [hquoted, List.append_nil]

/-- **Line breaks in values.** The value of a field whose type is a word never holds a line feed,
whatever the provider answers. It holds just as many carriage returns as the texts that were drawn for
it, and so it stays on its line if and only if these do not bring in any. -/
theorem Field.count_return_literal (p : Provider σ) (known : String → Bool) (field : Field)
    (htype : IsIdentifier field.typeName.toList) (s : Session σ) :
    '\n' ∉ ((field.literal p known).run s).1.text.toList ∧
      ((field.literal p known).run s).1.text.toList.count '\r' =
        ((p.replies ((field.kind? known).getD .null).draws s.state).flatMap Reply.text).count '\r' := by
  obtain ⟨-, element, hshows, hvalue⟩ := field.makes_literal p known s
  have hfree : ∀ c, Text.isWord c = false → ∀ interface,
      (field.kind? known).getD .null = .reference interface → c ∉ interface.toList := by
    intro c hc interface hkind
    rw [← Field.typeName_of_getD_kind? hkind]
    exact not_mem_of_forall htype.2 hc
  constructor
  · rw [hvalue]
    exact ((hshows.isInline (hfree '\n' (by decide))).arrayIf field.isArray).not_mem
  · have hbracket : "[".toList.count '\r' = 0 ∧ "]".toList.count '\r' = 0 := by decide
    rw [← hshows.count_return (hfree '\r' (by decide)), hvalue, Literal.text_arrayIf_eq]
    split
    · rw [String.toList_append, String.toList_append, List.count_append, List.count_append,
        hbracket.1, hbracket.2, Nat.zero_add, Nat.add_zero]
    · rfl

theorem isIdentifier_string : IsIdentifier "string".toList := by
  have hword : "string".toList.all Text.isWord = true := by decide +kernel
  exact ⟨by decide, List.all_eq_true.mp hword⟩

/-- A line feed and two carriage returns in a word. -/
theorem Field.count_return_literal_mixed :
    let field : Field := ⟨"title", "string", true⟩
    let p := Script.provider { words := ["a\r\nb\r"] }
    let value := ((field.literal p fun _ => false).run { state := {} }).1
    IsIdentifier field.typeName.toList ∧ value.text = "['a\r\\nb\r']" ∧
      '\n' ∉ value.text.toList ∧ value.text.toList.count '\r' = 2 := by
  intro field p value
  obtain ⟨hfeed, hreturns⟩ :=
    Field.count_return_literal p (fun _ => false) field isIdentifier_string { state := {} }
  exact ⟨isIdentifier_string, by decide +kernel, hfeed, hreturns.trans (by decide +kernel)⟩

/-- A carriage return in a word breaks the line, although the type of the field is a word. -/
theorem Field.count_return_literal_broken :
    let field : Field := ⟨"title", "string", false⟩
    let p := Script.provider { words := ["a\rb"] }
    let value := ((field.literal p fun _ => false).run { state := {} }).1
    IsIdentifier field.typeName.toList ∧ value.text = "'a\rb'" ∧ '\r' ∈ value.text.toList :=
  ⟨isIdentifier_string, by decide +kernel, by decide +kernel⟩

end Understudy
