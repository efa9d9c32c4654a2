import Understudy.Declaration.Scan

/-!
# Understudy.Proofs.Line

A line that opens an interface never declares a property (`property?_of_header?`). The two readers
overlap on their first words, since a property may be called `export` and be of type `interface`;
they part at the blank that `header?` asks for after the second keyword, where a property must end.

So a file can be read with the two of them apart: its fields are those of its property lines, and
its name is the first that an opening line brings (`Declaration.parse?_eq`).
-/

namespace Understudy

open Text

/-! ### Characters -/

namespace Text

/-- A code point of a table lies in one of its ranges. -/
theorem CharTable.exists_of_covers {table : CharTable} {n : Nat} (h : table.covers n = true) :
    ∃ range ∈ table, range.1 ≤ n ∧ n ≤ range.2 := by
  induction table with
  | nil => simp [covers] at h
  | cons range rest ih =>
      obtain ⟨lo, hi⟩ := range
      unfold covers at h
      split at h
      · simp at h
      · rename_i hlo
        split at h
        · rename_i hhi
          exact ⟨(lo, hi), List.mem_cons_self, Nat.le_of_not_lt hlo, hhi⟩
        · obtain ⟨range, hmem, hrange⟩ := ih h
          exact ⟨range, List.mem_cons_of_mem _ hmem, hrange⟩

theorem not_isWord_of_isBlank {c : Char} (h : isBlank c = true) : isWord c = false := by
  have hranges : ∀ range ∈ blankTable, ∀ n ∈ List.range' range.1 (range.2 + 1 - range.1),
      wordTable.covers n = false := by decide +kernel
  obtain ⟨range, hmem, hlo, hhi⟩ := CharTable.exists_of_covers h
  exact hranges range hmem c.toNat (List.mem_range'_1.mpr (by omega))

theorem not_isBlank_of_isWord {c : Char} (h : isWord c = true) : isBlank c = false := by
  cases hblank : isBlank c with
  | false => rfl
  | true => rw [not_isWord_of_isBlank hblank] at h; contradiction

/-- The letter case of a character does not matter for being of a word. -/
theorem isWord_of_toLower {c : Char} (h : isWord c.toLower = true) : isWord c = true := by
  by_cases hupper : 0x41 ≤ c.toNat ∧ c.toNat ≤ 0x5A
  · rw [isWord, CharTable.contains, wordTable,
      CharTable.covers_cons_of_gt _ (by decide) (by omega),
      CharTable.covers_cons_of_mem _ hupper.1 hupper.2]
  · have hlower : c.toLower = c := by
      unfold Char.toLower
      exact dif_neg hupper
    rwa [hlower] at h

end Text

/-! ### Runs of characters -/

section Runs

variable {α : Type} {p : α → Bool} {l m rest more : List α}

theorem not_mem_of_forall {a : α} (h : ∀ b ∈ l, p b = true) (ha : p a = false) : a ∉ l := by
  intro hmem
  rw [h a hmem] at ha
  contradiction

/-- Whether a text does not go on with a character of a class. -/
def Stops (p : α → Bool) (rest : List α) : Prop := ∀ a ∈ rest.head?, p a = false

theorem stops_cons {a : α} : Stops p (a :: rest) ↔ p a = false := by
  simp [Stops]

theorem stops_of_forall (h : ∀ a ∈ l, p a = false) : Stops p l :=
  fun a ha => h a (List.mem_of_head? ha)

theorem stops_append (hne : l ≠ []) (h : ∀ a ∈ l, p a = false) : Stops p (l ++ rest) := by
  obtain ⟨a, l, rfl⟩ := List.exists_cons_of_ne_nil hne
  exact stops_cons.mpr (h a List.mem_cons_self)

theorem stops_dropWhile (p : α → Bool) (l : List α) : Stops p (l.dropWhile p) := by
  intro a ha
  have hhead := List.head?_dropWhile_not p l
  rw [Option.mem_def.mp ha] at hhead
  simpa using hhead

theorem takeWhile_append_of_stops (h : ∀ a ∈ l, p a = true) (hrest : Stops p rest) :
    (l ++ rest).takeWhile p = l := by
  rw [List.takeWhile_append_of_pos h]
  cases rest with
  | nil => rw [List.takeWhile_nil, List.append_nil]
  | cons a rest =>
      rw [List.takeWhile_cons_of_neg (by simp [stops_cons.mp hrest]), List.append_nil]

theorem dropWhile_append_of_stops (h : ∀ a ∈ l, p a = true) (hrest : Stops p rest) :
    (l ++ rest).dropWhile p = rest := by
  have hsplit := List.takeWhile_append_dropWhile (p := p) (l := l ++ rest)
  rw [takeWhile_append_of_stops h hrest] at hsplit
  exact List.append_cancel_left hsplit

/-- Where two runs stop, there is one way to tell them from what follows. -/
theorem append_inj_of_stops (hl : ∀ a ∈ l, p a = true) (hrest : Stops p rest)
    (hm : ∀ a ∈ m, p a = true) (hmore : Stops p more) (h : l ++ rest = m ++ more) :
    l = m ∧ rest = more := by
  have htake := congrArg (List.takeWhile p) h
  rw [takeWhile_append_of_stops hl hrest, takeWhile_append_of_stops hm hmore] at htake
  rw [htake] at h
  exact ⟨htake, List.append_cancel_left h⟩

end Runs

namespace Line

/-! ### The two readers -/

theorem not_isSeparator_of_isWord {c : Char} (h : isWord c = true) : isSeparator c = false := by
  have hquestion : c ≠ '?' := by
    intro hc
    rw [hc] at h
    exact absurd h (by decide)
  have hcolon : c ≠ ':' := by
    intro hc
    rw [hc] at h
    exact absurd h (by decide)
  simp [isSeparator, not_isBlank_of_isWord h, hquestion, hcolon]

/-- A blank is no end of a property. -/
theorem ending?_of_isBlank {c : Char} (h : isBlank c = true) (rest : List Char) :
    ending? (c :: rest) = none := by
  have hbracket : isBracket c = false := by
    cases hc : isBracket c with
    | false => rfl
    | true =>
        rw [isBracket, Bool.or_eq_true, beq_iff_eq, beq_iff_eq] at hc
        rcases hc with rfl | rfl <;> exact absurd h (by decide)
  have hsemicolon : c ≠ ';' := by
    intro hc
    rw [hc] at h
    exact absurd h (by decide)
  rw [ending?, List.dropWhile_cons_of_neg (by simp [hbracket])]
  simp [hsemicolon]

/-- Two words with blanks between them and a blank behind are no property. -/
theorem property?_of_words {word type blanks : List Char} {a b : Char} (rest : List Char)
    (hword : ∀ c ∈ word, isWord c = true) (hne : word ≠ []) (ha : isBlank a = true)
    (hblanks : ∀ c ∈ blanks, isBlank c = true) (htype : ∀ c ∈ type, isWord c = true)
    (hne' : type ≠ []) (hb : isBlank b = true) :
    property? (word ++ a :: (blanks ++ (type ++ b :: rest))) = none := by
  have hstart : Stops isBlank (word ++ a :: (blanks ++ (type ++ b :: rest))) :=
    stops_append hne fun c hc => not_isBlank_of_isWord (hword c hc)
  have hsep : isSeparator a = true := by simp [isSeparator, ha]
  have hseps : ∀ c ∈ blanks, isSeparator c = true := fun c hc => by simp [isSeparator, hblanks c hc]
  have ht : Stops isSeparator (type ++ b :: rest) :=
    stops_append hne' fun c hc => not_isSeparator_of_isWord (htype c hc)
  have hend : Stops isWord (a :: (blanks ++ (type ++ b :: rest))) :=
    stops_cons.mpr (not_isWord_of_isBlank ha)
  have hend' : Stops isWord (b :: rest) := stops_cons.mpr (not_isWord_of_isBlank hb)
  have hbody := dropWhile_append_of_stops (l := []) (by simp) hstart
  rw [List.nil_append] at hbody
  unfold property?
  dsimp only
  rw [hbody, takeWhile_append_of_stops hword hend, dropWhile_append_of_stops hword hend,
    List.takeWhile_cons_of_pos hsep, List.dropWhile_cons_of_pos hsep,
    dropWhile_append_of_stops hseps ht]
  -- the type ends at the blank, where a property would have to end
  unfold property?OfRest
  rw [dropWhile_append_of_stops htype hend', ending?_of_isBlank hb]
  simp

/-- What is read as a keyword is the keyword in some letter case. -/
theorem afterKeyword?_eq_some_iff {keyword text rest : List Char} :
    afterKeyword? keyword text = some rest ↔
      ∃ word, text = word ++ rest ∧ word.map Char.toLower = keyword := by
  induction keyword generalizing text with
  | nil => simp [afterKeyword?]
  | cons k keyword ih =>
      cases text with
      | nil => simp [afterKeyword?]
      | cons c text =>
          simp only [afterKeyword?, Option.ite_none_right_eq_some, ih]
          constructor
          · rintro ⟨hc, word, rfl, hword⟩
            exact ⟨c :: word, rfl, by rw [List.map_cons, hc, hword]⟩
          · rintro ⟨word, htext, hword⟩
            obtain ⟨d, word, rfl, hd, hrest⟩ := List.map_eq_cons_iff.mp hword
            obtain ⟨rfl, rfl⟩ := List.cons.inj htext
            exact ⟨hd, word, rfl, hrest⟩

/-- A keyword consists of word characters in any letter case. -/
theorem isWord_of_map_toLower {word keyword : List Char} (hkeyword : keyword.all isWord = true)
    (h : word.map Char.toLower = keyword) : ∀ c ∈ word, isWord c = true := by
  intro c hc
  have hlower : c.toLower ∈ keyword := h ▸ List.mem_map_of_mem hc
  exact isWord_of_toLower (List.all_eq_true.mp hkeyword _ hlower)

theorem afterBlanks?_eq_some_iff {text rest : List Char} :
    afterBlanks? text = some rest ↔
      ∃ blanks, text = blanks ++ rest ∧ blanks ≠ [] ∧ (∀ c ∈ blanks, isBlank c = true) ∧
        Stops isBlank rest := by
  constructor
  · intro h
    cases text with
    | nil => simp [afterBlanks?] at h
    | cons b text =>
        obtain ⟨hb, rfl⟩ : isBlank b = true ∧ text.dropWhile isBlank = rest := by
          simpa [afterBlanks?] using h
        refine ⟨b :: text.takeWhile isBlank, ?_, List.cons_ne_nil _ _,
          List.forall_mem_cons.mpr ⟨hb, List.all_eq_true.mp List.all_takeWhile⟩,
          stops_dropWhile isBlank text⟩
        rw [List.cons_append, List.takeWhile_append_dropWhile]
  · rintro ⟨blanks, rfl, hne, hblanks, hrest⟩
    obtain ⟨b, blanks, rfl⟩ := List.exists_cons_of_ne_nil hne
    obtain ⟨hb, hblanks⟩ := List.forall_mem_cons.mp hblanks
    simp only [List.cons_append, afterBlanks?, if_pos hb]
    rw [dropWhile_append_of_stops hblanks hrest]

/-- A line that opens an interface declares no property. -/
theorem property?_of_header? {line : List Char} {name : String} (h : header? line = some name) :
    property? line = none := by
  simp only [header?, Option.bind_eq_bind, Option.bind_eq_some_iff] at h
  obtain ⟨line₁, hexport, line₂, hbetween, line₃, hinterface, line₄, hbehind, -⟩ := h
  obtain ⟨word, rfl, hlower⟩ := afterKeyword?_eq_some_iff.mp hexport
  obtain ⟨between, rfl, hne, hblanks, -⟩ := afterBlanks?_eq_some_iff.mp hbetween
  obtain ⟨type, rfl, hlower'⟩ := afterKeyword?_eq_some_iff.mp hinterface
  obtain ⟨behind, rfl, hne', hblanks', -⟩ := afterBlanks?_eq_some_iff.mp hbehind
  obtain ⟨a, between, rfl⟩ := List.exists_cons_of_ne_nil hne
  obtain ⟨b, behind, rfl⟩ := List.exists_cons_of_ne_nil hne'
  obtain ⟨ha, hblanks⟩ := List.forall_mem_cons.mp hblanks
  have hword := isWord_of_map_toLower (by decide +kernel) hlower
  have htype := isWord_of_map_toLower (by decide +kernel) hlower'
  refine property?_of_words _ hword ?_ ha hblanks htype ?_ (hblanks' b List.mem_cons_self)
  · rintro rfl
    exact absurd hlower (by decide)
  · rintro rfl
    exact absurd hlower' (by decide)

theorem field?_read (line : List Char) : (read line).field? = property? line := by
  unfold read
  cases property? line with
  | some field => rfl
  | none => cases header? line <;> rfl

/-- The name that a line brings is the name that `header?` reads, unless that is empty. -/
theorem name?_read (line : List Char) : (read line).name? = (header? line).filter (· ≠ "") := by
  unfold read
  cases hheader : header? line with
  | none => cases property? line <;> rfl
  | some name =>
      rw [property?_of_header? hheader]
      by_cases hname : name = "" <;> simp [name?, hname, Option.filter]

end Line

/-! ### Files -/

/-- The fields of the property lines of a text, in order. -/
def declaredFields (text : String) : List Field := (lines text.toList).filterMap Line.property?

/-- The first name that an opening line of a text brings. -/
def declaredName? (text : String) : Option String :=
  (lines text.toList).findSome? fun line => (Line.header? line).filter (· ≠ "")

/-- A file declares an interface if it brings a name for one. -/
theorem Declaration.parse?_eq (path : Path) (text : String) :
    parse? path text = (declaredName? text).map fun name => ⟨name, path, declaredFields text⟩ := by
  simp only [parse?, Scan.ofText, Scan.ofLines, Scan.declaration?, Line.name?_read,
    Line.field?_read]
  rfl

end Understudy
