import Mathlib.Data.List.Basic
import Understudy.Proofs.Outline

/-!
# Understudy.Proofs.Draws

**What is drawn and where it goes.** The draws of a module are settled before the first of them is
made: they go constant by constant and field by field, and each field asks for those of its kind. So
a provider has no say in what it is asked. Its answers are dealt out in the order of the draws, and
each goes into the value of the field that it was drawn for and nowhere else.

What a value of a kind shows of the replies to its draws is said once, by `Kind.Shows`. Everything
else is bookkeeping along two lists, that of the fields and that of the constants, and `Dealt` does it
for both. `Drafting.Makes` is what is known of a piece of drafting from any session, and
`Drafting.Makes.mapM` takes it from the elements of a list to the whole list.
-/

namespace Understudy

variable {σ τ : Type}

/-! ### Replies -/

/-- A draw and what has been answered to it. -/
structure Reply where
  draw : Draw
  answer : draw.Answer

namespace Provider

variable (p : Provider σ)

/-- The state after some draws. -/
def after : List Draw → σ → σ
  | [], s => s
  | d :: draws, s => after draws (p.answer d s).2

/-- The replies to some draws, made one after another. -/
def replies : List Draw → σ → List Reply
  | [], _ => []
  | d :: draws, s => ⟨d, (p.answer d s).1⟩ :: replies draws (p.answer d s).2

theorem after_append (draws more : List Draw) (s : σ) :
    p.after (draws ++ more) s = p.after more (p.after draws s) := by
  induction draws generalizing s with
  | nil => rfl
  | cons d draws ih => exact ih _

theorem replies_append (draws more : List Draw) (s : σ) :
    p.replies (draws ++ more) s = p.replies draws s ++ p.replies more (p.after draws s) := by
  induction draws generalizing s with
  | nil => rfl
  | cons d draws ih => exact congrArg (List.cons _) (ih _)

/-- The reply at a place is what is answered to the draw at that place, from the state that the draws
before it have led to. -/
theorem getElem?_replies (draws : List Draw) (s : σ) (k : Nat) :
    (p.replies draws s)[k]? =
      draws[k]?.map fun d => ⟨d, (p.answer d (p.after (draws.take k) s)).1⟩ := by
  induction draws generalizing s k with
  | nil => rfl
  | cons d draws ih =>
      cases k with
      | zero => rfl
      | succ k => exact ih _ k

end Provider

/-! ### What a value shows -/

/-- The draws that a value of a kind asks for. -/
def Kind.draws : Kind → List Draw
  | number => [numberDraw]
  | string => [.word]
  | boolean => [.boolean]
  | date => [.date]
  | zip => [zipDraw]
  | street => [.streetName, houseNumberDraw]
  | email => [.email]
  | country => [.country]
  | city => [.city]
  | name => [.firstName]
  | null | reference _ => []

/-- What a value of a kind shows of the replies to its draws. -/
inductive Kind.Shows : Kind → List Reply → Literal → Prop
  | number (n : Int) : Shows .number [⟨numberDraw, n⟩] (.integer n)
  | string (text : String) : Shows .string [⟨.word, text⟩] (.quoted text)
  | boolean (b : Bool) : Shows .boolean [⟨.boolean, b⟩] (.boolean b)
  | date (d : Date) : Shows .date [⟨.date, d⟩] (.quoted d.text)
  | zip (n : Int) : Shows .zip [⟨zipDraw, n⟩] (.quoted (toString n))
  | street (name : String) (n : Int) :
    Shows .street [⟨.streetName, name⟩, ⟨houseNumberDraw, n⟩] (.quoted (name ++ " " ++ toString n))
  | email (text : String) : Shows .email [⟨.email, text⟩] (.quoted text)
  | country (text : String) : Shows .country [⟨.country, text⟩] (.quoted text)
  | city (text : String) : Shows .city [⟨.city, text⟩] (.quoted text)
  | name (text : String) : Shows .name [⟨.firstName, text⟩] (.quoted text)
  | null : Shows .null [] .null
  | reference (interface : String) :
    Shows (.reference interface) [] (.spread (MockName.first interface))

/-- Replies dealt out along a list: every element takes some of them from the front, what it makes is
in the given relation to those, and in the end none is left. -/
inductive Dealt {α β : Type} (shows : α → List Reply → β → Prop) :
    List α → List Reply → List β → Prop
  | nil : Dealt shows [] [] []
  | cons {a : α} {b : β} {as : List α} {bs : List β} {taken rest : List Reply} :
    shows a taken b → Dealt shows as rest bs → Dealt shows (a :: as) (taken ++ rest) (b :: bs)

namespace Dealt

variable {α β γ : Type} {shows : α → List Reply → β → Prop} {as : List α} {bs : List β}
  {replies : List Reply}

theorem map_eq (h : Dealt shows as replies bs) {view : β → γ} {expected : α → γ}
    (hview : ∀ {a taken b}, shows a taken b → view b = expected a) :
    bs.map view = as.map expected := by
  induction h with
  | nil => rfl
  | cons hshows _ ih => rw [List.map_cons, List.map_cons, hview hshows, ih]

/-- At every place both lists have an element or none, and what is made there shows some replies. -/
theorem getElem?_cases (h : Dealt shows as replies bs) (k : Nat) :
    (as[k]? = none ∧ bs[k]? = none) ∨
      ∃ a taken b, as[k]? = some a ∧ bs[k]? = some b ∧ shows a taken b := by
  induction h generalizing k with
  | nil => exact Or.inl ⟨rfl, rfl⟩
  | cons hshows _ ih =>
      cases k with
      | zero => exact Or.inr ⟨_, _, _, rfl, rfl, hshows⟩
      | succ k => exact ih k

theorem exists_of_getElem? (h : Dealt shows as replies bs) {k : Nat} {a : α}
    (ha : as[k]? = some a) : ∃ taken b, bs[k]? = some b ∧ shows a taken b := by
  rcases h.getElem?_cases k with ⟨hnone, -⟩ | ⟨a', taken, b, ha', hb, hshows⟩
  · rw [ha] at hnone
    cases hnone
  · cases ha.symm.trans ha'
    exact ⟨taken, b, hb, hshows⟩

theorem exists_of_mem (h : Dealt shows as replies bs) {b : β} (hb : b ∈ bs) :
    ∃ a ∈ as, ∃ taken, shows a taken b := by
  obtain ⟨k, hk⟩ := List.mem_iff_getElem?.mp hb
  rcases h.getElem?_cases k with ⟨-, hnone⟩ | ⟨a, taken, b', ha, hb', hshows⟩
  · rw [hk] at hnone
    cases hnone
  · cases hk.symm.trans hb'
    exact ⟨a, List.mem_of_getElem? ha, taken, hshows⟩

end Dealt

/-! ### Drafting -/

/-- How a piece of drafting goes from any session: the draws it makes, the events it reports, and how
its result is related to the replies. -/
def Drafting.Makes {α : Type} (p : Provider σ) (m : Drafting σ α) (draws : List Draw)
    (events : List Event) (shows : List Reply → α → Prop) : Prop :=
  ∀ s : Session σ,
    (m.run s).2 = ⟨p.after draws s.state, s.draws ++ draws, s.events ++ events⟩ ∧
      shows (p.replies draws s.state) (m.run s).1

namespace Drafting

variable {α β : Type} (p : Provider σ)

theorem makes_pure (a : α) : Makes p (pure a) [] [] fun replies b => replies = [] ∧ b = a := fun s =>
  ⟨by rw [List.append_nil, List.append_nil]; rfl, rfl, rfl⟩

theorem makes_draw (d : Draw) :
    Makes p (draw p d) [d] [] fun replies answer => replies = [⟨d, answer⟩] := fun s =>
  ⟨by rw [List.append_nil]; rfl, rfl⟩

theorem makes_report (e : Event) : Makes p (report e) [] [e] fun replies _ => replies = [] := fun s =>
  ⟨by rw [List.append_nil]; rfl, rfl⟩

namespace Makes

variable {p} {m : Drafting σ α} {draws more : List Draw} {events later : List Event}
  {shows : List Reply → α → Prop}

theorem mono {S : List Reply → α → Prop} (h : Makes p m draws events shows)
    (hshows : ∀ {replies a}, shows replies a → S replies a) :
    Makes p m draws events S := fun s => ⟨(h s).1, hshows (h s).2⟩

theorem map {S : List Reply → β → Prop} {f : α → β} (h : Makes p m draws events shows)
    (hf : ∀ {replies a}, shows replies a → S replies (f a)) :
    Makes p (do return f (← m)) draws events S := fun s => ⟨(h s).1, hf (h s).2⟩

/-- One draft after another: what the first has left of the replies goes to the second. -/
theorem bind {S : α → List Reply → β → Prop} {f : α → Drafting σ β}
    (h : Makes p m draws events shows) (hf : ∀ a, Makes p (f a) more later (S a)) :
    Makes p (m >>= f) (draws ++ more) (events ++ later) fun replies b =>
      ∃ taken rest a, replies = taken ++ rest ∧ shows taken a ∧ S a rest b := by
  intro s
  obtain ⟨hsession, hshows⟩ := h s
  obtain ⟨hsessions, hrest⟩ := hf (m.run s).1 (m.run s).2
  have hrun : (m >>= f).run s = (f (m.run s).1).run (m.run s).2 := rfl
  rw [hrun, Provider.after_append, Provider.replies_append, ← List.append_assoc,
    ← List.append_assoc]
  refine ⟨?_, _, _, _, rfl, hshows, ?_⟩
  · rw [hsessions, hsession]
  · rwa [hsession] at hrest ⊢

/-- Drafting along a list makes the draws of its elements one after another, and deals the replies
out in the same order. -/
theorem mapM {f : α → Drafting σ β} {draws : α → List Draw} {events : α → List Event}
    {shows : α → List Reply → β → Prop} (h : ∀ a, Makes p (f a) (draws a) (events a) (shows a))
    (as : List α) :
    Makes p (as.mapM f) (as.flatMap draws) (as.flatMap events) (Dealt shows as) := by
  induction as with
  | nil => exact fun s => ⟨by simp only [List.flatMap_nil, List.append_nil]; rfl, Dealt.nil⟩
  | cons a rest ih =>
      have hcons := (h a).bind fun b => ih.map (f := fun bs => b :: bs)
        (S := fun replies bs => ∃ tail, bs = b :: tail ∧ Dealt shows rest replies tail)
        fun htail => ⟨_, rfl, htail⟩
      intro s
      obtain ⟨hsession, taken, others, b, hreplies, hshows, tail, htail, hdealt⟩ := hcons s
      rw [List.mapM_cons, List.flatMap_cons, List.flatMap_cons, hreplies]
      refine ⟨hsession, ?_⟩
      have hresult : ((do return (← f a) :: (← rest.mapM f) : Drafting σ (List β)).run s).1 =
          b :: tail := htail
      exact hresult ▸ Dealt.cons hshows hdealt

end Makes

end Drafting

/-! ### Kinds and fields -/

open Drafting

theorem Kind.makes_literal (p : Provider σ) (kind : Kind) :
    Makes p (kind.literal p) kind.draws [] fun replies value =>
      kind.Shows replies value.spreadConstant := by
  cases kind with
  | number => exact (makes_draw p numberDraw).map fun h => h ▸ .number _
  | string => exact (makes_draw p .word).map fun h => h ▸ .string _
  | boolean => exact (makes_draw p .boolean).map fun h => h ▸ .boolean _
  | date => exact (makes_draw p .date).map fun h => h ▸ .date _
  | zip => exact (makes_draw p zipDraw).map fun h => h ▸ .zip _
  | street =>
      refine Makes.mono ((makes_draw p .streetName).bind fun name : String =>
        (makes_draw p houseNumberDraw).map
          (f := fun n : Int => Literal.quoted (name ++ " " ++ toString n))
          (S := fun replies value => ∃ n : Int, replies = [⟨houseNumberDraw, n⟩] ∧
            value = Literal.quoted (name ++ " " ++ toString n)) fun h => ⟨_, h, rfl⟩) ?_
      rintro _ _ ⟨_, _, name, rfl, rfl, n, rfl, rfl⟩
      exact .street name n
  | email => exact (makes_draw p .email).map fun h => h ▸ .email _
  | country => exact (makes_draw p .country).map fun h => h ▸ .country _
  | city => exact (makes_draw p .city).map fun h => h ▸ .city _
  | name => exact (makes_draw p .firstName).map fun h => h ▸ .name _
  | null =>
      refine (makes_pure p Literal.null).mono ?_
      rintro _ _ ⟨rfl, rfl⟩
      exact .null
  | reference interface =>
      refine (makes_pure p (Literal.constant ⟨interface, 1⟩)).mono ?_
      rintro _ _ ⟨rfl, rfl⟩
      exact .reference interface

/-- The event of drafting a value for a field, if it has no kind. -/
def Field.events (known : String → Bool) (field : Field) : List Event :=
  if field.kind? known = none then [.unresolved field] else []

/-- Null stands for a field without a kind. -/
theorem Field.makes_literal (p : Provider σ) (known : String → Bool) (field : Field) :
    Makes p (field.literal p known) ((field.kind? known).getD .null).draws (field.events known)
      fun replies value => ∃ element, ((field.kind? known).getD .null).Shows replies element ∧
        value = element.arrayIf field.isArray := by
  have hkind : ∀ kind : Kind,
      Makes p (do return (← kind.literal p).spreadConstant.arrayIf field.isArray) kind.draws []
        fun replies value => ∃ element, kind.Shows replies element ∧
          value = element.arrayIf field.isArray := fun kind =>
    (kind.makes_literal p).map fun h => ⟨_, h, rfl⟩
  unfold literal events
  cases field.kind? known with
  | some kind => exact hkind kind
  | none =>
      refine Makes.mono ((makes_report p (.unresolved field)).bind fun _ => hkind .null) ?_
      rintro _ _ ⟨_, _, _, rfl, rfl, h⟩
      exact h

namespace Declaration

variable (d : Declaration) (known : String → Bool)

/-! ### Constants and modules -/

/-- The kind of value that stands for a field in the constant of a given number. It is null for a
field without a kind, and in the first constant for a field that refers to the declaration itself. -/
def kindIn (index : Nat) (field : Field) : Kind :=
  if index = 1 ∧ d.isSelfReference known field then .null else (field.kind? known).getD .null

/-- The event of drafting the property of a field in the constant of a given number, if any. -/
def eventsIn (index : Nat) (field : Field) : List Event :=
  if index = 1 ∧ d.isSelfReference known field then [.selfReference d.name field]
  else field.events known

/-- What the property of a field shows of the replies to its draws. -/
def PropertyShows (index : Nat) (field : Field) (replies : List Reply) (q : Property) : Prop :=
  ∃ element, (d.kindIn known index field).Shows replies element ∧
    q = ⟨field.name, element.arrayIf field.isArray⟩

/-- What a constant shows of the replies to its draws, which are dealt out field by field. -/
def ConstantShows (index : Nat) (replies : List Reply) (c : Constant) : Prop :=
  c.name = ⟨d.name, index⟩ ∧ Dealt (d.PropertyShows known index) d.fields replies c.properties

/-- What the content of a module shows of the replies to its draws, which are dealt out constant by
constant. -/
def DocumentShows (layout : Layout) (replies : List Reply) (document : Document) : Prop :=
  document.imports = d.imports known layout ∧
    Dealt (d.ConstantShows known) (List.range' 1 layout.mode.constantCount) replies
      document.constants

/-- The draws for the constant of a given number, field by field. -/
def constantDraws (index : Nat) : List Draw :=
  d.fields.flatMap fun field => (d.kindIn known index field).draws

/-- The draws for a module, constant by constant. -/
def draws (mode : Mode) : List Draw :=
  (List.range' 1 mode.constantCount).flatMap (d.constantDraws known)

/-- The events of drafting a module, constant by constant. -/
def events (mode : Mode) : List Event :=
  (List.range' 1 mode.constantCount).flatMap fun index => d.fields.flatMap (d.eventsIn known index)

variable (p : Provider σ)

theorem makes_property (index : Nat) (field : Field) :
    Makes p (d.property known p index field) (d.kindIn known index field).draws
      (d.eventsIn known index field) (d.PropertyShows known index field) := by
  unfold property PropertyShows kindIn eventsIn
  split
  · have hnull := (makes_pure p (⟨field.name, Literal.null.arrayIf field.isArray⟩ : Property)).mono
      (S := fun replies q => ∃ element, Kind.null.Shows replies element ∧
        q = ⟨field.name, element.arrayIf field.isArray⟩) fun {_ _} h => ⟨.null, h.1 ▸ .null, h.2⟩
    refine Makes.mono ((makes_report p (.selfReference d.name field)).bind fun _ => hnull) ?_
    rintro _ _ ⟨_, _, _, rfl, rfl, h⟩
    exact h
  · refine (field.makes_literal p known).map ?_
    rintro _ _ ⟨element, h, rfl⟩
    exact ⟨element, h, rfl⟩

theorem makes_constant (index : Nat) :
    Makes p (d.constant known p index) (d.constantDraws known index)
      (d.fields.flatMap (d.eventsIn known index)) (d.ConstantShows known index) :=
  (Makes.mapM (d.makes_property known p index) d.fields).map fun h => ⟨rfl, h⟩

theorem makes_document (layout : Layout) :
    Makes p (d.document known layout p) (d.draws known layout.mode) (d.events known layout.mode)
      (d.DocumentShows known layout) :=
  (Makes.mapM (d.makes_constant known p) _).map fun h => ⟨rfl, h⟩

/-! ### Two providers -/

/-- A draft of a module, made with a provider from one of its states. -/
structure Drafted (d : Declaration) (r : Registry) (layout : Layout) (p : Provider σ) (s : σ)
    (document : Document) : Prop where
  /-- The module has the document for its content. The draws are those for the module, and the
  provider is left in the state after them. -/
  run : (d.mockModule r layout p).run { state := s } =
    (⟨d.name, MockModule.fileNameOf d.name layout.extension, document.text⟩,
      ⟨p.after (d.draws r.contains layout.mode) s, d.draws r.contains layout.mode,
        d.events r.contains layout.mode⟩)
  /-- The replies are what the provider has answered to the draws, one after another. -/
  replies : ∀ (k : Nat) (next : Draw), (d.draws r.contains layout.mode)[k]? = some next →
    (p.replies (d.draws r.contains layout.mode) s)[k]? =
      some ⟨next, (p.answer next (p.after ((d.draws r.contains layout.mode).take k) s)).1⟩
  /-- The values of the document show the replies, each at the place that it was drawn for. -/
  shows : d.DocumentShows r.contains layout
    (p.replies (d.draws r.contains layout.mode) s) document

theorem drafted (r : Registry) (layout : Layout) (s : σ) :
    d.Drafted r layout p s ((d.document r.contains layout p).run { state := s }).1 := by
  obtain ⟨hsession, hshows⟩ := d.makes_document r.contains p layout { state := s }
  refine ⟨?_, fun k next hnext => ?_, hshows⟩
  · exact Prod.ext rfl hsession
  · rw [Provider.getElem?_replies, hnext]
    rfl

variable {d known}

/-- What stands at a place of a document shows replies for the field at that place. -/
theorem DocumentShows.exists_propertyShows {layout : Layout} {replies : List Reply}
    {document : Document} (h : d.DocumentShows known layout replies document) {i j : Nat}
    {c : Constant} {field : Field} (hc : document.constants[i]? = some c)
    (hfield : d.fields[j]? = some field) :
    ∃ index, (List.range' 1 layout.mode.constantCount)[i]? = some index ∧
      ∃ q, c.properties[j]? = some q ∧ ∃ taken, d.PropertyShows known index field taken q := by
  rcases h.2.getElem?_cases i with ⟨-, hnone⟩ | ⟨index, taken, e, hindex, he, -, hproperties⟩
  · rw [hc] at hnone
    cases hnone
  · cases hc.symm.trans he
    obtain ⟨taken, q, hq, hshows⟩ := hproperties.exists_of_getElem? hfield
    exact ⟨index, hindex, q, hq, taken, hshows⟩

theorem ConstantShows.map_name {index : Nat} {replies : List Reply} {c : Constant}
    (h : d.ConstantShows known index replies c) :
    c.properties.map Property.name = d.fields.map Field.name := by
  refine h.2.map_eq ?_
  rintro field taken _ ⟨element, -, rfl⟩
  rfl

end Declaration

end Understudy
