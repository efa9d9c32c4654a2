import Understudy.Declaration.Scan

/-!
# Understudy.Proofs.Separation

What separators tell apart: the lines of a text and the segments of a path. A piece holds no
separator, and pieces without separators can be put together and taken apart again.
-/

namespace Understudy

/-- What stands between separators holds none. -/
theorem not_mem_of_mem_splitOn {α : Type} [BEq α] [LawfulBEq α] {a : α} {l part : List α}
    (h : part ∈ l.splitOn a) : a ∉ part := by
  induction l generalizing part with
  | nil =>
      rw [List.splitOn_nil, List.mem_singleton] at h
      rw [h]
      exact List.not_mem_nil
  | cons x rest ih =>
      rw [List.splitOn_cons_eq_if_modifyHead] at h
      split at h
      · rcases List.mem_cons.mp h with rfl | h
        · exact List.not_mem_nil
        · exact ih h
      · rename_i hx
        -- `x` is put in front of the first part of the rest
        cases hrest : rest.splitOn a with
        | nil => exact absurd hrest (List.splitOn_ne_nil a rest)
        | cons first others =>
            rw [hrest, List.modifyHead_cons] at h
            rw [hrest] at ih
            rcases List.mem_cons.mp h with rfl | h
            · have hax : a ≠ x := by
                intro heq
                rw [heq] at hx
                exact hx (beq_self_eq_true x)
              exact List.not_mem_cons_of_ne_of_not_mem hax (ih List.mem_cons_self)
            · exact ih (List.mem_cons_of_mem _ h)

theorem mem_intercalate {α : Type} {a : α} {separator : List α} {parts : List (List α)}
    (h : a ∈ separator.intercalate parts) : a ∈ separator ∨ ∃ part ∈ parts, a ∈ part := by
  induction parts with
  | nil => contradiction
  | cons part rest ih =>
      by_cases hrest : rest = []
      · rw [hrest, List.intercalate_singleton] at h
        exact Or.inr ⟨part, List.mem_cons_self, h⟩
      · rw [List.intercalate_cons_of_ne_nil hrest, List.mem_append, List.mem_append] at h
        rcases h with (h | h) | h
        · exact Or.inr ⟨part, List.mem_cons_self, h⟩
        · exact Or.inl h
        · refine (ih h).imp_right fun hpart => ?_
          obtain ⟨other, hother, ha⟩ := hpart
          exact ⟨other, List.mem_cons_of_mem _ hother, ha⟩

theorem mem_intercalate_of_mem {α : Type} {a : α} {separator part : List α} {parts : List (List α)}
    (h : part ∈ parts) (ha : a ∈ part) : a ∈ separator.intercalate parts := by
  induction parts with
  | nil => cases h
  | cons first rest ih =>
      by_cases hrest : rest = []
      · rw [hrest, List.mem_singleton] at h
        rwa [hrest, List.intercalate_singleton, ← h]
      · rw [List.intercalate_cons_of_ne_nil hrest, List.mem_append]
        rcases List.mem_cons.mp h with rfl | h
        · exact Or.inl (List.mem_append_left _ ha)
        · exact Or.inr (ih h)

/-- Texts put together end in the last one. -/
theorem exists_intercalate_concat (separator : String) (texts : List String) (last : String) :
    ∃ start, separator.intercalate (texts ++ [last]) = start ++ last := by
  by_cases hne : texts = []
  · exact ⟨"", by simp [hne]⟩
  · refine ⟨separator.intercalate texts ++ separator, ?_⟩
    rw [String.intercalate_append_of_ne_nil hne (by simp), String.intercalate_singleton]

/-- Blocks with a separator before each are had back by splitting. -/
theorem splitOn_append_flatMap_cons {α : Type} [BEq α] [LawfulBEq α] {a : α} {first : List α}
    {blocks : List (List α)} (hfirst : a ∉ first) (h : ∀ block ∈ blocks, a ∉ block) :
    (first ++ blocks.flatMap fun block => a :: block).splitOn a = first :: blocks := by
  induction blocks generalizing first with
  | nil => rw [List.flatMap_nil, List.append_nil, List.splitOn_eq_singleton hfirst]
  | cons block rest ih =>
      obtain ⟨hblock, hrest⟩ := List.forall_mem_cons.mp h
      rw [List.flatMap_cons, List.cons_append, List.splitOn_append_cons_self,
        List.splitOn_eq_singleton hfirst, ih hblock hrest, List.singleton_append]

/-- Pieces with a separator behind each are had back by splitting, with an empty one behind them. -/
theorem splitOn_flatMap_concat {α : Type} [BEq α] [LawfulBEq α] {a : α} {pieces : List (List α)}
    (h : ∀ piece ∈ pieces, a ∉ piece) :
    (pieces.flatMap fun piece => piece ++ [a]).splitOn a = pieces ++ [[]] := by
  induction pieces with
  | nil => exact List.splitOn_nil a
  | cons piece rest ih =>
      obtain ⟨hpiece, hrest⟩ := List.forall_mem_cons.mp h
      rw [List.flatMap_cons, List.append_assoc, List.singleton_append,
        List.splitOn_append_cons_self, List.splitOn_eq_singleton hpiece, ih hrest]
      rfl

/-! ### Lines -/

/-- Without carriage returns, the lines of a text are what stands between its line feeds, apart from
an empty end. -/
theorem Text.splitOn_eq_lines {text : List Char} (h : '\r' ∉ text) :
    text.splitOn '\n' = lines text ∨ text.splitOn '\n' = lines text ++ [[]] := by
  induction text with
  | nil => exact Or.inr rfl
  | cons c rest ih =>
      obtain ⟨hc, hrest⟩ := List.ne_and_not_mem_of_not_mem_cons h
      have ih := ih hrest
      rw [List.splitOn_cons_eq_if_modifyHead]
      by_cases hfeed : c = '\n'
      · rw [hfeed, lines_feed, if_pos (beq_self_eq_true _)]
        exact ih.imp (congrArg (List.cons [])) (congrArg (List.cons []))
      · rw [lines_cons rest hfeed (Or.inl (Ne.symm hc)), if_neg (by simpa using hfeed)]
        cases hlines : lines rest with
        | nil =>
            -- what is left is empty, so `c` is the last line
            rw [hlines] at ih
            rw [ih.resolve_left (List.splitOn_ne_nil '\n' rest)]
            exact Or.inl rfl
        | cons line others =>
            rw [hlines] at ih
            rcases ih with ih | ih
            · exact Or.inl (by rw [ih]; rfl)
            · exact Or.inr (by rw [ih]; rfl)

/-! ### Segments -/

namespace Path

theorem not_mem_of_mem_segments {p : Path} {segment : String} (h : segment ∈ p.segments) :
    '/' ∉ segment.toList := by
  obtain ⟨chars, hchars, rfl⟩ := List.mem_map.mp h
  rw [String.toList_ofList]
  exact not_mem_of_mem_splitOn hchars

/-- Segments that have been put together are the segments of the path that they make. -/
theorem segments_intercalate {segments : List String} (hne : segments ≠ [])
    (h : ∀ segment ∈ segments, '/' ∉ segment.toList) :
    (Path.mk ("/".intercalate segments)).segments = segments := by
  have hparts : ∀ chars ∈ segments.map String.toList, '/' ∉ chars := by
    intro chars hchars
    obtain ⟨segment, hsegment, rfl⟩ := List.mem_map.mp hchars
    exact h segment hsegment
  have hsplit : ("/".intercalate segments).toList.splitOn '/' = segments.map String.toList := by
    rw [String.toList_intercalate]
    exact List.splitOn_intercalate '/' hparts (by simpa using hne)
  rw [Path.segments, hsplit, List.map_map]
  simp

end Path

end Understudy
