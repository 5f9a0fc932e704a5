import Mathlib.Data.List.Basic

/-! A text cut at a separator, and wherever a piece has reached a bound. -/

namespace Foundation

variable {α : Type*} [DecidableEq α]

/-- The pieces of a text, with the piece that is open at its start. -/
def pieces (separator : α) (bound : Nat) : List α → List α → List (List α)
  -- The end of the text is no piece of its own.
  | piece, [] => if piece = [] then [] else [piece]
  | piece, c :: rest =>
    if c = separator then piece :: pieces separator bound [] rest
    else if piece.length + 1 = bound then (piece ++ [c]) :: pieces separator bound [] rest
    else pieces separator bound (piece ++ [c]) rest

section Pieces

variable {separator : α} {bound : Nat}

/-- A run without a separator that stays below the bound is added to the open piece. -/
theorem pieces_open {piece run : List α} (rest : List α) (plain : separator ∉ run)
    (below : piece.length + run.length < bound) :
    pieces separator bound piece (run ++ rest) = pieces separator bound (piece ++ run) rest := by
  -- The induction follows the run, whose bytes join the open piece one by one.
  induction run generalizing piece with
  | nil => simp
  | cons c run ih =>
    simp only [List.mem_cons, not_or] at plain
    simp only [List.length_cons] at below
    rw [List.cons_append, pieces, if_neg fun same => plain.1 same.symm, if_neg (by omega),
      ih plain.2 (by simp only [List.length_append, List.length_singleton]; omega)]
    simp

/-- A run that reaches the bound is a piece. -/
theorem pieces_full {run : List α} (rest : List α) (plain : separator ∉ run)
    (full : run.length = bound) (some : run ≠ []) :
    pieces separator bound [] (run ++ rest) = run :: pieces separator bound [] rest := by
  -- The last byte of the run is the one that reaches the bound.
  obtain ⟨front, c, rfl⟩ : ∃ front c, run = front ++ [c] :=
    ⟨run.dropLast, run.getLast some, (List.dropLast_append_getLast some).symm⟩
  simp only [List.length_append, List.length_singleton, List.mem_append,
    List.mem_singleton, not_or] at plain full
  rw [List.append_assoc, pieces_open _ plain.1 (by simp only [List.length_nil]; omega),
    List.nil_append, List.singleton_append, pieces, if_neg fun same => plain.2 same.symm,
    if_pos full]

/-- A run that ends with a separator below the bound is a piece. -/
theorem pieces_line {run : List α} (rest : List α) (plain : separator ∉ run)
    (below : run.length < bound) :
    pieces separator bound [] (run ++ separator :: rest) =
      run :: pieces separator bound [] rest := by
  rw [pieces_open _ plain (by simpa using below), List.nil_append, pieces, if_pos rfl]

/-- The end of the text ends its last piece. -/
theorem pieces_last {run : List α} (plain : separator ∉ run) (below : run.length < bound)
    (some : run ≠ []) : pieces separator bound [] run = [run] := by
  have last : pieces separator bound [] (run ++ []) = pieces separator bound ([] ++ run) [] :=
    pieces_open [] plain (by simpa using below)
  rw [List.append_nil] at last
  rw [last, List.nil_append, pieces, if_neg some]

/-- Where no line reaches the bound, the pieces are the lines, but for empty ones. -/
theorem pieces_of_short [BEq α] [LawfulBEq α] {picked : List α → Bool} (blank : picked [] = false)
    {text : List α} (piece : List α)
    (short : ∀ line ∈ (text.splitOn separator).modifyHead (piece ++ ·), line.length < bound) :
    (pieces separator bound piece text).filter picked =
      ((text.splitOn separator).modifyHead (piece ++ ·)).filter picked := by
  -- The induction follows the text, and the open piece is in front of its first line.
  induction text generalizing piece with
  | nil =>
    by_cases none : piece = []
    · subst none
      simp [pieces, blank]
    · simp [pieces, none]
  | cons c rest ih =>
    obtain ⟨line, lines, split⟩ := List.exists_cons_of_ne_nil (List.splitOn_ne_nil separator rest)
    rw [List.splitOn_cons_eq_if_modifyHead, split] at short ⊢
    rw [split] at ih
    simp only [List.modifyHead_cons] at ih
    by_cases ends : c = separator
    · rw [if_pos (by simpa using ends)] at short ⊢
      simp only [List.modifyHead_cons, List.append_nil, List.mem_cons, forall_eq_or_imp] at short ⊢
      have later := ih [] (by simpa using short.2)
      rw [pieces, if_pos ends, List.filter_cons, List.filter_cons, later, List.nil_append]
    · rw [if_neg (by simpa using ends)] at short ⊢
      simp only [List.modifyHead_cons] at short ⊢
      have joined : piece ++ c :: line = piece ++ [c] ++ line := by simp
      rw [joined] at short ⊢
      -- The line that this byte is on is longer than the open piece.
      have first := short _ List.mem_cons_self
      simp only [List.length_append, List.length_singleton] at first
      rw [pieces, if_neg ends, if_neg (by omega)]
      exact ih (piece ++ [c]) short

end Pieces

end Foundation
