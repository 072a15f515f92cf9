/-!
# Pieces between separators

A text is cut at every occurrence of a separator and put together again.  Cutting always yields at
least one piece, so the empty text is one empty piece.
-/

namespace ServiceKit
namespace Text

/-- The pieces of a text between the occurrences of a separator. -/
def pieces (separator : Char) : List Char → List (List Char)
  | [] => [[]]
  | c :: cs =>
    if c = separator then [] :: pieces separator cs
    else
      match pieces separator cs with
      | [] => [[c]]
      | p :: ps => (c :: p) :: ps

/-- The pieces put together again with the separator between them. -/
def joinPieces (separator : Char) : List (List Char) → List Char
  | [] => []
  | [p] => p
  | p :: q :: ps => p ++ separator :: joinPieces separator (q :: ps)

/-- Cutting a text yields at least one piece. -/
theorem pieces_ne_nil (separator : Char) (cs : List Char) : pieces separator cs ≠ [] := by
  induction cs with
  | nil => simp [pieces]
  | cons c cs ih =>
    by_cases h : c = separator
    · simp [pieces, h]
    · cases hp : pieces separator cs <;> simp [pieces, h, hp]

/-- Putting the pieces of a text together gives the text. -/
theorem joinPieces_pieces (separator : Char) (cs : List Char) :
    joinPieces separator (pieces separator cs) = cs := by
  induction cs with
  | nil => rfl
  | cons c cs ih =>
    cases hp : pieces separator cs with
    | nil => exact absurd hp (pieces_ne_nil separator cs)
    | cons p ps =>
      rw [hp] at ih
      by_cases h : c = separator
      · simp [pieces, h, hp, joinPieces, ih]
      · cases ps <;> simp_all [pieces, joinPieces]

/-- A separator cuts a text into what stands before and behind it, each with its own pieces. -/
theorem pieces_append (separator : Char) (cs ds : List Char) :
    pieces separator (cs ++ separator :: ds) = pieces separator cs ++ pieces separator ds := by
  induction cs with
  | nil => rw [List.nil_append, pieces, pieces, if_pos rfl, List.singleton_append]
  | cons c cs ih =>
    rw [List.cons_append, pieces, pieces, ih]
    by_cases h : c = separator
    · rw [if_pos h, if_pos h, List.cons_append]
    · obtain ⟨p, ps, hp⟩ := List.exists_cons_of_ne_nil (pieces_ne_nil separator cs)
      rw [if_neg h, if_neg h, hp]
      rfl

/-- There is one piece more than there are separators. -/
theorem length_pieces (separator : Char) (cs : List Char) :
    (pieces separator cs).length = cs.count separator + 1 := by
  induction cs with
  | nil => rfl
  | cons c cs ih =>
    rw [pieces]
    by_cases h : c = separator
    · rw [if_pos h, List.length_cons, ih, h, List.count_cons_self]
    · obtain ⟨p, ps, hp⟩ := List.exists_cons_of_ne_nil (pieces_ne_nil separator cs)
      rw [hp] at ih
      rw [if_neg h, hp, List.count_cons_of_ne h, ← ih]
      rfl

/-- A text without the separator is its only piece. -/
theorem pieces_eq_singleton {separator : Char} {cs : List Char} (h : separator ∉ cs) :
    pieces separator cs = [cs] := by
  induction cs with
  | nil => rfl
  | cons c cs ih =>
    rw [List.mem_cons, not_or] at h
    rw [pieces, if_neg (Ne.symm h.1), ih h.2]

end Text
end ServiceKit
