/-!
# ChipEight.Text.Cut

Cutting a text at a separator. There is always at least one piece, and the pieces hold no separator.

* `Cut.pieces`: the pieces between separators.
-/

namespace ChipEight
namespace Cut

/-- Puts a character in front of the first piece. -/
def attach (c : Char) : List (List Char) → List (List Char)
  | [] => [[c]]
  | p :: ps => (c :: p) :: ps

/-- The pieces of a text between separators. -/
def pieces (separator : Char) : List Char → List (List Char)
  | [] => [[]]
  | c :: rest =>
    if c = separator then [] :: pieces separator rest else attach c (pieces separator rest)

end Cut
end ChipEight
