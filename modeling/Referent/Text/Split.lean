/-!
# Splitting at a separator

Unlike the items of a name, the items of a plain list are cut at every separator. There is
always at least one piece, and blank pieces are pieces.
-/

namespace Referent.Text

/-- The pieces between separators. -/
def split (sep : Char) : List Char → List (List Char)
  | [] => [[]]
  | c :: cs =>
    if c = sep then [] :: split sep cs
    else match split sep cs with
      | [] => [[c]]
      | piece :: later => (c :: piece) :: later

end Referent.Text
