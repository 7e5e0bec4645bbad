/-!
# Fixed beginnings and endings

Names and tokens are recognised by how they begin and end. Taking a fixed end off gives what
is left, if the text has that end; the two equations here say that nothing else is lost.
-/

namespace Referent.Text

/-- What is left of a text that begins with `front`. -/
def dropFront? : (front : List Char) → List Char → Option (List Char)
  | [], cs => some cs
  | _ :: _, [] => none
  | f :: front, c :: cs => if f = c then dropFront? front cs else none

/-- What is left of a text that ends with `back`. -/
def dropBack? (back cs : List Char) : Option (List Char) :=
  (dropFront? back.reverse cs.reverse).map List.reverse

theorem dropFront?_eq_some {front cs rest : List Char} :
    dropFront? front cs = some rest ↔ front ++ rest = cs := by
  induction front generalizing cs with
  | nil => simp [dropFront?, eq_comm]
  | cons f front ih => cases cs <;> simp [dropFront?, ih]

theorem dropBack?_eq_some {back cs rest : List Char} :
    dropBack? back cs = some rest ↔ rest ++ back = cs := by
  rw [dropBack?, Option.map_eq_some_iff]
  constructor
  · rintro ⟨reversed, h, rfl⟩
    rw [← List.reverse_inj, List.reverse_append, List.reverse_reverse]
    exact dropFront?_eq_some.1 h
  · rintro rfl
    exact ⟨rest.reverse, dropFront?_eq_some.2 (by simp), by simp⟩

theorem length_of_dropFront? {front cs rest : List Char} (h : dropFront? front cs = some rest) :
    cs.length = front.length + rest.length := by
  rw [← dropFront?_eq_some.1 h, List.length_append]

theorem length_of_dropBack? {back cs rest : List Char} (h : dropBack? back cs = some rest) :
    cs.length = rest.length + back.length := by
  rw [← dropBack?_eq_some.1 h, List.length_append]

end Referent.Text
