import Referent.Name.Shape

/-!
# Member references

`receiver.member` is cut at the last dot that stands outside brackets and ahead of the first
parenthesis, so dots in type arguments and in signatures never split a name. `MemberRef.name`
puts the two halves together again.
-/

namespace Referent.Name

/-- A reference to a member of a type. The member of a method carries its signature. -/
structure MemberRef where
  receiver : String
  member : String
  deriving DecidableEq, Repr

/-- The member name of constructors begins with this. -/
def constructorName : String := "<init>"

/-- The member name of static initializers begins with this. -/
def initializerName : String := "<clinit>"

/-- The name of `member` in the type called `receiver`. -/
def memberName (receiver member : String) : String :=
  receiver ++ "." ++ member

namespace MemberRef

/-- The receiver and member of a name, if it has a dot to be cut at. -/
def ofName? (name : String) : Option MemberRef :=
  let cs := name.toList
  (cutLast '.' 0 (cs.takeWhile (· != '('))).map fun (receiver, rest) =>
    { receiver := String.ofList receiver
      member := String.ofList (rest ++ cs.dropWhile (· != '(')) }

/-- The name that refers to this member. -/
def name (ref : MemberRef) : String :=
  memberName ref.receiver ref.member

/-- Whether the member is a method. -/
def isMethod (ref : MemberRef) : Bool :=
  Name.isMethod ref.member

/-- Constructors and static initializers belong to one type and are never inherited. -/
def isConstructorOrInitializer (ref : MemberRef) : Bool :=
  constructorName.toList.isPrefixOf ref.member.toList ||
    initializerName.toList.isPrefixOf ref.member.toList

theorem name_of_ofName? {name : String} {ref : MemberRef} (h : ofName? name = some ref) :
    ref.name = name := by
  simp only [ofName?, Option.map_eq_some_iff] at h
  obtain ⟨⟨receiver, rest⟩, hcut, rfl⟩ := h
  have hhead := append_eq_of_cutLast hcut
  rw [← String.toList_inj]
  simp only [MemberRef.name, memberName, String.toList_append, String.toList_ofList]
  calc receiver ++ ".".toList ++ (rest ++ name.toList.dropWhile (· != '('))
      = (receiver ++ '.' :: rest) ++ name.toList.dropWhile (· != '(') := by simp
    _ = name.toList := by rw [hhead, List.takeWhile_append_dropWhile]

end MemberRef

end Referent.Name
