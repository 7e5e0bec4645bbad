import Std.Data.TreeMap
import Referent.Text.Decimal

/-!
# Vocabulary: ids, kinds, origins

The words that rows, models and reports share. Ids are 32-bit and ordered, because the corpus
and the models index by them; every enumeration has one list of its members and one name per
member, and reading a name is a search of that list, so reading undoes writing as soon as the
names differ.
-/

namespace Referent

/-! ## Ids -/

/-- The persisted id of an entity row, unique over the whole corpus. -/
structure EntityId where
  val : UInt32
  deriving DecidableEq, Repr, Inhabited

/-- The id of a project. Libraries are projects too. -/
structure ProjectId where
  val : UInt32
  deriving DecidableEq, Repr, Inhabited

instance : Ord EntityId where
  compare := compareOn EntityId.val

instance : Std.TransOrd EntityId :=
  inferInstanceAs (Std.TransCmp (compareOn EntityId.val))

instance : Std.LawfulEqOrd EntityId where
  eq_of_compare {a b} h := by
    cases a; cases b
    exact congrArg EntityId.mk (Std.LawfulEqOrd.eq_of_compare h)

instance : Ord ProjectId where
  compare := compareOn ProjectId.val

instance : Std.TransOrd ProjectId :=
  inferInstanceAs (Std.TransCmp (compareOn ProjectId.val))

instance : Std.LawfulEqOrd ProjectId where
  eq_of_compare {a b} h := by
    cases a; cases b
    exact congrArg ProjectId.mk (Std.LawfulEqOrd.eq_of_compare h)

/-- How an entity id is shown. -/
def EntityId.display (id : EntityId) : String :=
  "ent_" ++ toString id.val.toNat

/-- How a project id is shown. -/
def ProjectId.display (id : ProjectId) : String :=
  "proj_" ++ toString id.val.toNat

/-! ## Entity kinds -/

/-- What an entity is. The first eleven kinds are declared in sources, the next four are made
from compound names, and the last marks placeholders. -/
inductive EntityKind
  | «class» | interface | enum | annotationType
  | constructor | method | annotationElement | enumConstant | field | package | initializer
  | array | wildcard | typeVariable | parameterizedType
  | unknown
  deriving DecidableEq, Repr, Inhabited

namespace EntityKind

/-- The kinds that sources declare. -/
def declared : List EntityKind :=
  [.class, .interface, .enum, .annotationType, .constructor, .method, .annotationElement,
   .enumConstant, .field, .package, .initializer]

/-- The kinds made from compound names. -/
def synthesized : List EntityKind :=
  [.array, .wildcard, .typeVariable, .parameterizedType]

/-- Every kind. -/
def all : List EntityKind :=
  declared ++ synthesized ++ [.unknown]

/-- Whether entities of the kind can stand at either end of an inheritance edge. -/
def isClassLike : EntityKind → Bool
  | .class | .interface | .enum | .annotationType => true
  | _ => false

/-- Whether entities of the kind are made from compound names. -/
def isSynthesized (kind : EntityKind) : Bool :=
  synthesized.contains kind

/-- The written form of a kind. -/
def name : EntityKind → String
  | .class => "class"
  | .interface => "interface"
  | .enum => "enum"
  | .annotationType => "annotation"
  | .constructor => "constructor"
  | .method => "method"
  | .annotationElement => "annotation_element"
  | .enumConstant => "enum_constant"
  | .field => "field"
  | .package => "package"
  | .initializer => "initializer"
  | .array => "array"
  | .wildcard => "wildcard"
  | .typeVariable => "type_variable"
  | .parameterizedType => "parameterized_type"
  | .unknown => "unknown"

/-- The kind with a written form. -/
def ofName? (s : String) : Option EntityKind :=
  all.find? (·.name == s)

theorem ofName?_name (kind : EntityKind) : ofName? kind.name = some kind := by
  cases kind <;> decide

end EntityKind

/-! ## Relation kinds -/

/-- What a relation says of its two ends. -/
inductive RelationKind
  | «extends» | implements
  | hasBaseType | hasElementsOf | hasLowerBound | hasUpperBound | hasTypeArgument
  deriving DecidableEq, Repr, Inhabited

namespace RelationKind

/-- Every kind. -/
def all : List RelationKind :=
  [.extends, .implements, .hasBaseType, .hasElementsOf, .hasLowerBound, .hasUpperBound,
   .hasTypeArgument]

/-- The kinds that make one type a parent of another. -/
def inheritance : List RelationKind :=
  [.extends, .implements]

/-- The written form of a kind in rows. -/
def name : RelationKind → String
  | .extends => "extends"
  | .implements => "implements"
  | .hasBaseType => "has_base_type"
  | .hasElementsOf => "has_elements_of"
  | .hasLowerBound => "has_lower_bound"
  | .hasUpperBound => "has_upper_bound"
  | .hasTypeArgument => "has_type_argument"

/-- How a kind is shown. -/
def display : RelationKind → String
  | .extends => "extends"
  | .implements => "implements"
  | .hasBaseType => "has-base-type"
  | .hasElementsOf => "has-elements-of"
  | .hasLowerBound => "has-lower-bound"
  | .hasUpperBound => "has-upper-bound"
  | .hasTypeArgument => "has-type-argument"

/-- The kind with a written form. -/
def ofName? (s : String) : Option RelationKind :=
  all.find? (·.name == s)

theorem ofName?_name (kind : RelationKind) : ofName? kind.name = some kind := by
  cases kind <;> decide

end RelationKind

/-! ## Origins -/

/-- Where a declaration lives. A relation carries the origin of its right end. -/
inductive Origin
  /-- In the project being resolved. -/
  | internal
  /-- In a shared library. -/
  | library
  /-- Nowhere: a compound type has no declaration. -/
  | notApplicable
  /-- Nowhere that is known: a placeholder. -/
  | unknown
  deriving DecidableEq, Repr, Inhabited

namespace Origin

/-- Every origin. -/
def all : List Origin :=
  [.internal, .library, .notApplicable, .unknown]

/-- The written form of an origin. -/
def name : Origin → String
  | .internal => "internal"
  | .library => "library"
  | .notApplicable => "not_applicable"
  | .unknown => "unknown"

/-- The origin with a written form. -/
def ofName? (s : String) : Option Origin :=
  all.find? (·.name == s)

theorem ofName?_name (origin : Origin) : ofName? origin.name = some origin := by
  cases origin <;> decide

end Origin

/-! ## Model modes -/

/-- Whether models also wire the inheritance between types. -/
inductive Mode
  | plain
  | virtual
  deriving DecidableEq, Repr, Inhabited

namespace Mode

/-- Every mode. -/
def all : List Mode :=
  [.plain, .virtual]

/-- The written form of a mode. -/
def name : Mode → String
  | .plain => "plain"
  | .virtual => "virtual"

/-- The mode with a written form. -/
def ofName? (s : String) : Option Mode :=
  all.find? (·.name == s)

theorem ofName?_name (mode : Mode) : ofName? mode.name = some mode := by
  cases mode <;> decide

end Mode

end Referent
