import Referent.Vocabulary
import Referent.Text.Ends
import Referent.Name.Brackets

/-!
# The structure written into a type name

A compound type has no declaration; its name spells it out. Four shapes are read, in this
order, and any name that fits none is simple:

* arrays, `int[][]`;
* wildcards, compact `<?>`, `<?+B>`, `<?-B>` or as in sources `?`, `? extends B`, `? super B`;
* type variables, `<T>`, `<T+B1&B2>`;
* parameterized types, `java.util.Map<K,V>`, `Outer<A>.Inner<B>`.

Malformed names are simple rather than errors. What a shape is made of is uniform:
`Shape.constituents` lists each part with the relation that ties it to the whole, so the code
that links a compound type has one loop and no cases. `length_lt_of_mem_constituents` is the
fact that lets that loop look parts up recursively.
-/

namespace Referent.Name

/-- The bound of a wildcard. -/
inductive Bound
  | unbounded
  | upper (type : String)
  | lower (type : String)
  deriving DecidableEq, Repr

/-- What a type name says about the structure of its type. -/
inductive Shape
  | array (element : String) (dimensions : UInt32)
  | wildcard (bound : Bound)
  | typeVariable (name : String) (bounds : List String)
  | parameterized (base : String) (arguments : List String)
  | simple
  deriving DecidableEq, Repr

/-! ## Readers of the four shapes -/

/-- The text itself unless it is empty. -/
def nonEmpty (cs : List Char) : Option String :=
  if cs.isEmpty then none else some (String.ofList cs)

/-- How many pairs `[]` the text consists of, if it consists of such pairs. -/
def pairCount : List Char → Option Nat
  | [] => some 0
  | '[' :: ']' :: cs => (pairCount cs).map (· + 1)
  | _ => none

/-- An element followed by pairs `[]` and nothing else, cut at the first pair outside
brackets. -/
def readArray (cs : List Char) : Option Shape := do
  let (element, pairs) ← cutFirst ['[', ']'] 0 cs
  let count ← pairCount pairs
  return .array (← nonEmpty element) (UInt32.ofNat count)

/-- The bound between `<?` and `>`. -/
def readCompactBound : List Char → Option Bound
  | [] => some .unbounded
  | '+' :: cs => (nonEmpty cs).map .upper
  | '-' :: cs => (nonEmpty cs).map .lower
  | _ => none

/-- The bound behind the `?` of a wildcard as sources write it. -/
def readSourceBound (cs : List Char) : Option Bound :=
  let cs := Text.trimStart cs
  if cs.isEmpty then some .unbounded
  else match Text.dropFront? "extends ".toList cs with
    | some bound => (nonEmpty (Text.trim bound)).map .upper
    | none => match Text.dropFront? "super ".toList cs with
      | some bound => (nonEmpty (Text.trim bound)).map .lower
      | none => none

/-- A wildcard in either spelling. Text in `<?…>` is never tried as the source spelling, which
begins with another character. -/
def readWildcard (cs : List Char) : Option Shape :=
  match Text.dropFront? "<?".toList cs >>= Text.dropBack? ['>'] with
  | some inner => (readCompactBound inner).map .wildcard
  | none => match cs with
    | '?' :: rest => (readSourceBound rest).map .wildcard
    | _ => none

/-- A name and its bounds in brackets: a `+` outside inner brackets begins the bounds, which
`&` separates. -/
def readTypeVariable (cs : List Char) : Option Shape := do
  let inner ← Text.dropFront? ['<'] cs >>= Text.dropBack? ['>']
  if isBalanced inner then
    -- The bounds still begin with their `+`.
    let (name, bounds) := (cutFirst ['+'] 0 inner).getD (inner, [])
    let name ← nonEmpty (Text.trim name)
    return .typeVariable name ((items '&' (bounds.drop 1)).map String.ofList)
  else none

/-- A base with its arguments in brackets. Both may come in pieces: the base is all text
outside brackets, the arguments are those of all groups in order. -/
def readParameterized (cs : List Char) : Option Shape :=
  let arguments := (groups cs).flatMap (items ',')
  -- A base comes first, and brackets that hold no argument parameterize nothing.
  if cs.head? ≠ some '<' ∧ '<' ∈ cs ∧ isBalanced cs ∧ arguments ≠ [] then
    (nonEmpty (outside 0 cs)).map fun base => .parameterized base (arguments.map String.ofList)
  else none

/-! ## Shapes -/

namespace Shape

/-- The shape of a name. -/
def ofName (name : String) : Shape :=
  let cs := name.toList
  (readArray cs <|> readWildcard cs <|> readTypeVariable cs <|> readParameterized cs).getD .simple

/-- Whether a shape has any structure. -/
def isCompound (shape : Shape) : Bool :=
  shape != .simple

/-- The kind of entity that a compound shape makes. -/
def kind? : Shape → Option EntityKind
  | array .. => some .array
  | wildcard _ => some .wildcard
  | typeVariable .. => some .typeVariable
  | parameterized .. => some .parameterizedType
  | simple => none

/-- The dimensions that an array's row records. -/
def dimensions? : Shape → Option UInt32
  | array _ dimensions => some dimensions
  | _ => none

/-- The parts of a shape in the order they are linked, each with its relation to the whole. -/
def constituents : Shape → List (RelationKind × String)
  | array element _ => [(.hasElementsOf, element)]
  | wildcard .unbounded => []
  | wildcard (.upper type) => [(.hasUpperBound, type)]
  | wildcard (.lower type) => [(.hasLowerBound, type)]
  | typeVariable _ bounds => bounds.map fun bound => (.hasUpperBound, bound)
  | parameterized base arguments =>
    (.hasBaseType, base) :: arguments.map fun argument => (.hasTypeArgument, argument)
  | simple => []

end Shape

/-! ## Names -/

/-- Whether a name refers to a method, constructor or initializer. -/
def isMethod (name : String) : Bool :=
  name.toList.contains '('

/-- Whether a name is spelled like an array type. -/
def isArray (name : String) : Bool :=
  ['[', ']'].isSuffixOf name.toList

/-- Whether a name is a compound type and not a member reference: `a.Box<T>.f` is shaped like a
parameterized type, but a type of that shape ends with its bracket. -/
def isCompoundType (name : String) : Bool :=
  !isMethod name &&
    match Shape.ofName name with
    | .simple => false
    | .parameterized .. => name.toList.getLast? == some '>'
    | _ => true

/-- The kind of the type that lookup makes of a name. Methods are never types. -/
def compoundKind? (name : String) : Option EntityKind :=
  if isMethod name then none else (Shape.ofName name).kind?

/-! ## Constituents are shorter than the whole -/

theorem eq_ofList_of_nonEmpty {cs : List Char} {s : String} (h : nonEmpty cs = some s) :
    s = String.ofList cs := by
  unfold nonEmpty at h
  split at h <;> simp_all

theorem length_of_nonEmpty {cs : List Char} {s : String} (h : nonEmpty cs = some s) :
    s.length = cs.length := by
  rw [eq_ofList_of_nonEmpty h, String.length_ofList]

theorem readArray_shorter {cs : List Char} {shape : Shape} (h : readArray cs = some shape) :
    ∀ part ∈ shape.constituents, part.2.length < cs.length := by
  simp only [readArray, Option.bind_eq_bind, Option.bind_eq_some_iff] at h
  obtain ⟨⟨element, pairs⟩, hcut, count, -, name, hname, heq⟩ := h
  obtain rfl := Option.some.inj heq
  obtain ⟨rest, hrest⟩ := mark_prefix_of_cutFirst hcut
  have hlen := congrArg List.length (append_eq_of_cutFirst hcut)
  have := congrArg List.length hrest
  simp only [List.length_append, List.length_cons, List.length_nil] at hlen this
  simp only [Shape.constituents, List.mem_singleton, forall_eq, length_of_nonEmpty hname]
  omega

theorem readCompactBound_shorter {cs : List Char} {bound : Bound}
    (h : readCompactBound cs = some bound) :
    ∀ part ∈ (Shape.wildcard bound).constituents, part.2.length ≤ cs.length := by
  unfold readCompactBound at h
  split at h
  · obtain rfl := Option.some.inj h
    simp [Shape.constituents]
  · obtain ⟨type, htype, rfl⟩ := Option.map_eq_some_iff.1 h
    simp [Shape.constituents, length_of_nonEmpty htype]
  · obtain ⟨type, htype, rfl⟩ := Option.map_eq_some_iff.1 h
    simp [Shape.constituents, length_of_nonEmpty htype]
  · simp at h

theorem readSourceBound_shorter {cs : List Char} {bound : Bound}
    (h : readSourceBound cs = some bound) :
    ∀ part ∈ (Shape.wildcard bound).constituents, part.2.length ≤ cs.length := by
  have htrim := Text.length_trimStart_le cs
  simp only [readSourceBound] at h
  split at h
  · obtain rfl := Option.some.inj h
    simp [Shape.constituents]
  · split at h
    · rename_i rest hrest
      obtain ⟨type, htype, rfl⟩ := Option.map_eq_some_iff.1 h
      have hlen := Text.length_of_dropFront? hrest
      have := Text.length_trim_le rest
      simp only [Shape.constituents, List.mem_singleton, forall_eq, length_of_nonEmpty htype]
      omega
    · split at h
      · rename_i rest hrest
        obtain ⟨type, htype, rfl⟩ := Option.map_eq_some_iff.1 h
        have hlen := Text.length_of_dropFront? hrest
        have := Text.length_trim_le rest
        simp only [Shape.constituents, List.mem_singleton, forall_eq, length_of_nonEmpty htype]
        omega
      · simp at h

theorem readWildcard_shorter {cs : List Char} {shape : Shape} (h : readWildcard cs = some shape) :
    ∀ part ∈ shape.constituents, part.2.length < cs.length := by
  unfold readWildcard at h
  split at h
  · rename_i inner hinner
    obtain ⟨rest, hrest, hinner⟩ := Option.bind_eq_some_iff.1 hinner
    obtain ⟨bound, hbound, rfl⟩ := Option.map_eq_some_iff.1 h
    have h1 := Text.length_of_dropFront? hrest
    have h2 := Text.length_of_dropBack? hinner
    intro part hpart
    have := readCompactBound_shorter hbound part hpart
    simp only [List.length_cons, List.length_nil] at h2
    omega
  · split at h
    · rename_i rest
      obtain ⟨bound, hbound, rfl⟩ := Option.map_eq_some_iff.1 h
      exact fun part hpart => Nat.lt_succ_of_le (readSourceBound_shorter hbound part hpart)
    · simp at h

theorem readTypeVariable_shorter {cs : List Char} {shape : Shape}
    (h : readTypeVariable cs = some shape) :
    ∀ part ∈ shape.constituents, part.2.length < cs.length := by
  simp only [readTypeVariable, Option.bind_eq_bind, Option.bind_eq_some_iff,
    Option.ite_none_right_eq_some] at h
  obtain ⟨inner, ⟨rest, hrest, hinner⟩, -, name, -, heq⟩ := h
  obtain rfl := Option.some.inj heq
  have h1 := Text.length_of_dropFront? hrest
  have h2 := Text.length_of_dropBack? hinner
  have hbounds : (((cutFirst ['+'] 0 inner).getD (inner, [])).2).length ≤ inner.length := by
    cases hcut : cutFirst ['+'] 0 inner with
    | none => simp
    | some found =>
      obtain ⟨before, found⟩ := found
      have := congrArg List.length (append_eq_of_cutFirst hcut)
      simp only [List.length_append] at this
      simp only [Option.getD_some]
      omega
  intro part hpart
  simp only [Shape.constituents, List.mem_map] at hpart
  obtain ⟨-, ⟨bound, hbound, rfl⟩, rfl⟩ := hpart
  have := length_le_of_mem_items hbound
  simp only [String.length_ofList, List.length_drop, List.length_cons, List.length_nil] at *
  omega

theorem readParameterized_shorter {cs : List Char} {shape : Shape}
    (h : readParameterized cs = some shape) :
    ∀ part ∈ shape.constituents, part.2.length < cs.length := by
  simp only [readParameterized, Option.ite_none_right_eq_some, Option.map_eq_some_iff] at h
  obtain ⟨⟨-, hopen, -⟩, base, hbase, rfl⟩ := h
  intro part hpart
  simp only [Shape.constituents, List.mem_cons, List.mem_map, List.mem_flatMap] at hpart
  rcases hpart with rfl | ⟨-, ⟨argument, ⟨group, hgroup, hitem⟩, rfl⟩, rfl⟩
  · rw [length_of_nonEmpty hbase]
    exact length_outside_lt hopen 0
  · rw [String.length_ofList]
    exact Nat.lt_of_le_of_lt (length_le_of_mem_items hitem) (length_lt_of_mem_groups hgroup)

/-- Every constituent of a name is shorter than the name, however malformed. -/
theorem length_lt_of_mem_constituents {name : String} {part : RelationKind × String}
    (h : part ∈ (Shape.ofName name).constituents) : part.2.length < name.length := by
  rw [← String.length_toList]
  unfold Shape.ofName at h
  cases ha : readArray name.toList with
  | some shape => exact readArray_shorter ha part (by simpa [ha] using h)
  | none =>
    cases hw : readWildcard name.toList with
    | some shape => exact readWildcard_shorter hw part (by simpa [ha, hw] using h)
    | none =>
      cases hv : readTypeVariable name.toList with
      | some shape => exact readTypeVariable_shorter hv part (by simpa [ha, hw, hv] using h)
      | none =>
        cases hp : readParameterized name.toList with
        | some shape =>
          exact readParameterized_shorter hp part (by simpa [ha, hw, hv, hp] using h)
        | none => simp [ha, hw, hv, hp, Shape.constituents] at h

end Referent.Name
