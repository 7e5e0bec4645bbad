import Referent.Name.Shape
import Referent.Proofs.Nesting

/-!
# Terms are read back as they are written

A type that is put together from other types has a name that is put together from theirs: an
array appends pairs `[]`, a wildcard, a type variable and a group of arguments put brackets around
them. `Term` is the grammar of such types and `Term.name` writes them down. The reader takes such
a name apart again at its outermost level, whatever is nested within
(`Term.reading_undoes_writing`): it finds the shape of the outermost constructor, made of the
names of exactly its parts.

* **What a name looks like from outside**: the brackets in it pair up (`Term.paired`), only pairs
  `[]` and the text of simple names stand outside (`Term.not_mem_outside`), and no white space is
  at its ends (`Term.solid`). So no cut at a separator goes through a part, and no trimming
  changes one.
* **One reader after the other**: readers that come before the right one find nothing, since the
  names of types that are no arrays show no `[` outside, and since only wildcards begin with `<?`.
-/

namespace Referent.Name

/-! ## The grammar -/

/-- The characters that compound names are built with. -/
def marks : List Char := ['<', '>', '[', ']', ',', '&', '+', '?', '(', ')']

/-- There is no white space at the ends. -/
structure Solid (cs : List Char) : Prop where
  head : ∀ c ∈ cs.head?, Text.isBlank c = false
  last : ∀ c ∈ cs.getLast?, Text.isBlank c = false

/-- Text without structure, maybe empty. -/
structure Segment where
  chars : List Char
  unmarked : ∀ c ∈ chars, c ∉ marks
  solid : Solid chars

/-- A name without structure. -/
structure SimpleName extends Segment where
  nonempty : chars ≠ []

mutual

/-- A type that is no array. -/
inductive Plain
  | simple (name : SimpleName)
  /-- The wildcard without a bound. -/
  | anything
  | upper (bound : Term)
  | lower (bound : Term)
  | typeVariable (name : SimpleName)
  | boundedVariable (name : SimpleName) (bounds : Terms)
  | parameterized (base : SimpleName) (groups : Groups)

/-- A type. -/
inductive Term
  | plain (type : Plain)
  | array (element : Plain) (dimensions : Nat) (positive : 0 < dimensions)

/-- One type or more. -/
inductive Terms
  | one (term : Term)
  | more (term : Term) (terms : Terms)

/-- One group of arguments or more, each with the piece of the base that follows it. -/
inductive Groups
  | one (arguments : Terms) (behind : Segment)
  | more (arguments : Terms) (between : Segment) (groups : Groups)

end

/-- Text in brackets. -/
def inBrackets (cs : List Char) : List Char :=
  '<' :: (cs ++ ['>'])

/-- Pairs `[]`, as many as there are dimensions. -/
def pairs : Nat → List Char
  | 0 => []
  | dimensions + 1 => '[' :: ']' :: pairs dimensions

mutual

/-- The text of a type that is no array. -/
def Plain.chars : Plain → List Char
  | .simple name => name.chars
  | .anything => inBrackets ['?']
  | .upper bound => inBrackets ('?' :: '+' :: bound.chars)
  | .lower bound => inBrackets ('?' :: '-' :: bound.chars)
  | .typeVariable name => inBrackets name.chars
  | .boundedVariable name bounds => inBrackets (name.chars ++ '+' :: bounds.chars '&')
  | .parameterized base groups => base.chars ++ groups.chars

/-- The text of a type. -/
def Term.chars : Term → List Char
  | .plain type => type.chars
  | .array element dimensions _ => element.chars ++ pairs dimensions

/-- The texts of types, with a separator between them. -/
def Terms.chars (sep : Char) : Terms → List Char
  | .one term => term.chars
  | .more term terms => term.chars ++ sep :: terms.chars sep

/-- The text of groups of arguments and of what follows them. -/
def Groups.chars : Groups → List Char
  | .one arguments behind => '<' :: (arguments.chars ',' ++ '>' :: behind.chars)
  | .more arguments between groups =>
    '<' :: (arguments.chars ',' ++ '>' :: (between.chars ++ groups.chars))

end

/-! ## What is to be read -/

/-- The types, in order. -/
def Terms.toList : Terms → List Term
  | .one term => [term]
  | .more term terms => term :: terms.toList

/-- The arguments of all groups, in order. -/
def Groups.arguments : Groups → List Term
  | .one arguments _ => arguments.toList
  | .more arguments _ groups => arguments.toList ++ groups.arguments

/-- The pieces of the base that follow the groups, put together. -/
def Groups.segments : Groups → List Char
  | .one _ behind => behind.chars
  | .more _ between groups => between.chars ++ groups.segments

/-- The name of a type that is no array. -/
def Plain.name (type : Plain) : String :=
  String.ofList type.chars

/-- The name of a type. -/
def Term.name (term : Term) : String :=
  String.ofList term.chars

/-- The outermost constructor of a type that is no array, with the names of its parts. -/
def Plain.shape : Plain → Shape
  | .simple _ => .simple
  | .anything => .wildcard .unbounded
  | .upper bound => .wildcard (.upper bound.name)
  | .lower bound => .wildcard (.lower bound.name)
  | .typeVariable name => .typeVariable (String.ofList name.chars) []
  | .boundedVariable name bounds =>
    .typeVariable (String.ofList name.chars) (bounds.toList.map Term.name)
  | .parameterized base groups =>
    .parameterized (String.ofList (base.chars ++ groups.segments))
      (groups.arguments.map Term.name)

/-- The outermost constructor of a type with the names of its parts. Dimensions are counted in 32
bits. -/
def Term.shape : Term → Shape
  | .plain type => type.shape
  | .array element dimensions _ => .array element.name (UInt32.ofNat dimensions)

/-! ## Brackets pair up -/

theorem Segment.free (segment : Segment) : ∀ c ∈ segment.chars, c ≠ '<' ∧ c ≠ '>' := by
  intro c hc
  have hmark := segment.unmarked c hc
  constructor
  · rintro rfl
    exact hmark (by decide)
  · rintro rfl
    exact hmark (by decide)

theorem Segment.paired (segment : Segment) : Paired segment.chars :=
  .of_free segment.free

theorem Segment.outside_chars (segment : Segment) : outside 0 segment.chars = segment.chars :=
  outside_of_free segment.free

theorem mem_pairs {dimensions : Nat} {c : Char} (h : c ∈ pairs dimensions) : c = '[' ∨ c = ']' := by
  induction dimensions with
  | zero => cases h
  | succ dimensions ih =>
    rw [pairs, List.mem_cons, List.mem_cons] at h
    rcases h with h | h | h
    · exact .inl h
    · exact .inr h
    · exact ih h

theorem pairs_free (dimensions : Nat) : ∀ c ∈ pairs dimensions, c ≠ '<' ∧ c ≠ '>' := by
  intro c hc
  rcases mem_pairs hc with rfl | rfl <;> decide

/-- What a wildcard with a bound has in its brackets. -/
theorem Paired.signed {sign : Char} {bound : List Char} (hsign : sign = '+' ∨ sign = '-')
    (h : Paired bound) : Paired ('?' :: sign :: bound) := by
  refine .char (by decide) (by decide) ?_
  rcases hsign with rfl | rfl
  · exact .char (by decide) (by decide) h
  · exact .char (by decide) (by decide) h

/-- What a type variable with bounds has in its brackets. -/
theorem Paired.bounded (name : SimpleName) {bounds : List Char} (h : Paired bounds) :
    Paired (name.chars ++ '+' :: bounds) :=
  .append name.paired (.char (by decide) (by decide) h)

/-- The separators within types. -/
def separators : List Char := [',', '&']

theorem separators_free : ∀ sep ∈ separators, sep ≠ '<' ∧ sep ≠ '>' := by
  simp [separators]

mutual

theorem Plain.paired : ∀ type : Plain, Paired type.chars
  | .simple name => by
    rw [Plain.chars]
    exact name.paired
  | .anything => by
    rw [Plain.chars]
    exact .enclosed (.char (by decide) (by decide) .nil)
  | .upper bound => by
    rw [Plain.chars]
    exact .enclosed (.signed (.inl rfl) bound.paired)
  | .lower bound => by
    rw [Plain.chars]
    exact .enclosed (.signed (.inr rfl) bound.paired)
  | .typeVariable name => by
    rw [Plain.chars]
    exact .enclosed name.paired
  | .boundedVariable name bounds => by
    rw [Plain.chars]
    exact .enclosed (.bounded name (bounds.paired (by decide)))
  | .parameterized base groups => by
    rw [Plain.chars]
    exact .append base.paired groups.paired

/-- The brackets in the text of a type pair up. -/
theorem Term.paired : ∀ term : Term, Paired term.chars
  | .plain type => by
    rw [Term.chars]
    exact type.paired
  | .array element dimensions _ => by
    rw [Term.chars]
    exact .append element.paired (.of_free (pairs_free dimensions))

theorem Terms.paired {sep : Char} (hsep : sep ∈ separators) :
    ∀ terms : Terms, Paired (terms.chars sep)
  | .one term => by
    rw [Terms.chars]
    exact term.paired
  | .more term terms => by
    rw [Terms.chars]
    obtain ⟨hopen, hclose⟩ := separators_free sep hsep
    exact .append term.paired (.char hopen hclose (terms.paired hsep))

theorem Groups.paired : ∀ groups : Groups, Paired groups.chars
  | .one arguments behind => by
    rw [Groups.chars]
    exact .brackets (arguments.paired (by decide)) behind.paired
  | .more arguments between groups => by
    rw [Groups.chars]
    exact .brackets (arguments.paired (by decide))
      (.append between.paired groups.paired)

end

/-! ## What stands outside -/

theorem outside_inBrackets {inner : List Char} (h : Paired inner) :
    outside 0 (inBrackets inner) = [] :=
  h.outside_brackets []

/-- Outside the groups there is nothing but the pieces of the base. -/
theorem Groups.outside_chars : ∀ groups : Groups, outside 0 groups.chars = groups.segments
  | .one arguments behind => by
    rw [chars, (arguments.paired (by decide)).outside_brackets,
      behind.outside_chars, segments]
  | .more arguments between groups => by
    rw [chars, (arguments.paired (by decide)).outside_brackets,
      between.paired.outside_append, between.outside_chars, groups.outside_chars, segments]

theorem Groups.segments_unmarked : ∀ groups : Groups, ∀ c ∈ groups.segments, c ∉ marks
  | .one _ behind => by
    rw [segments]
    exact behind.unmarked
  | .more _ between groups => by
    intro c hc
    rw [segments, List.mem_append] at hc
    exact hc.elim (between.unmarked c) (groups.segments_unmarked c)

/-- What stands outside in a parameterized type. -/
theorem outside_parameterized (base : SimpleName) (groups : Groups) :
    outside 0 (base.chars ++ groups.chars) = base.chars ++ groups.segments := by
  rw [base.paired.outside_append, base.outside_chars, groups.outside_chars]

/-- Outside the brackets of a type that is no array, nothing but simple text stands. -/
theorem Plain.outside_unmarked (type : Plain) : ∀ c ∈ outside 0 type.chars, c ∉ marks := by
  have hnone {inner : List Char} (h : Paired inner) :
      ∀ c ∈ outside 0 (inBrackets inner), c ∉ marks := by
    rw [outside_inBrackets h]
    exact fun _ hc => absurd hc List.not_mem_nil
  cases type with
  | simple name =>
    rw [chars, name.outside_chars]
    exact name.unmarked
  | anything => exact hnone (.char (by decide) (by decide) .nil)
  | upper bound => exact hnone (.signed (.inl rfl) bound.paired)
  | lower bound => exact hnone (.signed (.inr rfl) bound.paired)
  | typeVariable name => exact hnone name.paired
  | boundedVariable name bounds =>
    exact hnone (.bounded name (bounds.paired (by decide)))
  | parameterized base groups =>
    rw [chars, outside_parameterized]
    intro c hc
    exact (List.mem_append.1 hc).elim (base.unmarked c) (groups.segments_unmarked c)

/-- Arrays show their pairs outside, and no type shows anything else but simple text. -/
theorem Term.outside_cases (term : Term) :
    ∀ c ∈ outside 0 term.chars, c ∉ marks ∨ c = '[' ∨ c = ']' := by
  intro c hc
  cases term with
  | plain type => exact .inl (type.outside_unmarked c hc)
  | array element dimensions _ =>
    rw [chars, element.paired.outside_append, List.mem_append,
      outside_of_free (pairs_free dimensions)] at hc
    exact hc.imp (element.outside_unmarked c) mem_pairs

theorem Term.separator_not_mem_outside {sep : Char} (hsep : sep ∈ separators) (term : Term) :
    sep ∉ outside 0 term.chars := by
  intro hmem
  have hcases := term.outside_cases sep hmem
  revert hcases
  simp only [separators, List.mem_cons, List.not_mem_nil, or_false] at hsep
  rcases hsep with rfl | rfl <;> decide

/-! ## What stands at the ends -/

theorem solid_inBrackets (inner : List Char) : Solid (inBrackets inner) where
  head c hc := by
    obtain rfl : '<' = c := by simpa [inBrackets] using hc
    decide
  last c hc := by
    obtain rfl : '>' = c := by simpa [inBrackets, List.getLast?_cons] using hc
    decide

theorem Solid.append {cs more : List Char} (h : Solid cs) (hne : cs ≠ [])
    (hlast : ∀ c ∈ more.getLast?, Text.isBlank c = false) : Solid (cs ++ more) where
  head c hc := by
    obtain ⟨first, rest, rfl⟩ := List.exists_cons_of_ne_nil hne
    exact h.head c hc
  last c hc := by
    rw [List.getLast?_append, Option.mem_def, Option.or_eq_some_iff] at hc
    rcases hc with hc | ⟨-, hc⟩
    · exact hlast c hc
    · exact h.last c hc

/-- Trimming takes away nothing. -/
theorem Solid.trim {cs : List Char} (h : Solid cs) : Text.trim cs = cs := by
  rw [Text.trim, Text.trimStart_of_head h.head, Text.trimEnd_of_last h.last]

theorem Groups.last_solid : ∀ groups : Groups,
    ∀ c ∈ groups.chars.getLast?, Text.isBlank c = false
  | .one arguments behind => by
    have hsplit : (Groups.one arguments behind).chars =
        inBrackets (arguments.chars ',') ++ behind.chars := by
      simp [chars, inBrackets]
    rw [hsplit]
    exact ((solid_inBrackets _).append (List.cons_ne_nil _ _) behind.solid.last).last
  | .more arguments between groups => by
    have hsplit : (Groups.more arguments between groups).chars =
        inBrackets (arguments.chars ',') ++ (between.chars ++ groups.chars) := by
      simp [chars, inBrackets]
    have hrest : ∀ c ∈ (between.chars ++ groups.chars).getLast?, Text.isBlank c = false := by
      intro c hc
      rw [List.getLast?_append, Option.mem_def, Option.or_eq_some_iff] at hc
      rcases hc with hc | ⟨-, hc⟩
      · exact groups.last_solid c hc
      · exact between.solid.last c hc
    rw [hsplit]
    exact ((solid_inBrackets _).append (List.cons_ne_nil _ _) hrest).last

theorem Plain.chars_ne_nil (type : Plain) : type.chars ≠ [] := by
  cases type with
  | simple name => exact name.nonempty
  | parameterized base groups => simp [chars, base.nonempty]
  | _ => exact List.cons_ne_nil _ _

theorem Plain.solid (type : Plain) : Solid type.chars := by
  cases type with
  | simple name => exact name.solid
  | parameterized base groups =>
    rw [chars]
    exact base.solid.append base.nonempty groups.last_solid
  | _ => exact solid_inBrackets _

theorem Term.chars_ne_nil (term : Term) : term.chars ≠ [] := by
  cases term with
  | plain type => exact type.chars_ne_nil
  | array element dimensions _ => simp [chars, element.chars_ne_nil]

/-- No type begins or ends with white space. -/
theorem Term.solid (term : Term) : Solid term.chars := by
  cases term with
  | plain type => exact type.solid
  | array element dimensions _ =>
    rw [chars]
    apply element.solid.append element.chars_ne_nil
    intro c hc
    rcases mem_pairs (List.mem_of_getLast? hc) with rfl | rfl <;> decide

/-! ## Lists of types -/

/-- Cutting at a separator gives the types back, whatever separators there are within them. -/
theorem Terms.cutAll_chars {sep : Char} (hsep : sep ∈ separators) : ∀ terms : Terms,
    (cutAll sep 0 (terms.chars sep)).1 :: (cutAll sep 0 (terms.chars sep)).2 =
      terms.toList.map Term.chars
  | .one term => by
    have hcut := term.paired.cutAll_append (separators_free sep hsep).1
      (fun _ : 0 = 0 => term.separator_not_mem_outside hsep) []
    rw [List.append_nil] at hcut
    rw [chars, hcut]
    simp [cutAll, toList]
  | .more term terms => by
    obtain ⟨hopen, hclose⟩ := separators_free sep hsep
    have hcut := term.paired.cutAll_append hopen
      (fun _ : 0 = 0 => term.separator_not_mem_outside hsep) (sep :: terms.chars sep)
    rw [chars, hcut, toList, List.map_cons, ← terms.cutAll_chars hsep]
    simp [cutAll, depthAfter_of_ne hopen hclose]

/-- The items of a list of types are the types. -/
theorem Terms.items_chars {sep : Char} (hsep : sep ∈ separators) (terms : Terms) :
    items sep (terms.chars sep) = terms.toList.map Term.chars := by
  have hcut := terms.cutAll_chars hsep
  rw [items]
  simp only
  rw [hcut, List.map_map]
  have htrim : Text.trim ∘ Term.chars = Term.chars := funext fun term => term.solid.trim
  rw [htrim, List.filter_eq_self]
  intro piece hpiece
  obtain ⟨term, -, rfl⟩ := List.mem_map.1 hpiece
  simp [term.chars_ne_nil]

/-- The items of all groups are the arguments. -/
theorem Groups.items_groups : ∀ groups : Groups,
    (Name.groups groups.chars).flatMap (items ',') = groups.arguments.map Term.chars
  | .one arguments behind => by
    have hbehind := groups_append_of_free behind.free []
    rw [List.append_nil] at hbehind
    rw [chars, (arguments.paired (by decide)).groups_brackets, hbehind]
    simp [Name.groups, groupsFrom, arguments.items_chars (show ',' ∈ separators by decide),
      Groups.arguments]
  | .more arguments between groups => by
    rw [chars, (arguments.paired (by decide)).groups_brackets,
      groups_append_of_free between.free, List.flatMap_cons,
      arguments.items_chars (by decide), groups.items_groups, Groups.arguments, List.map_append]

theorem Terms.toList_ne_nil (terms : Terms) : terms.toList ≠ [] := by
  cases terms <;> exact List.cons_ne_nil _ _

theorem Groups.arguments_ne_nil (groups : Groups) : groups.arguments ≠ [] := by
  cases groups with
  | one arguments behind => exact arguments.toList_ne_nil
  | more arguments between groups => simp [Groups.arguments, arguments.toList_ne_nil]

/-! ## Readers -/

theorem nonEmpty_of_ne_nil {cs : List Char} (h : cs ≠ []) :
    nonEmpty cs = some (String.ofList cs) := by
  simp [nonEmpty, h]

theorem dropBrackets (inner : List Char) :
    (Text.dropFront? ['<'] (inBrackets inner) >>= Text.dropBack? ['>']) = some inner := by
  have hfront : Text.dropFront? ['<'] (inBrackets inner) = some (inner ++ ['>']) :=
    Text.dropFront?_eq_some.2 rfl
  have hback : Text.dropBack? ['>'] (inner ++ ['>']) = some inner :=
    Text.dropBack?_eq_some.2 rfl
  rw [hfront]
  exact hback

/-- A simple name begins with a character that is no mark. -/
theorem SimpleName.exists_head (name : SimpleName) :
    ∃ c rest, name.chars = c :: rest ∧ c ≠ '<' ∧ c ≠ '?' := by
  obtain ⟨c, rest, hchars⟩ := List.exists_cons_of_ne_nil name.nonempty
  have hmark := name.unmarked c (by rw [hchars]; exact List.mem_cons_self)
  refine ⟨c, rest, hchars, ?_, ?_⟩
  · rintro rfl
    exact hmark (by decide)
  · rintro rfl
    exact hmark (by decide)

/-- Text with no `[` outside is no array. -/
theorem readArray_eq_none {cs : List Char} (h : Paired cs) (hfree : '[' ∉ outside 0 cs) :
    readArray cs = none := by
  have hcut : cutFirst ['[', ']'] 0 (cs ++ []) = none :=
    h.cutFirst_append [']'] (by decide) (fun _ => hfree) []
  rw [List.append_nil] at hcut
  simp [readArray, hcut]

theorem Plain.readArray_chars (type : Plain) : readArray type.chars = none :=
  readArray_eq_none type.paired fun hmem => type.outside_unmarked _ hmem (by decide)

theorem pairCount_pairs (dimensions : Nat) : pairCount (pairs dimensions) = some dimensions := by
  induction dimensions with
  | zero => rfl
  | succ dimensions ih => rw [pairs, pairCount, ih, Option.map_some]

/-- An array is cut behind its element, which has no pair outside. -/
theorem Plain.readArray_pairs (element : Plain) {dimensions : Nat} (hpositive : 0 < dimensions) :
    readArray (element.chars ++ pairs dimensions) =
      some (.array element.name (UInt32.ofNat dimensions)) := by
  have hfree : '[' ∉ outside 0 element.chars :=
    fun hmem => element.outside_unmarked _ hmem (by decide)
  have hpairs : cutFirst ['[', ']'] 0 (pairs dimensions) = some ([], pairs dimensions) := by
    obtain ⟨fewer, rfl⟩ := Nat.exists_eq_add_one_of_ne_zero (Nat.ne_of_gt hpositive)
    simp [pairs, cutFirst]
  have hcut := element.paired.cutFirst_append [']'] (show '[' ≠ '<' by decide)
    (fun _ : 0 = 0 => hfree) (pairs dimensions)
  rw [hpairs] at hcut
  simp [readArray, hcut, pairCount_pairs, nonEmpty_of_ne_nil element.chars_ne_nil, Plain.name]

/-- What a wildcard has behind its `?` is its bound. -/
theorem readWildcard_inBrackets (bound : List Char) :
    readWildcard (inBrackets ('?' :: bound)) = (readCompactBound bound).map .wildcard := by
  have hfront : Text.dropFront? "<?".toList (inBrackets ('?' :: bound)) = some (bound ++ ['>']) :=
    Text.dropFront?_eq_some.2 rfl
  have hback : Text.dropBack? ['>'] (bound ++ ['>']) = some bound :=
    Text.dropBack?_eq_some.2 rfl
  have hboth : (Text.dropFront? "<?".toList (inBrackets ('?' :: bound)) >>= Text.dropBack? ['>']) =
      some bound := by
    rw [hfront]
    exact hback
  unfold readWildcard
  rw [hboth]

/-- Text that begins neither with `<?` nor with `?` is no wildcard. -/
theorem readWildcard_eq_none {cs : List Char} (hfront : ¬ ['<', '?'] <+: cs)
    (hhead : cs.head? ≠ some '?') : readWildcard cs = none := by
  have hnone : Text.dropFront? "<?".toList cs = none := by
    rw [Option.eq_none_iff_forall_ne_some]
    intro rest hrest
    exact hfront ⟨rest, Text.dropFront?_eq_some.1 hrest⟩
  unfold readWildcard
  rw [hnone]
  cases cs with
  | nil => rfl
  | cons c cs =>
    have hc : c ≠ '?' := by simpa using hhead
    simp [hc]

theorem SimpleName.readWildcard_append (name : SimpleName) (rest : List Char) :
    readWildcard (name.chars ++ rest) = none := by
  obtain ⟨c, more, hchars, hopen, hquestion⟩ := name.exists_head
  rw [hchars]
  apply readWildcard_eq_none
  · simp [hopen.symm]
  · simp [hquestion]

theorem SimpleName.readWildcard_inBrackets (name : SimpleName) (rest : List Char) :
    readWildcard (inBrackets (name.chars ++ rest)) = none := by
  obtain ⟨c, more, hchars, hopen, hquestion⟩ := name.exists_head
  rw [hchars]
  apply readWildcard_eq_none
  · simp [inBrackets, hquestion.symm]
  · simp [inBrackets]

/-- Text that does not begin with a bracket is no type variable. -/
theorem SimpleName.readTypeVariable_append (name : SimpleName) (rest : List Char) :
    readTypeVariable (name.chars ++ rest) = none := by
  obtain ⟨c, more, hchars, hopen, -⟩ := name.exists_head
  simp [readTypeVariable, hchars, Text.dropFront?, hopen.symm]

/-- A type variable in brackets is read up to its first `+` outside. -/
theorem SimpleName.readTypeVariable_inBrackets (name : SimpleName) {rest : List Char}
    (hrest : Paired rest) (hbounds : rest = [] ∨ ∃ bounds, rest = '+' :: bounds) :
    readTypeVariable (inBrackets (name.chars ++ rest)) =
      some (.typeVariable (String.ofList name.chars)
        ((items '&' (rest.drop 1)).map String.ofList)) := by
  have hpaired : Paired (name.chars ++ rest) := .append name.paired hrest
  have hfree : '+' ∉ outside 0 name.chars := by
    rw [name.outside_chars]
    exact fun hmem => name.unmarked _ hmem (by decide)
  have hcut := name.paired.cutFirst_append [] (show '+' ≠ '<' by decide)
    (fun _ : 0 = 0 => hfree) rest
  have hfound : (cutFirst ['+'] 0 (name.chars ++ rest)).getD (name.chars ++ rest, []) =
      (name.chars, rest) := by
    rw [hcut]
    rcases hbounds with rfl | ⟨bounds, rfl⟩ <;> simp [cutFirst]
  simp only [readTypeVariable, Option.bind_eq_bind]
  have hbrackets := dropBrackets (name.chars ++ rest)
  rw [Option.bind_eq_bind] at hbrackets
  rw [hbrackets, Option.bind_some, if_pos hpaired.isBalanced, hfound]
  simp [name.solid.trim, nonEmpty_of_ne_nil name.nonempty]

theorem SimpleName.readParameterized_chars (name : SimpleName) :
    readParameterized name.chars = none := by
  have hnone : '<' ∉ name.chars := fun hmem => (name.free _ hmem).1 rfl
  simp [readParameterized, hnone]

/-- A parameterized type is read as the pieces of its base and the arguments of its groups. -/
theorem readParameterized_append (base : SimpleName) (groups : Groups) :
    readParameterized (base.chars ++ groups.chars) =
      some (.parameterized (String.ofList (base.chars ++ groups.segments))
        (groups.arguments.map Term.name)) := by
  obtain ⟨c, rest, hchars, hopen, -⟩ := base.exists_head
  have hhead : (base.chars ++ groups.chars).head? ≠ some '<' := by simp [hchars, hopen]
  have hmem : '<' ∈ base.chars ++ groups.chars := by
    cases groups <;> simp [Groups.chars]
  have hpaired : Paired (base.chars ++ groups.chars) := .append base.paired groups.paired
  have harguments : (Name.groups (base.chars ++ groups.chars)).flatMap (items ',') =
      groups.arguments.map Term.chars := by
    rw [groups_append_of_free base.free, groups.items_groups]
  have hsome : groups.arguments.map Term.chars ≠ [] := by simp [groups.arguments_ne_nil]
  have hbase : base.chars ++ groups.segments ≠ [] := by simp [base.nonempty]
  rw [readParameterized, harguments, if_pos ⟨hhead, hmem, hpaired.isBalanced, hsome⟩,
    outside_parameterized, nonEmpty_of_ne_nil hbase, Option.map_some, List.map_map]
  rfl

/-! ## Reading terms -/

theorem ofName_ofList (cs : List Char) : Shape.ofName (String.ofList cs) =
    (readArray cs <|> readWildcard cs <|> readTypeVariable cs <|>
      readParameterized cs).getD .simple := by
  rw [Shape.ofName, String.toList_ofList]

theorem Plain.ofName_name (type : Plain) : Shape.ofName type.name = type.shape := by
  -- No reader of arrays stands in the way, and the others come in the order of the grammar.
  rw [Plain.name, ofName_ofList, type.readArray_chars]
  cases type with
  | simple name =>
    have hwildcard := name.readWildcard_append []
    have hvariable := name.readTypeVariable_append []
    rw [List.append_nil] at hwildcard hvariable
    simp [Plain.chars, hwildcard, hvariable, name.readParameterized_chars, Plain.shape]
  | anything => simp [Plain.chars, readWildcard_inBrackets, readCompactBound, Plain.shape]
  | upper bound =>
    simp [Plain.chars, readWildcard_inBrackets, readCompactBound, Plain.shape,
      nonEmpty_of_ne_nil bound.chars_ne_nil, Term.name]
  | lower bound =>
    simp [Plain.chars, readWildcard_inBrackets, readCompactBound, Plain.shape,
      nonEmpty_of_ne_nil bound.chars_ne_nil, Term.name]
  | typeVariable name =>
    have hwildcard := name.readWildcard_inBrackets []
    have hvariable := name.readTypeVariable_inBrackets .nil (.inl rfl)
    rw [List.append_nil] at hwildcard hvariable
    simp [Plain.chars, hwildcard, hvariable, Plain.shape, items, cutAll, Text.trim, Text.trimStart,
      Text.trimEnd]
  | boundedVariable name bounds =>
    have hpaired : Paired ('+' :: bounds.chars '&') :=
      .char (by decide) (by decide) (bounds.paired (by decide))
    have hvariable := name.readTypeVariable_inBrackets hpaired (.inr ⟨_, rfl⟩)
    have hbounds := bounds.items_chars (show '&' ∈ separators by decide)
    rw [List.drop_one, List.tail_cons, hbounds, List.map_map] at hvariable
    rw [Plain.chars, name.readWildcard_inBrackets, hvariable]
    rfl
  | parameterized base groups =>
    rw [Plain.chars, base.readWildcard_append, base.readTypeVariable_append,
      readParameterized_append]
    rfl

/-- Reading undoes writing. Whatever is nested in a term, the shape of its name is its outermost
constructor with the names of exactly its parts, in order: an array has its element and the number
of its dimensions, a wildcard its bound, a type variable its name and its bounds, and a
parameterized type the pieces of its base in one and the arguments of all its groups. The number of
dimensions is kept in 32 bits, so it is exact below 2³² and wraps around from there on. -/
theorem Term.reading_undoes_writing (term : Term) : Shape.ofName term.name = term.shape := by
  cases term with
  | plain type => exact type.ofName_name
  | array element dimensions positive =>
    rw [Term.name, Term.chars, ofName_ofList, element.readArray_pairs positive]
    rfl

/-- A two-dimensional array of a parameterized type, one of whose arguments is a wildcard that is
bounded by an array. -/
example :
    let simple (text : String) (h : ∀ c ∈ text.toList, c ∉ marks) (hsolid : Solid text.toList)
        (hne : text.toList ≠ []) : SimpleName :=
      { chars := text.toList, unmarked := h, solid := hsolid, nonempty := hne }
    let map := simple "a.Map" (by simp [marks]) ⟨by simp; decide, by simp; decide⟩ (by simp)
    let key := simple "a.Key" (by simp [marks]) ⟨by simp; decide, by simp; decide⟩ (by simp)
    let value := simple "b.Value" (by simp [marks]) ⟨by simp; decide, by simp; decide⟩ (by simp)
    let nothing : Segment := { chars := [], unmarked := by simp, solid := ⟨by simp, by simp⟩ }
    let values : Term := .plain (.upper (.array (.simple value) 1 (by decide)))
    let arguments : Terms := .more (.plain (.simple key)) (.one values)
    let maps : Term := .array (.parameterized map (.one arguments nothing)) 2 (by decide)
    maps.name = "a.Map<a.Key,<?+b.Value[]>>[][]" ∧
      maps.shape = .array "a.Map<a.Key,<?+b.Value[]>>" 2 := by
  decide

end Referent.Name
