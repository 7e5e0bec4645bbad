import Referent.Proofs.Grammar

/-!
# What each reader takes

Every name is tried as an array, a wildcard, a type variable and a parameterized type, in this
order (`Shape.ofName_cases`), and each reader takes names of one form only.

Arrays are cut at the first pair `[]` outside brackets, and behind it nothing but pairs may follow.
Seen from the end, the name is an element with as many pairs behind it as it has dimensions, where
an element leaves no bracket open and has no pair outside brackets (`EndsInPairs`). There is one
way at most to see a name like this (`EndsInPairs.unique`), so the cut from the left and the view
from the right are the same (`readArray_eq_some_iff`).
-/

namespace Referent.Name

variable {depth dimensions : Nat} {c : Char} {cs element found : List Char} {shape : Shape}

theorem nonEmpty_eq_some_iff {name : String} :
    nonEmpty cs = some name ↔ cs ≠ [] ∧ name = String.ofList cs := by
  constructor
  · intro h
    refine ⟨?_, eq_ofList_of_nonEmpty h⟩
    rintro rfl
    cases h
  · rintro ⟨hnonempty, rfl⟩
    exact nonEmpty_of_ne_nil hnonempty

/-! ## Arrays -/

/-- Text that can be the element of an array, with `depth` brackets open in front of it: it closes
them all, and whatever pairs `[]` there are in it stand within brackets. -/
structure ElementFrom (depth : Nat) (cs : List Char) : Prop where
  closed : depthBehind depth cs = 0
  inner : ∀ before after, cs = before ++ '[' :: ']' :: after → depthBehind depth before ≠ 0

theorem elementFrom_nil : ElementFrom depth [] ↔ depth = 0 := by
  constructor
  · exact fun h => h.closed
  · intro hzero
    exact ⟨hzero, fun before after heq => by simp at heq⟩

theorem elementFrom_cons : ElementFrom depth (c :: cs) ↔
    ¬ (depth = 0 ∧ c = '[' ∧ ∃ after, cs = ']' :: after) ∧
      ElementFrom (depthAfter depth c) cs := by
  constructor
  · intro h
    refine ⟨?_, h.closed, fun before after heq => ?_⟩
    · rintro ⟨rfl, rfl, after, rfl⟩
      exact h.inner [] after rfl rfl
    · exact h.inner (c :: before) after (by rw [heq, List.cons_append])
  · rintro ⟨hfirst, h⟩
    refine ⟨h.closed, fun before after heq => ?_⟩
    cases before with
    | nil =>
      obtain ⟨rfl, rfl⟩ := List.cons_eq_cons.1 heq
      exact fun hzero => hfirst ⟨hzero, rfl, after, rfl⟩
    | cons d before =>
      obtain ⟨rfl, rfl⟩ := List.cons_eq_cons.1 heq
      exact h.inner before after rfl

/-- The cut at the first pair outside brackets is behind an element. -/
theorem cutFirst_pair_iff : cutFirst ['[', ']'] depth (element ++ '[' :: ']' :: found) =
    some (element, '[' :: ']' :: found) ↔ ElementFrom depth element := by
  induction element generalizing depth with
  | nil =>
    rw [elementFrom_nil, List.nil_append, cutFirst]
    split
    · rename_i hmark
      simp [hmark.1]
    · rename_i hmark
      have hdepth : depth ≠ 0 := fun hzero => hmark ⟨hzero, found, rfl⟩
      simp [Option.map_eq_some_iff, hdepth]
  | cons c element ih =>
    rw [elementFrom_cons, List.cons_append, cutFirst, ← ih]
    split
    · -- The pair found here is in the element, since behind the element comes no `]`.
      rename_i hmark
      obtain ⟨hzero, hpair⟩ := hmark
      obtain ⟨hfirst, hsecond⟩ := List.cons_prefix_cons.1 hpair
      have hinner : ∃ after, element = ']' :: after := by
        cases element with
        | nil => exact absurd (List.cons_prefix_cons.1 hsecond).1 (by decide)
        | cons d after => exact ⟨after, by rw [(List.cons_prefix_cons.1 hsecond).1]⟩
      simp [hzero, hfirst.symm, hinner]
    · rename_i hmark
      have hnone : ¬ (depth = 0 ∧ c = '[' ∧ ∃ after, element = ']' :: after) := by
        rintro ⟨hzero, rfl, after, rfl⟩
        exact hmark ⟨hzero, _, rfl⟩
      rw [and_iff_right hnone, Option.map_eq_some_iff]
      constructor
      · rintro ⟨⟨piece, behind⟩, hcut, heq⟩
        cases heq
        exact hcut
      · intro hcut
        exact ⟨_, hcut, rfl⟩

theorem pairCount_eq_some_iff : pairCount cs = some dimensions ↔ cs = pairs dimensions := by
  constructor
  · intro h
    fun_induction pairCount cs generalizing dimensions with
    | case1 =>
      cases h
      rfl
    | case2 cs ih =>
      obtain ⟨fewer, hfewer, rfl⟩ := Option.map_eq_some_iff.1 h
      rw [ih hfewer, pairs]
    | case3 => cases h
  · rintro rfl
    exact pairCount_pairs dimensions

theorem exists_pairs_cons (h : 0 < dimensions) :
    ∃ rest, pairs dimensions = '[' :: ']' :: rest := by
  obtain ⟨fewer, rfl⟩ := Nat.exists_eq_add_one_of_ne_zero (Nat.ne_of_gt h)
  exact ⟨pairs fewer, rfl⟩

theorem length_pairs (dimensions : Nat) : (pairs dimensions).length = 2 * dimensions := by
  induction dimensions with
  | zero => rfl
  | succ dimensions ih =>
    rw [pairs, List.length_cons, List.length_cons, ih]
    omega

/-- Text that ends in pairs `[]`, one or more, and what stands in front of them is an element. -/
structure EndsInPairs (cs element : List Char) (dimensions : Nat) : Prop where
  spelled : cs = element ++ pairs dimensions
  positive : 0 < dimensions
  outside : ElementFrom 0 element

namespace EndsInPairs

/-- Such text is cut behind the element. -/
theorem cutFirst (h : EndsInPairs cs element dimensions) :
    Name.cutFirst ['[', ']'] 0 cs = some (element, pairs dimensions) := by
  obtain ⟨rest, hrest⟩ := exists_pairs_cons h.positive
  rw [h.spelled, hrest]
  exact cutFirst_pair_iff.2 h.outside

/-- There is one way at most to see text like this. -/
theorem unique {other : List Char} {others : Nat} (h : EndsInPairs cs element dimensions)
    (hother : EndsInPairs cs other others) : element = other ∧ dimensions = others := by
  have hcut := h.cutFirst
  rw [hother.cutFirst] at hcut
  simp only [Option.some.injEq, Prod.mk.injEq] at hcut
  obtain ⟨rfl, hpairs⟩ := hcut
  have hlength := congrArg List.length hpairs
  rw [length_pairs, length_pairs] at hlength
  exact ⟨rfl, by omega⟩

/-- An element does not end in pairs itself. -/
theorem not_element {inner : List Char} {more : Nat} (h : EndsInPairs cs element dimensions) :
    ¬ EndsInPairs element inner more := by
  intro hinner
  obtain ⟨rest, hrest⟩ := exists_pairs_cons hinner.positive
  apply h.outside.inner inner rest
  · rw [hinner.spelled, hrest]
  · exact hinner.outside.closed

theorem getLast? (h : EndsInPairs cs element dimensions) : cs.getLast? = some ']' := by
  have hlast : ∀ more, (pairs (more + 1)).getLast? = some ']' := by
    intro more
    induction more with
    | zero => rfl
    | succ more ih => rw [pairs, List.getLast?_cons, List.getLast?_cons, ih]; rfl
  obtain ⟨fewer, rfl⟩ := Nat.exists_eq_add_one_of_ne_zero (Nat.ne_of_gt h.positive)
  rw [h.spelled, List.getLast?_append, hlast, Option.some_or]

end EndsInPairs

/-- Arrays are the names that end in pairs with an element in front of them that is not empty. -/
theorem readArray_eq_some_iff : readArray cs = some shape ↔ ∃ element dimensions,
    EndsInPairs cs element dimensions ∧ element ≠ [] ∧
      shape = .array (String.ofList element) (UInt32.ofNat dimensions) := by
  constructor
  · intro h
    simp only [readArray, Option.bind_eq_bind, Option.bind_eq_some_iff] at h
    obtain ⟨⟨element, found⟩, hcut, dimensions, hcount, name, hname, heq⟩ := h
    obtain rfl := pairCount_eq_some_iff.1 hcount
    obtain ⟨hnonempty, rfl⟩ := nonEmpty_eq_some_iff.1 hname
    cases heq
    obtain ⟨rest, hrest⟩ := mark_prefix_of_cutFirst hcut
    have hcs := append_eq_of_cutFirst hcut
    have hpositive : 0 < dimensions := by
      have hlength := congrArg List.length hrest
      rw [length_pairs] at hlength
      simp only [List.length_append, List.length_cons, List.length_nil] at hlength
      omega
    refine ⟨element, dimensions, ⟨hcs.symm, hpositive, ?_⟩, hnonempty, rfl⟩
    rw [← hcs] at hcut
    obtain ⟨rest, hrest⟩ := exists_pairs_cons hpositive
    rw [hrest] at hcut
    exact cutFirst_pair_iff.1 hcut
  · rintro ⟨element, dimensions, hends, hnonempty, rfl⟩
    simp [readArray, hends.cutFirst, pairCount_pairs, nonEmpty_of_ne_nil hnonempty]

/-- Text without brackets in front of an element makes a longer element. -/
theorem elementFrom_append_free {front : List Char} (hfree : ∀ c ∈ front, c ≠ '<' ∧ c ≠ '>')
    (hmark : '[' ∉ front) : ElementFrom depth (front ++ element) ↔ ElementFrom depth element := by
  induction front with
  | nil => rfl
  | cons c front ih =>
    obtain ⟨hopen, hclose⟩ := hfree c List.mem_cons_self
    obtain ⟨hc, hmark⟩ := not_or.1 (mt List.mem_cons.2 hmark)
    have hrest := ih (fun d hd => hfree d (List.mem_cons_of_mem c hd)) hmark
    rw [List.cons_append, elementFrom_cons, depthAfter_of_ne hopen hclose, hrest]
    exact and_iff_right fun hpair => hc hpair.2.1.symm

/-- What is in front of text does not change the pairs that it ends in, if there are neither
brackets nor pairs in front. -/
theorem endsInPairs_append_free {front whole : List Char}
    (hfree : ∀ c ∈ front, c ≠ '<' ∧ c ≠ '>') (hmark : '[' ∉ front) :
    EndsInPairs (front ++ cs) whole dimensions ↔
      ∃ element, whole = front ++ element ∧ EndsInPairs cs element dimensions := by
  constructor
  · intro h
    have hlonger : ∃ element, whole = front ++ element ∧ cs = element ++ pairs dimensions := by
      rcases List.append_eq_append_iff.1 h.spelled with
        ⟨element, hwhole, hcs⟩ | ⟨between, hfront, hpairs⟩
      · exact ⟨element, hwhole, hcs⟩
      · -- The pairs cannot begin in front of the text, where there is no `[`.
        cases between with
        | nil => exact ⟨[], by simpa using hfront.symm, by simpa using hpairs.symm⟩
        | cons c between =>
          obtain ⟨rest, hrest⟩ := exists_pairs_cons h.positive
          rw [hrest, List.cons_append] at hpairs
          obtain ⟨rfl, -⟩ := List.cons_eq_cons.1 hpairs
          exact absurd (by simp [hfront]) hmark
    obtain ⟨element, rfl, hcs⟩ := hlonger
    exact ⟨element, rfl, hcs, h.positive, (elementFrom_append_free hfree hmark).1 h.outside⟩
  · rintro ⟨element, rfl, h⟩
    refine ⟨?_, h.positive, (elementFrom_append_free hfree hmark).2 h.outside⟩
    rw [h.spelled, List.append_assoc]

/-! ## Wildcards -/

/-- The side on which a wildcard is bounded. -/
inductive Side
  | upper
  | lower
  deriving DecidableEq, Repr

namespace Side

/-- The bound on this side. -/
def bound : Side → String → Bound
  | upper => .upper
  | lower => .lower

/-- What stands in front of the bound in brackets. -/
def sign : Side → Char
  | upper => '+'
  | lower => '-'

/-- What stands in front of the bound in sources. -/
def word : Side → List Char
  | upper => "extends ".toList
  | lower => "super ".toList

theorem word_free (side : Side) : ∀ c ∈ side.word, c ≠ '<' ∧ c ≠ '>' := by
  have hall : (side.word.all fun c => c != '<' && c != '>') = true := by cases side <;> rfl
  intro c hc
  simpa using List.all_eq_true.1 hall c hc

end Side

theorem readCompactBound_eq_some_iff {bound : Bound} : readCompactBound cs = some bound ↔
    (cs = [] ∧ bound = .unbounded) ∨ ∃ (side : Side) (type : List Char),
      cs = side.sign :: type ∧ type ≠ [] ∧ bound = side.bound (String.ofList type) := by
  constructor
  · intro h
    unfold readCompactBound at h
    split at h
    · cases h
      exact .inl ⟨rfl, rfl⟩
    · rename_i type
      obtain ⟨name, hname, rfl⟩ := Option.map_eq_some_iff.1 h
      obtain ⟨hnonempty, rfl⟩ := nonEmpty_eq_some_iff.1 hname
      exact .inr ⟨.upper, type, rfl, hnonempty, rfl⟩
    · rename_i type
      obtain ⟨name, hname, rfl⟩ := Option.map_eq_some_iff.1 h
      obtain ⟨hnonempty, rfl⟩ := nonEmpty_eq_some_iff.1 hname
      exact .inr ⟨.lower, type, rfl, hnonempty, rfl⟩
    · cases h
  · rintro (⟨rfl, rfl⟩ | ⟨side, type, rfl, hnonempty, rfl⟩)
    · rfl
    · cases side <;> simp [readCompactBound, Side.sign, Side.bound, nonEmpty_of_ne_nil hnonempty]

theorem readSourceBound_eq_some_iff {bound : Bound} : readSourceBound cs = some bound ↔
    (Text.trimStart cs = [] ∧ bound = .unbounded) ∨ ∃ (side : Side) (type : List Char),
      Text.trimStart cs = side.word ++ type ∧ Text.trim type ≠ [] ∧
        bound = side.bound (String.ofList (Text.trim type)) := by
  constructor
  · intro h
    simp only [readSourceBound] at h
    split at h
    · rename_i hempty
      cases h
      exact .inl ⟨List.isEmpty_iff.1 hempty, rfl⟩
    · split at h
      · rename_i type hfront
        obtain ⟨name, hname, rfl⟩ := Option.map_eq_some_iff.1 h
        obtain ⟨hnonempty, rfl⟩ := nonEmpty_eq_some_iff.1 hname
        exact .inr ⟨.upper, type, (Text.dropFront?_eq_some.1 hfront).symm, hnonempty, rfl⟩
      · split at h
        · rename_i type hfront
          obtain ⟨name, hname, rfl⟩ := Option.map_eq_some_iff.1 h
          obtain ⟨hnonempty, rfl⟩ := nonEmpty_eq_some_iff.1 hname
          exact .inr ⟨.lower, type, (Text.dropFront?_eq_some.1 hfront).symm, hnonempty, rfl⟩
        · cases h
  · rintro (⟨hempty, rfl⟩ | ⟨side, type, hword, hnonempty, rfl⟩)
    · simp [readSourceBound, hempty]
    · have hsome : (side.word ++ type).isEmpty = false := by cases side <;> rfl
      have hname := nonEmpty_of_ne_nil hnonempty
      cases side with
      | upper =>
        have hfront : Text.dropFront? "extends ".toList (Side.upper.word ++ type) = some type :=
          Text.dropFront?_eq_some.2 rfl
        simp only [readSourceBound, hword, hsome, hfront, hname]
        rfl
      | lower =>
        have hother : Text.dropFront? "extends ".toList (Side.lower.word ++ type) = none := rfl
        have hfront : Text.dropFront? "super ".toList (Side.lower.word ++ type) = some type :=
          Text.dropFront?_eq_some.2 rfl
        simp only [readSourceBound, hword, hsome, hother, hfront, hname]
        rfl

/-- A wildcard has its bound in brackets, or behind a `?` as sources write it. -/
theorem readWildcard_eq_some (h : readWildcard cs = some shape) :
    ∃ bound, shape = .wildcard bound ∧
      ((∃ inner, cs = inBrackets ('?' :: inner) ∧ readCompactBound inner = some bound) ∨
        ∃ rest, cs = '?' :: rest ∧ readSourceBound rest = some bound) := by
  unfold readWildcard at h
  split at h
  · rename_i inner hinner
    obtain ⟨rest, hrest, hback⟩ := Option.bind_eq_some_iff.1 hinner
    obtain ⟨bound, hbound, rfl⟩ := Option.map_eq_some_iff.1 h
    refine ⟨bound, rfl, .inl ⟨inner, ?_, hbound⟩⟩
    rw [← Text.dropFront?_eq_some.1 hrest, ← Text.dropBack?_eq_some.1 hback]
    rfl
  · split at h
    · obtain ⟨bound, hbound, rfl⟩ := Option.map_eq_some_iff.1 h
      exact ⟨bound, rfl, .inr ⟨_, rfl, hbound⟩⟩
    · cases h

/-! ## Type variables and parameterized types -/

theorem readTypeVariable_eq_some (h : readTypeVariable cs = some shape) :
    ∃ inner, cs = inBrackets inner ∧ isBalanced inner = true ∧
      let (name, bounds) := (cutFirst ['+'] 0 inner).getD (inner, [])
      shape = .typeVariable (String.ofList (Text.trim name))
        ((items '&' (bounds.drop 1)).map String.ofList) := by
  simp only [readTypeVariable, Option.bind_eq_bind, Option.bind_eq_some_iff,
    Option.ite_none_right_eq_some] at h
  obtain ⟨inner, ⟨rest, hrest, hback⟩, hbalanced, name, hname, heq⟩ := h
  refine ⟨inner, ?_, hbalanced, ?_⟩
  · rw [← Text.dropFront?_eq_some.1 hrest, ← Text.dropBack?_eq_some.1 hback]
    rfl
  · cases heq
    rw [eq_ofList_of_nonEmpty hname]

theorem readParameterized_eq_some (h : readParameterized cs = some shape) :
    isBalanced cs = true ∧ shape = .parameterized (String.ofList (outside 0 cs))
      (((groups cs).flatMap (items ',')).map String.ofList) := by
  simp only [readParameterized, Option.ite_none_right_eq_some, Option.map_eq_some_iff] at h
  obtain ⟨⟨-, -, hbalanced, -⟩, base, hbase, rfl⟩ := h
  exact ⟨hbalanced, by rw [eq_ofList_of_nonEmpty hbase]⟩

/-! ## Names -/

/-- The shape of a name is what the first of the readers makes of it that takes it. -/
theorem Shape.ofName_cases (name : String) :
    readArray name.toList = some (ofName name) ∨
    readArray name.toList = none ∧ (readWildcard name.toList = some (ofName name) ∨
      readTypeVariable name.toList = some (ofName name) ∨
      readParameterized name.toList = some (ofName name) ∨ ofName name = .simple) := by
  cases harray : readArray name.toList with
  | some shape => exact .inl (by simp [ofName, harray])
  | none =>
    refine .inr ⟨rfl, ?_⟩
    cases hwildcard : readWildcard name.toList with
    | some shape => exact .inl (by simp [ofName, harray, hwildcard])
    | none =>
      refine .inr ?_
      cases hvariable : readTypeVariable name.toList with
      | some shape => exact .inl (by simp [ofName, harray, hwildcard, hvariable])
      | none =>
        refine .inr ?_
        cases hparameterized : readParameterized name.toList with
        | some shape =>
          exact .inl (by simp [ofName, harray, hwildcard, hvariable, hparameterized])
        | none => exact .inr (by simp [ofName, harray, hwildcard, hvariable, hparameterized])

/-- Only the reader of arrays makes arrays. -/
theorem Shape.ofName_eq_array_iff {name element : String} {dimensions : UInt32} :
    ofName name = .array element dimensions ↔
      readArray name.toList = some (.array element dimensions) := by
  constructor
  · intro hshape
    have hcases := ofName_cases name
    rw [hshape] at hcases
    rcases hcases with harray | ⟨-, hwildcard | hvariable | hparameterized | hsimple⟩
    · exact harray
    · obtain ⟨bound, heq, -⟩ := readWildcard_eq_some hwildcard
      cases heq
    · obtain ⟨inner, -, -, heq⟩ := readTypeVariable_eq_some hvariable
      cases heq
    · obtain ⟨-, heq⟩ := readParameterized_eq_some hparameterized
      cases heq
    · cases hsimple
  · intro harray
    simp [ofName, harray]

end Referent.Name
