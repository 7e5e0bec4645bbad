import Mathlib.Data.List.TakeWhile
import Referent.Proofs.Readers

/-!
# Balanced text

Text is balanced if no first part of it closes more brackets than it opens, and in the end all are
closed (`Balanced`). The readers test this with one scan (`isBalanced_iff`), and cutting balanced
text outside its brackets gives balanced pieces, whichever cut it is.

But only two of the four readers make the test. What a type variable or a parameterized type is
made of is balanced, and so are their names. An array's element and a wildcard's bound are taken as
they come, with stray brackets in them or without, and these are the only texts through which
malformed names get a shape (`Shape.balanced_unless_unchecked`).
-/

namespace Referent.Name

/-- No first part closes more brackets than it opens, and in the end all are closed. -/
structure Balanced (cs : List Char) : Prop where
  front : ∀ front, front <+: cs → front.count '>' ≤ front.count '<'
  whole : cs.count '>' = cs.count '<'

variable {depth : Nat} {c sep : Char} {cs rest : List Char}

/-! ## The test -/

/-- What is open behind a character is what was open, with the character counted in, as long as
there is a bracket for it to close. -/
theorem depthAfter_add_count (h : ¬ (c = '>' ∧ depth = 0)) (cs : List Char) :
    depthAfter depth c + cs.count '<' + (c :: cs).count '>' =
      depth + (c :: cs).count '<' + cs.count '>' := by
  by_cases hopen : c = '<'
  · subst hopen
    simp [depthAfter]
    omega
  · by_cases hclose : c = '>'
    · subst hclose
      have hpositive : depth ≠ 0 := fun hzero => h ⟨rfl, hzero⟩
      simp [depthAfter]
      omega
    · simp [depthAfter, hopen, hclose]

theorem balancedFrom_cons : balancedFrom depth (c :: cs) = true ↔
    ¬ (c = '>' ∧ depth = 0) ∧ balancedFrom (depthAfter depth c) cs = true := by
  rw [balancedFrom]
  split
  · rename_i hstray
    simp [hstray]
  · rename_i hmatched
    exact (and_iff_right hmatched).symm

theorem balancedFrom_iff : balancedFrom depth cs = true ↔
    (∀ front, front <+: cs → front.count '>' ≤ depth + front.count '<') ∧
      cs.count '>' = depth + cs.count '<' := by
  induction cs generalizing depth with
  | nil =>
    rw [balancedFrom, beq_iff_eq]
    constructor
    · rintro rfl
      refine ⟨fun front hprefix => ?_, rfl⟩
      rw [List.prefix_nil.1 hprefix]
      exact Nat.zero_le _
    · rintro ⟨-, hwhole⟩
      exact hwhole.symm
  | cons c cs ih =>
    rw [balancedFrom_cons]
    constructor
    · rintro ⟨hmatched, hrest⟩
      have hcount := depthAfter_add_count hmatched
      obtain ⟨hfront, hwhole⟩ := ih.1 hrest
      constructor
      · intro front hprefix
        rcases List.prefix_cons_iff.1 hprefix with rfl | ⟨rest, rfl, hrest⟩
        · exact Nat.zero_le _
        · have := hfront rest hrest
          have := hcount rest
          omega
      · have := hcount cs
        omega
    · rintro ⟨hfront, hwhole⟩
      have hmatched : ¬ (c = '>' ∧ depth = 0) := by
        rintro ⟨rfl, rfl⟩
        have := hfront ['>'] ⟨cs, rfl⟩
        exact absurd this (by decide)
      have hcount := depthAfter_add_count hmatched
      refine ⟨hmatched, ih.2 ⟨fun rest hrest => ?_, ?_⟩⟩
      · have := hfront (c :: rest) (List.prefix_cons_iff.2 (.inr ⟨rest, rfl, hrest⟩))
        have := hcount rest
        omega
      · have := hcount cs
        omega

theorem isBalanced_iff : isBalanced cs = true ↔ Balanced cs := by
  rw [isBalanced, balancedFrom_iff]
  simp only [Nat.zero_add]
  exact ⟨fun h => ⟨h.1, h.2⟩, fun h => ⟨h.front, h.whole⟩⟩

/-! ## Putting text together -/

theorem depthAfter_add (h : ¬ (c = '>' ∧ depth = 0)) (around : Nat) :
    depthAfter (depth + around) c = depthAfter depth c + around := by
  unfold depthAfter
  split
  · omega
  · split
    · have hpositive : depth ≠ 0 := fun hzero => h ⟨‹c = '>'›, hzero⟩
      omega
    · rfl

/-- Behind text that closes all that is open, the scan goes on with what was open around it. -/
theorem balancedFrom_append (h : balancedFrom depth cs = true) (around : Nat) (rest : List Char) :
    balancedFrom (depth + around) (cs ++ rest) = balancedFrom around rest := by
  induction cs generalizing depth with
  | nil =>
    have hzero : depth = 0 := by simpa [balancedFrom] using h
    rw [hzero, Nat.zero_add, List.nil_append]
  | cons c cs ih =>
    obtain ⟨hmatched, hrest⟩ := balancedFrom_cons.1 h
    have hstill : ¬ (c = '>' ∧ depth + around = 0) :=
      fun hstray => hmatched ⟨hstray.1, by omega⟩
    rw [List.cons_append, balancedFrom, if_neg hstill, depthAfter_add hmatched, ih hrest]

/-- Text without brackets makes no difference behind other text. -/
theorem balancedFrom_append_free (h : ∀ c ∈ rest, c ≠ '<' ∧ c ≠ '>') :
    balancedFrom depth (cs ++ rest) = balancedFrom depth cs := by
  induction cs generalizing depth with
  | nil =>
    have hpaired := (Paired.of_free h).balancedFrom_append depth []
    rwa [List.append_nil] at hpaired
  | cons c cs ih => rw [List.cons_append, balancedFrom, balancedFrom, ih]

theorem Balanced.nil : Balanced [] :=
  isBalanced_iff.1 rfl

/-- Whether text is balanced does not depend on balanced text in front of it. -/
theorem Balanced.append_iff (h : Balanced cs) : Balanced (cs ++ rest) ↔ Balanced rest := by
  rw [← isBalanced_iff, ← isBalanced_iff]
  have happend := balancedFrom_append (isBalanced_iff.2 h) 0 rest
  exact (congrArg (· = true) happend).to_iff

theorem Balanced.of_free (h : ∀ c ∈ cs, c ≠ '<' ∧ c ≠ '>') : Balanced cs :=
  isBalanced_iff.1 (Paired.of_free h).isBalanced

theorem balanced_append_free (h : ∀ c ∈ rest, c ≠ '<' ∧ c ≠ '>') :
    Balanced (cs ++ rest) ↔ Balanced cs := by
  rw [← isBalanced_iff, ← isBalanced_iff, isBalanced, balancedFrom_append_free h, isBalanced]

/-- One pair of brackets around balanced text. -/
theorem Balanced.inBrackets (h : Balanced cs) : Balanced (inBrackets cs) := by
  have hinner := balancedFrom_append (isBalanced_iff.2 h) 1 ['>']
  rw [Nat.zero_add] at hinner
  rw [← isBalanced_iff, isBalanced, Name.inBrackets, balancedFrom_cons]
  exact ⟨by decide, hinner⟩

/-! ## Cutting text up -/

theorem free_of_isBlank (h : Text.isBlank c = true) : c ≠ '<' ∧ c ≠ '>' := by
  constructor
  · rintro rfl
    exact absurd h (by decide)
  · rintro rfl
    exact absurd h (by decide)

theorem balanced_trimStart : Balanced (Text.trimStart cs) ↔ Balanced cs := by
  have hblank : ∀ c ∈ cs.takeWhile Text.isBlank, c ≠ '<' ∧ c ≠ '>' :=
    fun c hc => free_of_isBlank (List.mem_takeWhile_imp hc)
  have happend : Balanced (cs.takeWhile Text.isBlank ++ Text.trimStart cs) ↔
      Balanced (Text.trimStart cs) := (Balanced.of_free hblank).append_iff
  rw [Text.trimStart, List.takeWhile_append_dropWhile] at happend
  exact happend.symm

theorem balanced_trimEnd : Balanced (Text.trimEnd cs) ↔ Balanced cs := by
  have hblank : ∀ c ∈ (cs.reverse.takeWhile Text.isBlank).reverse, c ≠ '<' ∧ c ≠ '>' :=
    fun c hc => free_of_isBlank (List.mem_takeWhile_imp (List.mem_reverse.1 hc))
  have happend : Balanced (Text.trimEnd cs ++ (cs.reverse.takeWhile Text.isBlank).reverse) ↔
      Balanced (Text.trimEnd cs) := balanced_append_free hblank
  rw [Text.trimEnd, ← List.reverse_append, List.takeWhile_append_dropWhile,
    List.reverse_reverse] at happend
  exact happend.symm

theorem balanced_trim : Balanced (Text.trim cs) ↔ Balanced cs := by
  rw [Text.trim, balanced_trimEnd, balanced_trimStart]

/-- A cut at a mark outside brackets leaves balanced text on both sides. -/
theorem balancedFrom_of_cutFirst {mark before found : List Char}
    (h : balancedFrom depth cs = true) (hcut : cutFirst mark depth cs = some (before, found)) :
    balancedFrom depth before = true ∧ isBalanced found = true := by
  induction cs generalizing depth before with
  | nil => simp [cutFirst] at hcut
  | cons c cs ih =>
    rw [cutFirst] at hcut
    split at hcut
    · rename_i hmark
      obtain ⟨rfl, -⟩ := hmark
      cases hcut
      exact ⟨rfl, h⟩
    · obtain ⟨⟨piece, behind⟩, hrest, heq⟩ := Option.map_eq_some_iff.1 hcut
      cases heq
      obtain ⟨hmatched, hbalanced⟩ := balancedFrom_cons.1 h
      obtain ⟨hpiece, hfound⟩ := ih hbalanced hrest
      exact ⟨balancedFrom_cons.2 ⟨hmatched, hpiece⟩, hfound⟩

/-- The first piece closes what was open in front of the text, and all others are balanced. -/
theorem balancedFrom_cutAll (hopen : sep ≠ '<') (hclose : sep ≠ '>')
    (h : balancedFrom depth cs = true) : balancedFrom depth (cutAll sep depth cs).1 = true ∧
      ∀ piece ∈ (cutAll sep depth cs).2, isBalanced piece = true := by
  induction cs generalizing depth with
  | nil => exact ⟨h, fun _ hpiece => absurd hpiece List.not_mem_nil⟩
  | cons c cs ih =>
    obtain ⟨hmatched, hrest⟩ := balancedFrom_cons.1 h
    obtain ⟨hpiece, hlater⟩ := ih hrest
    simp only [cutAll]
    split
    · rename_i hsep
      obtain ⟨rfl, rfl⟩ := hsep
      rw [depthAfter_of_ne hopen hclose] at hpiece hlater ⊢
      refine ⟨rfl, fun piece hmem => ?_⟩
      rcases List.mem_cons.1 hmem with rfl | hmem
      · exact hpiece
      · exact hlater piece hmem
    · exact ⟨balancedFrom_cons.2 ⟨hmatched, hpiece⟩, hlater⟩

theorem Balanced.items (h : Balanced cs) (hopen : sep ≠ '<') (hclose : sep ≠ '>') :
    ∀ item ∈ items sep cs, Balanced item := by
  intro item hitem
  obtain ⟨hpiece, hlater⟩ := balancedFrom_cutAll hopen hclose (isBalanced_iff.2 h)
  simp only [Name.items, List.mem_filter, List.mem_map] at hitem
  obtain ⟨⟨piece, hmem, rfl⟩, -⟩ := hitem
  rw [balanced_trim, ← isBalanced_iff]
  rcases List.mem_cons.1 hmem with rfl | hmem
  · exact hpiece
  · exact hlater piece hmem

/-- What is left over of a group closes all but the outermost of what was open in front of the
text, and the groups behind it are balanced. -/
theorem balancedFrom_groupsFrom (h : balancedFrom depth cs = true) :
    (0 < depth → balancedFrom (depth - 1) (groupsFrom depth cs).1 = true) ∧
      ∀ group ∈ (groupsFrom depth cs).2, isBalanced group = true := by
  induction cs generalizing depth with
  | nil =>
    have hzero : depth = 0 := by simpa [balancedFrom] using h
    exact ⟨fun hpositive => by omega, fun _ hgroup => absurd hgroup List.not_mem_nil⟩
  | cons c cs ih =>
    obtain ⟨hmatched, hrest⟩ := balancedFrom_cons.1 h
    obtain ⟨hgroup, hlater⟩ := ih hrest
    simp only [groupsFrom]
    split
    · -- Outside all brackets, only a bracket that opens begins a group.
      rename_i hzero
      subst hzero
      refine ⟨fun hpositive => by omega, ?_⟩
      split
      · rename_i hopen
        subst hopen
        intro group hmem
        rcases List.mem_cons.1 hmem with rfl | hmem
        · exact hgroup (by simp)
        · exact hlater group hmem
      · exact hlater
    · rename_i hpositive
      have hinner : ¬ (c = '>' ∧ depth - 1 = 0) →
          depthAfter depth c = depthAfter (depth - 1) c + 1 := by
        intro hdeep
        rw [← depthAfter_add hdeep, Nat.sub_add_cancel (Nat.pos_of_ne_zero hpositive)]
      split
      · -- The character closes the group.
        rename_i hclosed
        refine ⟨fun _ => ?_, hlater⟩
        rw [balancedFrom, beq_iff_eq]
        by_contra hdeep
        have := hinner fun hlast => hdeep hlast.2
        omega
      · rename_i hstill
        refine ⟨fun _ => ?_, hlater⟩
        have hdeep : ¬ (c = '>' ∧ depth - 1 = 0) := by
          rintro ⟨rfl, hone⟩
          obtain rfl : depth = 1 := by omega
          exact hstill rfl
        have hpiece := hgroup (Nat.pos_of_ne_zero hstill)
        rw [show depthAfter depth c - 1 = depthAfter (depth - 1) c by
          rw [hinner hdeep, Nat.add_sub_cancel]] at hpiece
        exact balancedFrom_cons.2 ⟨hdeep, hpiece⟩

theorem Balanced.groups (h : Balanced cs) : ∀ group ∈ groups cs, Balanced group :=
  fun group hgroup =>
    isBalanced_iff.1 ((balancedFrom_groupsFrom (isBalanced_iff.2 h)).2 group hgroup)

/-- No bracket stands outside. -/
theorem free_of_mem_outside (h : c ∈ outside depth cs) : c ≠ '<' ∧ c ≠ '>' := by
  induction cs generalizing depth with
  | nil => cases h
  | cons d cs ih =>
    rw [outside] at h
    split at h
    · exact ih h
    · rename_i hfree
      simp only [not_or] at hfree
      rcases List.mem_cons.1 h with rfl | h
      · exact ⟨hfree.1, hfree.2.1⟩
      · exact ih h

/-! ## Names -/

variable {shape : Shape}

/-- The parts of a shape are balanced. -/
def Shape.BalancedParts (shape : Shape) : Prop :=
  ∀ part ∈ shape.constituents, Balanced part.2.toList

/-- The reader of the shape does not look at the brackets of its parts. -/
def Shape.Unchecked : Shape → Prop
  | array .. | wildcard _ => True
  | _ => False

theorem balanced_of_readArray (h : readArray cs = some shape) (hparts : shape.BalancedParts) :
    Balanced cs := by
  obtain ⟨element, dimensions, hends, -, rfl⟩ := readArray_eq_some_iff.1 h
  rw [hends.spelled, balanced_append_free (pairs_free dimensions)]
  have helement := hparts _ (List.mem_singleton_self _)
  rwa [String.toList_ofList] at helement

theorem balanced_cons (hopen : c ≠ '<') (hclose : c ≠ '>') :
    Balanced (c :: cs) ↔ Balanced cs := by
  have hfree : ∀ d ∈ [c], d ≠ '<' ∧ d ≠ '>' := by
    simp [hopen, hclose]
  exact (Balanced.of_free hfree).append_iff

theorem balanced_of_readWildcard (h : readWildcard cs = some shape)
    (hparts : shape.BalancedParts) : Balanced cs := by
  obtain ⟨bound, rfl, hbound⟩ := readWildcard_eq_some h
  have hpart (side : Side) (type : List Char) (heq : bound = side.bound (String.ofList type)) :
      Balanced type := by
    subst heq
    cases side <;> simpa using hparts _ (List.mem_singleton_self _)
  rcases hbound with ⟨inner, rfl, hinner⟩ | ⟨rest, rfl, hrest⟩
  · apply Balanced.inBrackets
    rw [balanced_cons (by decide) (by decide)]
    rcases readCompactBound_eq_some_iff.1 hinner with ⟨rfl, -⟩ | ⟨side, type, rfl, -, heq⟩
    · exact .nil
    · have hsign : side.sign ≠ '<' ∧ side.sign ≠ '>' := by cases side <;> decide
      rw [balanced_cons hsign.1 hsign.2]
      exact hpart side type heq
  · rw [balanced_cons (by decide) (by decide), ← balanced_trimStart]
    rcases readSourceBound_eq_some_iff.1 hrest with ⟨hnil, -⟩ | ⟨side, type, hword, -, heq⟩
    · rw [hnil]
      exact .nil
    · rw [hword, (Balanced.of_free side.word_free).append_iff, ← balanced_trim]
      exact hpart side _ heq

theorem balanced_of_readTypeVariable (h : readTypeVariable cs = some shape) :
    Balanced cs ∧ shape.BalancedParts := by
  obtain ⟨inner, rfl, hinner, hshape⟩ := readTypeVariable_eq_some h
  refine ⟨(isBalanced_iff.1 hinner).inBrackets, ?_⟩
  have hbounds : Balanced (((cutFirst ['+'] 0 inner).getD (inner, [])).2.drop 1) := by
    cases hcut : cutFirst ['+'] 0 inner with
    | none => exact .nil
    | some cut =>
      obtain ⟨before, found⟩ := cut
      obtain ⟨rest, hrest⟩ := mark_prefix_of_cutFirst hcut
      have hfound := (balancedFrom_of_cutFirst hinner hcut).2
      rw [isBalanced_iff, ← hrest] at hfound
      rw [Option.getD_some, ← hrest]
      exact (balanced_cons (by decide) (by decide)).1 hfound
  rw [hshape]
  intro part hpart
  simp only [Shape.constituents, List.map_map, List.mem_map] at hpart
  obtain ⟨bound, hbound, rfl⟩ := hpart
  rw [Function.comp_apply, String.toList_ofList]
  exact hbounds.items (by decide) (by decide) bound hbound

theorem balanced_of_readParameterized (h : readParameterized cs = some shape) :
    Balanced cs ∧ shape.BalancedParts := by
  obtain ⟨hbalanced, rfl⟩ := readParameterized_eq_some h
  rw [isBalanced_iff] at hbalanced
  refine ⟨hbalanced, fun part hpart => ?_⟩
  rcases List.mem_cons.1 hpart with rfl | hpart
  · rw [String.toList_ofList]
    exact .of_free fun c hc => free_of_mem_outside hc
  · simp only [List.map_map, List.mem_map, List.mem_flatMap] at hpart
    obtain ⟨argument, ⟨group, hgroup, hitem⟩, rfl⟩ := hpart
    rw [Function.comp_apply, String.toList_ofList]
    exact (hbalanced.groups group hgroup).items (by decide) (by decide) argument hitem

/-- A name that has a shape is balanced, and so are the parts of the shape, unless the shape is an
array or a wildcard whose part is not balanced. -/
theorem Shape.balanced_unless_unchecked (name : String) (h : ofName name ≠ .simple) :
    (Balanced name.toList ∧ (ofName name).BalancedParts) ↔
      ((ofName name).Unchecked → (ofName name).BalancedParts) := by
  constructor
  · exact fun hall _ => hall.2
  · intro hparts
    rcases ofName_cases name with hread | ⟨-, hread | hread | hread | hsimple⟩
    · have hunchecked : (ofName name).Unchecked := by
        obtain ⟨element, dimensions, -, -, heq⟩ := readArray_eq_some_iff.1 hread
        rw [heq]
        trivial
      exact ⟨balanced_of_readArray hread (hparts hunchecked), hparts hunchecked⟩
    · have hunchecked : (ofName name).Unchecked := by
        obtain ⟨bound, heq, -⟩ := readWildcard_eq_some hread
        rw [heq]
        trivial
      exact ⟨balanced_of_readWildcard hread (hparts hunchecked), hparts hunchecked⟩
    · exact balanced_of_readTypeVariable hread
    · exact balanced_of_readParameterized hread
    · exact absurd hsimple h

instance : DecidablePred Balanced := fun cs =>
  decidable_of_iff (isBalanced cs = true) isBalanced_iff

/-- An array whose element is balanced. -/
theorem Shape.array_of_box_balanced :
    let name := "a.Box<T>[]"
    ofName name ≠ .simple ∧ Balanced name.toList ∧ Balanced "a.Box<T>".toList := by
  intro name
  have hshape : ofName name = .array "a.Box<T>" 1 := by decide +kernel
  have hparts : (ofName name).BalancedParts := by
    rw [hshape]
    intro part hpart
    rw [List.mem_singleton.1 hpart]
    decide
  have hcompound : ofName name ≠ .simple := by
    rw [hshape]
    exact Shape.noConfusion
  have hall := (balanced_unless_unchecked name hcompound).2 fun _ => hparts
  refine ⟨hcompound, hall.1, ?_⟩
  exact hparts (.hasElementsOf, "a.Box<T>") (by rw [hshape]; exact List.mem_singleton_self _)

/-- A stray bracket in an element does not keep the name from being an array, nor one that stays
open in a bound from being a wildcard. -/
theorem Shape.malformed_names_read :
    (ofName "a>[]" = .array "a>" 1 ∧ ¬ Balanced "a>[]".toList ∧ ¬ Balanced "a>".toList) ∧
    (ofName "? extends a<" = .wildcard (.upper "a<") ∧ ¬ Balanced "? extends a<".toList ∧
      ¬ Balanced "a<".toList) := by
  decide +kernel

end Referent.Name
