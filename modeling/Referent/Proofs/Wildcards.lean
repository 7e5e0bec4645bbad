import Referent.Proofs.Readers

/-!
# Two spellings of wildcards

A wildcard with a bound is spelled with brackets, `<?+B>` or `<?-B>`, or as in sources,
`? extends B` or `? super B`. In brackets it is read as the wildcard that it spells, whatever the
bound. The spelling of sources has no end of its own. It is read as the same wildcard unless the
bound ends in pairs `[]`: these are then taken for pairs behind the wildcard, and the name for an
array of wildcards (`Side.spellings_agree_unless_pairs`).
-/

namespace Referent.Name

namespace Side

variable {side : Side} {bound : String} {element : List Char} {dimensions : Nat}

/-! ## Spellings -/

/-- A wildcard with its bound in brackets. -/
def compact : Side → String → String
  | upper, bound => "<?+" ++ bound ++ ">"
  | lower, bound => "<?-" ++ bound ++ ">"

/-- A wildcard as sources write it. -/
def source : Side → String → String
  | upper, bound => "? extends " ++ bound
  | lower, bound => "? super " ++ bound

theorem toList_compact :
    (side.compact bound).toList = inBrackets ('?' :: side.sign :: bound.toList) := by
  cases side <;> simp [compact, inBrackets, sign]

theorem toList_source : (side.source bound).toList = '?' :: ' ' :: side.word ++ bound.toList := by
  cases side <;> rw [source, String.toList_append] <;> rfl

/-! ## Brackets -/

/-- A name that ends with a bracket is no array. -/
theorem readArray_compact : readArray (side.compact bound).toList = none := by
  rw [Option.eq_none_iff_forall_ne_some]
  intro shape hread
  obtain ⟨element, dimensions, hends, -⟩ := readArray_eq_some_iff.1 hread
  have hlast : (side.compact bound).toList.getLast? = some '>' := by
    rw [toList_compact, inBrackets, ← List.cons_append, List.getLast?_concat]
  rw [hends.getLast?] at hlast
  exact absurd hlast (by decide)

theorem ofName_compact (h : bound ≠ "") :
    Shape.ofName (side.compact bound) = .wildcard (side.bound bound) := by
  have hread : readWildcard (side.compact bound).toList = some (.wildcard (side.bound bound)) := by
    have hinner : readCompactBound (side.sign :: bound.toList) = some (side.bound bound) := by
      have hnonempty : bound.toList ≠ [] := mt String.toList_eq_nil_iff.1 h
      refine readCompactBound_eq_some_iff.2 (.inr ⟨side, bound.toList, rfl, hnonempty, ?_⟩)
      rw [String.ofList_toList]
    rw [toList_compact, readWildcard_inBrackets, hinner, Option.map_some]
  simp [Shape.ofName, readArray_compact, hread]

/-! ## Sources -/

/-- The pairs that a name in the spelling of sources ends in are those of its bound. -/
theorem endsInPairs_source {whole : List Char} :
    EndsInPairs (side.source bound).toList whole dimensions ↔ ∃ element,
      whole = (side.source (String.ofList element)).toList ∧
        EndsInPairs bound.toList element dimensions := by
  have hfree : ∀ c ∈ '?' :: ' ' :: side.word, c ≠ '<' ∧ c ≠ '>' := by
    simpa using side.word_free
  have hmark : '[' ∉ '?' :: ' ' :: side.word := by cases side <;> decide
  simp only [toList_source, String.toList_ofList]
  exact endsInPairs_append_free hfree hmark

theorem readWildcard_source (h : bound ≠ "") (hsolid : Solid bound.toList) :
    readWildcard (side.source bound).toList = some (.wildcard (side.bound bound)) := by
  have htrim : Text.trimStart (' ' :: side.word ++ bound.toList) = side.word ++ bound.toList := by
    cases side <;> rfl
  have hrest : readSourceBound (' ' :: side.word ++ bound.toList) = some (side.bound bound) := by
    refine readSourceBound_eq_some_iff.2 (.inr ⟨side, bound.toList, htrim, ?_, ?_⟩)
    · rw [hsolid.trim]
      exact mt String.toList_eq_nil_iff.1 h
    · rw [hsolid.trim, String.ofList_toList]
  have hfront : Text.dropFront? "<?".toList ('?' :: (' ' :: side.word ++ bound.toList)) = none := by
    rfl
  rw [toList_source, List.cons_append, readWildcard, hfront]
  exact congrArg (Option.map Shape.wildcard) hrest

/-- If the bound ends in pairs, the wildcard is taken for an array. -/
theorem ofName_source_of_endsInPairs (h : EndsInPairs bound.toList element dimensions) :
    Shape.ofName (side.source bound) =
      .array (side.source (String.ofList element)) (UInt32.ofNat dimensions) := by
  rw [Shape.ofName_eq_array_iff, readArray_eq_some_iff]
  refine ⟨_, dimensions, endsInPairs_source.2 ⟨element, rfl, h⟩, ?_, ?_⟩
  · rw [toList_source]
    exact List.cons_ne_nil _ _
  · rw [String.ofList_toList]

/-- Otherwise it is read as it is in brackets. -/
theorem ofName_source_of_no_pairs (hbound : bound ≠ "") (hsolid : Solid bound.toList)
    (h : ¬ ∃ element dimensions, EndsInPairs bound.toList element dimensions) :
    Shape.ofName (side.source bound) = .wildcard (side.bound bound) := by
  have harray : readArray (side.source bound).toList = none := by
    rw [Option.eq_none_iff_forall_ne_some]
    intro shape hread
    obtain ⟨whole, dimensions, hends, -⟩ := readArray_eq_some_iff.1 hread
    obtain ⟨element, -, hinner⟩ := endsInPairs_source.1 hends
    exact h ⟨element, dimensions, hinner⟩
  simp [Shape.ofName, harray, readWildcard_source hbound hsolid]

/-- In brackets a wildcard is what it spells. As sources write it, it is the same wildcard exactly
if its bound does not end in pairs `[]`, and else an array, as if the pairs stood behind the
wildcard. -/
theorem spellings_agree_unless_pairs (side : Side) (bound : String) (hbound : bound ≠ "")
    (hsolid : Solid bound.toList) :
    Shape.ofName (side.compact bound) = .wildcard (side.bound bound) ∧
    (Shape.ofName (side.source bound) = Shape.ofName (side.compact bound) ↔
      ¬ ∃ element dimensions, EndsInPairs bound.toList element dimensions) ∧
    ∀ element dimensions, EndsInPairs bound.toList element dimensions →
      Shape.ofName (side.source bound) =
        .array (side.source (String.ofList element)) (UInt32.ofNat dimensions) := by
  have hcompact : Shape.ofName (side.compact bound) = .wildcard (side.bound bound) :=
    ofName_compact hbound
  refine ⟨hcompact, ⟨?_, ?_⟩, fun element dimensions => ofName_source_of_endsInPairs⟩
  · rintro hsame ⟨element, dimensions, hends⟩
    rw [hcompact, ofName_source_of_endsInPairs hends] at hsame
    cases hsame
  · intro hnone
    rw [hcompact]
    exact ofName_source_of_no_pairs hbound hsolid hnone

/-- A bound that ends with its arguments. -/
theorem bounded_by_box_agrees :
    let bound := "a.Box<b.Item[]>"
    bound ≠ "" ∧ Solid bound.toList ∧
    Shape.ofName "? extends a.Box<b.Item[]>" = Shape.ofName "<?+a.Box<b.Item[]>>" := by
  intro bound
  have hbound : bound ≠ "" := by decide
  have hsolid : Solid bound.toList := ⟨by simp [bound]; decide, by simp [bound]; decide⟩
  have hnone : ¬ ∃ element dimensions, EndsInPairs bound.toList element dimensions := by
    rintro ⟨element, dimensions, hends⟩
    exact absurd hends.getLast? (by decide)
  exact ⟨hbound, hsolid, (spellings_agree_unless_pairs .upper bound hbound hsolid).2.1.2 hnone⟩

/-- A bound that is an array. -/
theorem bounded_by_array_differs :
    (Shape.ofName "<?+int[]>" = .wildcard (.upper "int[]") ∧
      Shape.ofName "? extends int[]" = .array "? extends int" 1) ∧
    (Shape.ofName "<?-int[]>" = .wildcard (.lower "int[]") ∧
      Shape.ofName "? super int[]" = .array "? super int" 1) := by
  decide +kernel

end Side

end Referent.Name
