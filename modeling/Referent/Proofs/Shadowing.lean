import Mathlib.Logic.Relation
import Referent.Proofs.Inheritance
import Referent.Proofs.Models

/-!
# What shadowing leaves

A supertype that declares a member shadows its own supertypes on the chains that go through it,
and on no others. So in a hierarchy without cycles every declaration above a receiver is
inherited or lies above an inherited one (`Hierarchy.exists_inherits_below`), but it may be both:
where a chain leads around a declaring type to a supertype of it that declares the member too
(`Hierarchy.Detour`), the receiver inherits from both. Without detours the types of several
candidates are unrelated.
-/

namespace Referent

/-- Two different candidates are several. -/
theorem Binding.ofCandidates_of_ne {refs : List EntityRef} {first second : EntityRef}
    (hfirst : first ∈ refs) (hsecond : second ∈ refs) (hne : first ≠ second) :
    Binding.ofCandidates refs = some (.ambiguous refs) := by
  match refs with
  | [] => simp at hfirst
  | [only] =>
    rw [List.mem_singleton.1 hfirst, List.mem_singleton.1 hsecond] at hne
    exact absurd rfl hne
  | _ :: _ :: _ => rfl

namespace Hierarchy

variable {hierarchy : Hierarchy} {member name : String} {receiver : EntityRef}

/-! ## Hierarchies without cycles -/

/-- Going up one step or more leads from one entity to another. -/
def Ancestor (hierarchy : Hierarchy) : EntityRef → EntityRef → Prop :=
  Relation.TransGen hierarchy.Above

/-- Going up never leads back. -/
def Acyclic (hierarchy : Hierarchy) : Prop :=
  ∀ ref, ¬ hierarchy.Ancestor ref ref

/-- A rank that falls with every step up falls on the way to every ancestor. -/
theorem Ancestor.rank_lt {rank : EntityRef → Nat}
    (hrank : ∀ child ∈ hierarchy.refs, ∀ parent ∈ hierarchy.supertypes child,
      rank parent < rank child) {child top : EntityRef} (h : hierarchy.Ancestor child top) :
    rank top < rank child := by
  induction h with
  | single habove => exact hrank _ habove.mem_refs _ (mem_supertypes.2 habove)
  | tail _ habove ih =>
    exact Nat.lt_trans (hrank _ habove.mem_refs _ (mem_supertypes.2 habove)) ih

theorem Acyclic.of_rank (rank : EntityRef → Nat)
    (hrank : ∀ child ∈ hierarchy.refs, ∀ parent ∈ hierarchy.supertypes child,
      rank parent < rank child) : hierarchy.Acyclic :=
  fun _ h => Nat.lt_irrefl _ (h.rank_lt hrank)

theorem Ascent.ancestor {top : EntityRef} (h : hierarchy.Ascent member receiver top) :
    hierarchy.Ancestor receiver top := by
  induction h with
  | first habove => exact .single habove
  | next _ _ habove ih => exact .tail ih habove

/-! ## What lies above an inherited declaration -/

/-- What a chain leads to is inherited, if it declares the member and the chain does not lead back
to the receiver. -/
theorem Ascent.inherits (hacyclic : hierarchy.Acyclic) {top : EntityRef}
    (h : hierarchy.Ascent member receiver top)
    (hdeclares : (hierarchy.finding? member top).isSome) :
    ∃ finding, hierarchy.Inherits member receiver finding ∧ finding.ancestor = top := by
  obtain ⟨finding, hfinding⟩ := Option.isSome_iff_exists.1 hdeclares
  obtain rfl := ancestor_of_finding? hfinding
  refine ⟨finding, ⟨fun heq => hacyclic receiver ?_, h, hfinding⟩, rfl⟩
  have hancestor := h.ancestor
  rwa [heq] at hancestor

/-- An ancestor is at the end of a chain, or above a type whose declaration is inherited. -/
theorem Ancestor.ascent_or_above (hacyclic : hierarchy.Acyclic) {top : EntityRef}
    (h : hierarchy.Ancestor receiver top) (member : String) :
    hierarchy.Ascent member receiver top ∨
      ∃ finding, hierarchy.Inherits member receiver finding ∧
        hierarchy.Ancestor finding.ancestor top := by
  induction h with
  | single habove => exact .inl (.first habove)
  | @tail ref top _ habove ih =>
    rcases ih with hascent | ⟨finding, hinherits, hancestor⟩
    · cases hfinding : hierarchy.finding? member ref with
      | none => exact .inl (.next hascent hfinding habove)
      | some found =>
        -- The type stops every chain through it; what is above it is above an inherited one.
        obtain ⟨finding, hinherits, rfl⟩ := hascent.inherits hacyclic (by rw [hfinding]; rfl)
        exact .inr ⟨finding, hinherits, .single habove⟩
    · exact .inr ⟨finding, hinherits, .tail hancestor habove⟩

/-- No declaration is lost: every ancestor that declares the member is the type of an inherited
declaration or above one. -/
theorem exists_inherits_below (hacyclic : hierarchy.Acyclic) {top : EntityRef}
    (h : hierarchy.Ancestor receiver top)
    (hdeclares : (hierarchy.finding? member top).isSome) :
    ∃ finding, hierarchy.Inherits member receiver finding ∧
      (finding.ancestor = top ∨ hierarchy.Ancestor finding.ancestor top) := by
  rcases h.ascent_or_above hacyclic member with hascent | ⟨finding, hinherits, habove⟩
  · obtain ⟨finding, hinherits, heq⟩ := hascent.inherits hacyclic hdeclares
    exact ⟨finding, hinherits, .inl heq⟩
  · exact ⟨finding, hinherits, .inr habove⟩

/-! ## Detours -/

/-- The receiver inherits the declaration of a type and that of a supertype of it. -/
structure Related (hierarchy : Hierarchy) (member : String) (receiver : EntityRef)
    (lower upper : Finding) : Prop where
  lower_inherited : hierarchy.Inherits member receiver lower
  upper_inherited : hierarchy.Inherits member receiver upper
  above : hierarchy.Ancestor lower.ancestor upper.ancestor

/-- Two ancestors of the receiver declare the member, one above the other, and a chain that meets
no declaring type leads around the lower to the upper. -/
structure Detour (hierarchy : Hierarchy) (member : String) (receiver lower upper : EntityRef) :
    Prop where
  below : hierarchy.Ancestor receiver lower
  above : hierarchy.Ancestor lower upper
  lower_declares : (hierarchy.finding? member lower).isSome
  upper_declares : (hierarchy.finding? member upper).isSome
  around : hierarchy.Ascent member receiver upper

/-- Inherited declarations are related exactly where there is a detour. -/
theorem related_iff_detour (hacyclic : hierarchy.Acyclic) :
    (∃ lower upper, hierarchy.Related member receiver lower upper) ↔
      ∃ lower upper, hierarchy.Detour member receiver lower upper := by
  constructor
  · rintro ⟨lower, upper, hlower, hupper, habove⟩
    refine ⟨lower.ancestor, upper.ancestor, hlower.ascent.ancestor, habove, ?_, ?_, hupper.ascent⟩
    · rw [hlower.declares]
      rfl
    · rw [hupper.declares]
      rfl
  · rintro ⟨lower, upper, hdetour⟩
    obtain ⟨finding, hlower, hbelow⟩ :=
      exists_inherits_below hacyclic hdetour.below hdetour.lower_declares
    obtain ⟨other, hupper, rfl⟩ := hdetour.around.inherits hacyclic hdetour.upper_declares
    refine ⟨finding, other, hlower, hupper, ?_⟩
    rcases hbelow with rfl | hbelow
    · exact hdetour.above
    · exact hbelow.trans hdetour.above

/-! ## Several candidates -/

/-- A member comes out as one of several candidates, of which one is declared by a type and
another by a supertype of it. -/
def RelatedCandidates (hierarchy : Hierarchy) (member : String) (receiver : EntityRef)
    (dispatch : Dispatch) : Prop :=
  ∃ targets lower upper, dispatch.binding = some (.ambiguous targets) ∧
    hierarchy.Related member receiver lower upper ∧ lower.declaration ∈ targets ∧
    upper.declaration ∈ targets ∧ lower.declaration ≠ upper.declaration

variable {lower upper : Finding}

/-- Related declarations of a field are candidates. -/
theorem Related.field (h : hierarchy.Related member receiver lower upper)
    (hne : lower.declaration ≠ upper.declaration) (name : String) :
    hierarchy.RelatedCandidates member receiver (hierarchy.resolveField receiver name member) := by
  obtain ⟨fields, hfields, heq⟩ := hierarchy.resolveField_candidates receiver name member
  have hlower := (hfields.mem_iff _).2 ⟨lower, h.lower_inherited, trivial, rfl⟩
  have hupper := (hfields.mem_iff _).2 ⟨upper, h.upper_inherited, trivial, rfl⟩
  refine ⟨fields, lower, upper, ?_, h, hlower, hupper, hne⟩
  rw [heq, binding_chosenField, Binding.ofCandidates_of_ne hlower hupper hne]

/-- Related declarations of a method are candidates if both stand in classes, or if none that is
inherited does. -/
theorem Related.method (h : hierarchy.Related member receiver lower upper)
    (hne : lower.declaration ≠ upper.declaration) (name : String)
    (hcount : (lower.kind ≠ .interface ∧ upper.kind ≠ .interface) ∨
      ∀ finding, hierarchy.Inherits member receiver finding → finding.kind = .interface) :
    hierarchy.RelatedCandidates member receiver
      (hierarchy.resolveMethod receiver name member) := by
  obtain ⟨classes, interfaces, hclasses, hinterfaces, heq⟩ :=
    hierarchy.resolveMethod_candidates receiver name member
  rcases hcount with ⟨hlowerKind, hupperKind⟩ | hcount
  · have hlower := (hclasses.mem_iff _).2 ⟨lower, h.lower_inherited, hlowerKind, rfl⟩
    have hupper := (hclasses.mem_iff _).2 ⟨upper, h.upper_inherited, hupperKind, rfl⟩
    refine ⟨classes, lower, upper, ?_, h, hlower, hupper, hne⟩
    rw [heq, binding_chosenMethod, if_neg, Binding.ofCandidates_of_ne hlower hupper hne]
    rw [List.isEmpty_iff]
    exact List.ne_nil_of_mem hlower
  · have hnone : classes = [] := by
      rw [List.eq_nil_iff_forall_not_mem]
      intro target htarget
      obtain ⟨finding, hinherits, hkind, -⟩ := (hclasses.mem_iff target).1 htarget
      exact hkind (hcount finding hinherits)
    have hlower := (hinterfaces.mem_iff _).2
      ⟨lower, h.lower_inherited, hcount _ h.lower_inherited, rfl⟩
    have hupper := (hinterfaces.mem_iff _).2
      ⟨upper, h.upper_inherited, hcount _ h.upper_inherited, rfl⟩
    refine ⟨interfaces, lower, upper, ?_, h, hlower, hupper, hne⟩
    rw [heq, binding_chosenMethod, hnone]
    exact Binding.ofCandidates_of_ne hlower hupper hne

/-- **What shadowing leaves.** In a hierarchy without cycles a receiver inherits from a type and
from a supertype of it exactly where there is a detour. Where there is none, the types of several
candidates are unrelated, for methods and for fields. Where there is one, two different
declarations that it relates are both candidates for a field, and for a method too if both stand
in classes or nothing is inherited from a class. -/
theorem candidates_unrelated_unless_detour (hacyclic : hierarchy.Acyclic) (receiver : EntityRef)
    (name member : String) :
    ((∃ lower upper, hierarchy.Related member receiver lower upper) ↔
      ∃ lower upper, hierarchy.Detour member receiver lower upper) ∧
    ((¬ ∃ lower upper, hierarchy.Detour member receiver lower upper) →
      ¬ hierarchy.RelatedCandidates member receiver
          (hierarchy.resolveMethod receiver name member) ∧
      ¬ hierarchy.RelatedCandidates member receiver
          (hierarchy.resolveField receiver name member)) ∧
    (∀ lower upper, hierarchy.Related member receiver lower upper →
      lower.declaration ≠ upper.declaration →
      hierarchy.RelatedCandidates member receiver
        (hierarchy.resolveField receiver name member) ∧
      ((lower.kind ≠ .interface ∧ upper.kind ≠ .interface) ∨
          (∀ finding, hierarchy.Inherits member receiver finding → finding.kind = .interface) →
        hierarchy.RelatedCandidates member receiver
          (hierarchy.resolveMethod receiver name member))) := by
  have hiff : (∃ lower upper, hierarchy.Related member receiver lower upper) ↔
      ∃ lower upper, hierarchy.Detour member receiver lower upper := related_iff_detour hacyclic
  refine ⟨hiff, fun hnone => ?_, fun lower upper hrelated hne => ?_⟩
  · have hunrelated {dispatch : Dispatch} :
        ¬ hierarchy.RelatedCandidates member receiver dispatch := by
      rintro ⟨-, lower, upper, -, hrelated, -⟩
      exact hnone (hiff.1 ⟨lower, upper, hrelated⟩)
    exact ⟨hunrelated, hunrelated⟩
  · exact ⟨hrelated.field hne name, hrelated.method hne name⟩

/-- `a.A` implements `a.I` and `a.J`, which both extend `a.K`, and all three declare the method. -/
def diamondHierarchy : Hierarchy where
  library := #[
    { name := "a.A", kind := .class, id := ⟨1⟩, origin := .library
      parents := [.library 1, .library 2] },
    { name := "a.I", kind := .interface, id := ⟨2⟩, origin := .library, parents := [.library 3] },
    { name := "a.J", kind := .interface, id := ⟨3⟩, origin := .library, parents := [.library 3] },
    { name := "a.K", kind := .interface, id := ⟨4⟩, origin := .library }]
  project := #[]
  declared? name :=
    [("a.I.m()", .library 4), ("a.J.m()", .library 5), ("a.K.m()", .library 6)].lookup name

/-- Where both chains to the shared supertype go through a declaring type, it is shadowed on
both, and the candidates are unrelated. -/
theorem diamond_candidates_unrelated :
    diamondHierarchy.Acyclic ∧
    (¬ ∃ lower upper, diamondHierarchy.Detour "m()" (.library 0) lower upper) ∧
    (diamondHierarchy.resolveMethod (.library 0) "a.A.m()" "m()").binding =
      some (.ambiguous [.library 4, .library 5]) ∧
    diamondHierarchy.Ancestor (.library 0) (.library 3) ∧
    (diamondHierarchy.finding? "m()" (.library 3)).isSome ∧
    ¬ diamondHierarchy.RelatedCandidates "m()" (.library 0)
      (diamondHierarchy.resolveMethod (.library 0) "a.A.m()" "m()") := by
  let rank : EntityRef → Nat
    | .library 0 => 2
    | .library 1 | .library 2 => 1
    | _ => 0
  have hrank : ∀ child ∈ diamondHierarchy.refs, ∀ parent ∈ diamondHierarchy.supertypes child,
      rank parent < rank child := by decide +kernel
  have hacyclic : diamondHierarchy.Acyclic := .of_rank rank hrank
  have hfindings : ∀ finding ∈ diamondHierarchy.findings (.library 0) "m()",
      rank finding.ancestor = 1 := by decide +kernel
  have hall := candidates_unrelated_unless_detour hacyclic (.library 0) "a.A.m()" "m()"
  have hnone : ¬ ∃ lower upper, diamondHierarchy.Detour "m()" (.library 0) lower upper := by
    rw [← hall.1]
    rintro ⟨lower, upper, hlower, hupper, habove⟩
    have hlt := habove.rank_lt hrank
    rw [hfindings lower (mem_findings.2 hlower), hfindings upper (mem_findings.2 hupper)] at hlt
    exact Nat.lt_irrefl _ hlt
  refine ⟨hacyclic, hnone, by decide +kernel, ?_, by decide +kernel, (hall.2.1 hnone).1⟩
  exact .tail (.single (mem_supertypes.1 (by decide +kernel : .library 1 ∈ _)))
    (mem_supertypes.1 (by decide +kernel))

/-! ## A detour -/

/-- A library in which `a.A` implements `a.I` and `a.J`, and `a.I` extends `a.J`. Both interfaces
declare the method `m()` and the field `f`. -/
def detourStore : Store :=
  [{ kind := .implements, left := ⟨1⟩, right := ⟨2⟩, project := ⟨10⟩ },
    { kind := .implements, left := ⟨1⟩, right := ⟨3⟩, project := ⟨10⟩ },
    { kind := .extends, left := ⟨2⟩, right := ⟨3⟩, project := ⟨10⟩ }].foldl Store.relate
  (Store.ofRows
    [{ project := ⟨10⟩, name := "a.A", kind := .class, id := ⟨1⟩ },
     { project := ⟨10⟩, name := "a.I", kind := .interface, id := ⟨2⟩ },
     { project := ⟨10⟩, name := "a.J", kind := .interface, id := ⟨3⟩ },
     { project := ⟨10⟩, name := "a.I.m", kind := .method, params := some "()", id := ⟨4⟩ },
     { project := ⟨10⟩, name := "a.J.m", kind := .method, params := some "()", id := ⟨5⟩ },
     { project := ⟨10⟩, name := "a.I.f", kind := .field, id := ⟨6⟩ },
     { project := ⟨10⟩, name := "a.J.f", kind := .field, id := ⟨7⟩ }])

/-- The rows of the store loaded as a library. -/
def detourLibrary : LibraryModel :=
  { LibraryModel.empty .virtual with
    draft := (LibraryModel.empty .virtual).draft.fill .virtual detourStore [⟨10⟩] }

/-- The interface `a.J` is not shadowed by `a.I`, which extends it and declares the same method
and field, since `a.A` also implements it directly. -/
theorem supertype_unshadowed_by_detour :
    detourLibrary.hierarchy.Acyclic ∧
    detourLibrary.hierarchy.RelatedCandidates "m()" (.library 0)
      (detourLibrary.hierarchy.resolveMethod (.library 0) "a.A.m()" "m()") ∧
    detourLibrary.hierarchy.RelatedCandidates "f" (.library 0)
      (detourLibrary.hierarchy.resolveField (.library 0) "a.A.f" "f") ∧
    (detourLibrary.dispatch "a.A.m()").binding =
      some (.ambiguous [.library 3, .library 4]) ∧
    (detourLibrary.dispatch "a.A.f").binding = some (.ambiguous [.library 5, .library 6]) := by
  let rank : EntityRef → Nat
    | .library 0 => 2
    | .library 1 => 1
    | _ => 0
  have hacyclic : detourLibrary.hierarchy.Acyclic := .of_rank rank (by decide +kernel)
  have habove : detourLibrary.hierarchy.Ancestor (.library 1) (.library 2) :=
    .single (mem_supertypes.1 (by decide +kernel))
  have hmethod : detourLibrary.hierarchy.findings (.library 0) "m()" =
      [⟨.library 1, .interface, .library 3⟩, ⟨.library 2, .interface, .library 4⟩] := by
    decide +kernel
  have hfield : detourLibrary.hierarchy.findings (.library 0) "f" =
      [⟨.library 1, .interface, .library 5⟩, ⟨.library 2, .interface, .library 6⟩] := by
    decide +kernel
  have hmethods : detourLibrary.hierarchy.Related "m()" (.library 0)
      ⟨.library 1, .interface, .library 3⟩ ⟨.library 2, .interface, .library 4⟩ := by
    refine ⟨?_, ?_, habove⟩ <;> rw [← mem_findings, hmethod] <;> simp
  have hfields : detourLibrary.hierarchy.Related "f" (.library 0)
      ⟨.library 1, .interface, .library 5⟩ ⟨.library 2, .interface, .library 6⟩ := by
    refine ⟨?_, ?_, habove⟩ <;> rw [← mem_findings, hfield] <;> simp
  refine ⟨hacyclic, hmethods.method (by decide) _ (.inr ?_), hfields.field (by decide) _,
    by decide +kernel, by decide +kernel⟩
  intro finding hinherits
  rw [← mem_findings, hmethod] at hinherits
  revert finding
  decide

end Hierarchy

end Referent
