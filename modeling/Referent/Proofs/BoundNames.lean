import Referent.Proofs.OwnMembers
import Referent.Proofs.Steady
import Referent.Proofs.Upkeep

/-!
# Bound names in plain and virtual lookups

A name that a project or its library binds denotes the same entity in both lookups, which find it
and change nothing (`LookupState.FoundAlike`). The exception comes from the order in which a plain
lookup goes about it: it makes a compound type before it asks the library, and a virtual lookup asks
the library before it makes anything. A name that only the library binds, and that reads as a
compound type (`ProjectModel.MadeFirst`), is therefore never found alike
(`Built.bound_name_found_alike_unless_made`).
-/

namespace Referent

open LookupState

variable {model : ProjectModel} {state : LookupState} {name : String} {ref : EntityRef}

/-- Both lookups find the entity, and change nothing. -/
structure LookupState.FoundAlike (state : LookupState) (name : String) (ref : EntityRef) :
    Prop where
  plain : ProjectModel.getEntity name state = .ok ref state
  «virtual» : ProjectModel.getVirtualEntity name state = .ok (.resolved ref) state

namespace ProjectModel

/-- A plain lookup makes a compound type of the name before it asks the library for it. -/
def MadeFirst (model : ProjectModel) (name : String) : Prop :=
  model.find? name = none ∧ Name.compoundKind? name ≠ none

theorem not_madeFirst_of_isMethod (h : Name.isMethod name = true) : ¬ model.MadeFirst name := by
  rintro ⟨-, hkind⟩
  rw [Name.compoundKind?, h] at hkind
  exact hkind rfl

theorem not_madeFirst_of_simple (h : Name.Shape.ofName name = .simple) :
    ¬ model.MadeFirst name := by
  rintro ⟨-, hkind⟩
  rw [Name.compoundKind?, h] at hkind
  split at hkind <;> exact hkind rfl

theorem foundAlike_of_bound (hmemo : state.model.memoized? name = none)
    (hbound : state.model.findAny? name = some ref) (hname : ¬ state.model.MadeFirst name) :
    state.FoundAlike name ref where
  plain := by
    cases hfind : state.model.find? name with
    | some found =>
      rw [findAny?, hfind] at hbound
      cases hbound
      exact getEntity_found hfind
    | none =>
      rw [findAny?, hfind] at hbound
      have hkind : Name.compoundKind? name = none := by
        by_contra hkind
        exact hname ⟨hfind, hkind⟩
      exact getEntity_library hfind hkind hbound
  «virtual» := getVirtualEntity_found hmemo hbound

/-- A plain lookup of a name that is made first never comes to what the library binds to it. -/
theorem made_of_madeFirst {base : Nat} (h : Ready base state) (hname : state.model.MadeFirst name)
    (hbound : state.model.findAny? name = some ref) {made : EntityRef} {after : LookupState}
    (hrun : getEntity name state = .ok made after) :
    made ≠ ref ∧ state.MadeSince after name made := by
  obtain ⟨hfree, hshape⟩ := hname
  obtain ⟨kind, hkind⟩ := Option.ne_none_iff_exists'.1 hshape
  refine ⟨?_, madeSince_of_getEntity h hfree hkind hrun⟩
  obtain ⟨-, hmade, -⟩ := compound_of_getEntity h hfree hkind hrun
  rw [findAny?, hfree] at hbound
  obtain ⟨slot, -, rfl⟩ := Option.map_eq_some_iff.1 hbound
  obtain ⟨slot', -, rfl⟩ := Option.map_eq_some_iff.1 hmade
  intro hsame
  cases hsame

/-- A name that a project or its library binds is found alike by both lookups, whichever of its
names it is under, unless it is made first. Then a virtual lookup still finds the library's entity
and changes nothing, but a plain lookup never comes to it: whenever it succeeds it has made another
entity and inserted a row for it, and it does succeed while the store fails nothing and has ids
left. Names with parameters and names of a simple shape are never made first. -/
theorem Built.bound_name_found_alike_unless_made (hbuilt : model.Built) {corpus : Access}
    (hstore : corpus.store.Reached) (cache : PlaceholderCache)
    (hbound : model.findAny? name = some ref) :
    let start : LookupState := { corpus, cache, model }
    (Name.isMethod name = true ∨ Name.Shape.ofName name = .simple → ¬ model.MadeFirst name) ∧
    (¬ model.MadeFirst name → start.FoundAlike name ref) ∧
    (model.MadeFirst name →
      getVirtualEntity name start = .ok (.resolved ref) start ∧
      (∀ made after, getEntity name start = .ok made after →
        made ≠ ref ∧ start.MadeSince after name made) ∧
      (corpus.Healthy (Name.weight name) → succeeds (getEntity name start) = true)) := by
  intro start
  have hmemo : model.memoized? name = none := hbuilt.fresh.memoized?_eq_none name
  have hready : Ready corpus.store.relations.size start := hbuilt.fresh.ready hstore cache
  refine ⟨?_, fun hname => foundAlike_of_bound hmemo hbound hname, fun hname => ⟨?_, ?_, ?_⟩⟩
  · rintro (hmethod | hsimple)
    · exact not_madeFirst_of_isMethod hmethod
    · exact not_madeFirst_of_simple hsimple
  · exact getVirtualEntity_found hmemo hbound
  · exact fun made after hrun => made_of_madeFirst hready hname hbound hrun
  · intro hhealthy
    have hsucceeds : Lookup.Succeeds 0 (getEntity name start) :=
      getEntity_succeeds (by simpa using hhealthy)
    exact hsucceeds.succeeds_eq_true

/-- A generic class of the project is found alike under its erased signature, which reads as a
compound type. -/
theorem Built.erased_signature_found_alike :
    let start : LookupState :=
      { corpus := { store := overrideStore }, cache := { owner := ⟨9⟩ }, model := overrideModel }
    overrideModel.Built ∧ overrideStore.Reached ∧ Name.isCompoundType "a.Box<T>" = true ∧
      start.FoundAlike "a.Box<T>" (.project 2) := by
  intro start
  have hstore : start.corpus.store.Reached := overrideStore_reached
  have hbound : overrideModel.findAny? "a.Box<T>" = some (.project 2) := by decide +kernel
  have hname : ¬ overrideModel.MadeFirst "a.Box<T>" := by
    have hfind : overrideModel.find? "a.Box<T>" ≠ none := by decide +kernel
    exact fun hmade => hfind hmade.1
  obtain ⟨-, halike, -⟩ := overrideModel_built.bound_name_found_alike_unless_made hstore
    { owner := ⟨9⟩ } hbound
  exact ⟨overrideModel_built, overrideStore_reached, by decide +kernel, halike hname⟩

/-- A generic class of the library is found by a virtual lookup, and passed over by a plain one,
which comes to another entity and writes to the store. -/
theorem library_type_passed_over :
    let start : LookupState :=
      { corpus := { store := boxStore }, cache := { owner := ⟨9⟩ }, model := boxModel }
    boxModel.Built ∧ boxStore.Reached ∧ boxModel.findAny? "a.Box<T>" = some (.library 0) ∧
      getVirtualEntity "a.Box<T>" start = .ok (.resolved (.library 0)) start ∧
      ∃ made after, getEntity "a.Box<T>" start = .ok made after ∧ made ≠ .library 0 ∧
        boxStore.entities.size < after.corpus.store.entities.size := by
  intro start
  have hstore : start.corpus.store.Reached := Store.reached_ofRows _
  have hbound : start.model.findAny? "a.Box<T>" = some (.library 0) := by decide +kernel
  have hname : start.model.MadeFirst "a.Box<T>" := by
    constructor <;> decide +kernel
  have hok : succeeds (getEntity "a.Box<T>" start) = true := by decide +kernel
  have hrows : boxStore.entities.size <
      (start.leaving (getEntity "a.Box<T>")).corpus.store.entities.size := by decide +kernel
  obtain ⟨made, after, hrun⟩ := exists_ok_of_succeeds hok
  rw [leaving_of_ok hrun] at hrows
  have hmade := made_of_madeFirst (boxModel_built.fresh.ready hstore _) hname hbound hrun
  exact ⟨boxModel_built, hstore, hbound, getVirtualEntity_found rfl hbound, made, after, hrun,
    hmade.1, hrows⟩

end ProjectModel

end Referent
