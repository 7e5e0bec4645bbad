import Referent.Proofs.Choice
import Referent.Proofs.Lasting
import Referent.Proofs.Upkeep

/-!
# Answers are well formed

An answer to a virtual lookup comes about in five ways (`Exit`): it was remembered, the name is
bound, a compound type is made, dispatch decides, or it leaves the name to a placeholder. In a
model that a build has made and that only questions have changed since, the answer is well formed
in each of them (`Built.answers_well_formed`): no placeholder passes for a declaration, and the
placeholder that is answered is the one of that very name.

What is remembered was an answer once. A property that answers have when they are given, and that
growth keeps, therefore holds of all that is remembered (`Lasting.remembered`) and of every answer
(`Lasting.answered`).
-/

namespace Referent

open LookupState

/-! ## Remembered answers -/

namespace LookupState

variable {base : Nat} {start state after : LookupState} {name : String} {binding : Binding}

/-- A property that an answer has when it is given by a lookup that remembers nothing of the
name, and that it keeps while the model grows. -/
structure Lasting (start : LookupState) (Holds : LookupState → String → Binding → Prop) :
    Prop where
  given {base : Nat} {before after : LookupState} {name : String} {binding : Binding} :
    start.Leads before → Ready base before → before.model.memoized? name = none →
    ProjectModel.getVirtualEntity name before = .ok binding after → Holds after name binding
  kept {base : Nat} {before after : LookupState} {name : String} {binding : Binding} :
    Ready base before → Grows (fun _ => False) before after → Holds before name binding →
    Holds after name binding

variable {Holds : LookupState → String → Binding → Prop}

theorem Lasting.remembered (h : Lasting start Holds) (hstart : Ready base start)
    (hold : ∀ name binding, start.model.memoized? name = some binding → Holds start name binding)
    (hstate : start.Leads state) (hmemo : state.model.memoized? name = some binding) :
    Holds state name binding := by
  induction hstate generalizing name binding with
  | here => exact hold name binding hmemo
  | @asked before question hbefore ih =>
    obtain ⟨_, hready, -⟩ := hbefore.grows hstart
    have hgrows : Grows (fun _ => False) before (before.leaving question.ask) :=
      (question_adds hready question).grows.weaken fun _ => False.elim
    cases question with
    | plain other =>
      have hbindings : (before.leaving (Question.plain other).ask).model.bindings =
          before.model.bindings := by
        rw [leaving_plain]
        exact (leaving_getEntity_adds hready other).bindings
      rw [ProjectModel.memoized?, hbindings] at hmemo
      exact h.kept hready hgrows (ih hmemo)
    | «virtual» other =>
      rw [leaving_virtual] at hmemo hgrows ⊢
      rcases memoized?_virtual hready hmemo with hearly | ⟨rfl, hnew, hrun⟩
      · exact h.kept hready hgrows (ih hearly)
      · exact h.given hbefore hready hnew hrun
  | meanwhile hbefore helse ih =>
    obtain ⟨_, hready, -⟩ := hbefore.grows hstart
    exact h.kept hready (hready.elsewhere helse).2 (ih hmemo)

theorem Lasting.answered (h : Lasting start Holds) (hstart : Ready base start)
    (hold : ∀ name binding, start.model.memoized? name = some binding → Holds start name binding)
    (hstate : start.Leads state)
    (hrun : ProjectModel.getVirtualEntity name state = .ok binding after) :
    Holds after name binding := by
  cases hmemo : state.model.memoized? name with
  | some early =>
    rw [ProjectModel.getVirtualEntity_memoized hmemo] at hrun
    cases hrun
    exact h.remembered hstart hold hstate hmemo
  | none =>
    obtain ⟨_, hready, -⟩ := hstate.grows hstart
    exact h.given hstate hready hmemo hrun

/-! ## Well-formed answers -/

/-- What a caller may rely on in an answer to a virtual lookup of a name. -/
inductive WellFormed (state : LookupState) (name : String) : Binding → Prop
  | resolved {target : EntityRef} {entity : Entity} :
      state.model.entity? target = some entity → entity.kind ≠ .unknown →
      WellFormed state name (.resolved target)
  | unresolved {target : EntityRef} {entity : Entity} :
      state.model.entity? target = some entity → entity.kind = .unknown →
      entity.origin = .unknown → entity.name = name →
      (Name.compoundKind? name = none →
        ProjectModel.getEntity name state = .ok target state) →
      WellFormed state name (.unresolved target)
  | ambiguous {targets : List EntityRef} :
      2 ≤ targets.length → targets.Nodup →
      (∀ target ∈ targets, ∃ entity, state.model.entity? target = some entity ∧
        entity.kind ≠ .unknown) →
      WellFormed state name (.ambiguous targets)

theorem WellFormed.grows {kept : EntityId → Prop} (h : state.WellFormed name binding)
    (hready : Ready base state) (hgrows : Grows kept state after) :
    after.WellFormed name binding := by
  cases h with
  | resolved hentity hkind => exact .resolved (hgrows.entity? hentity) hkind
  | unresolved hentity hkind horigin hname hplain =>
    refine .unresolved (hgrows.entity? hentity) hkind horigin hname ?_
    intro hshape
    have hdenotes := (adds_of_getEntity hready (hplain hshape)).2
    exact ProjectModel.getEntity_of_denotes (hgrows.denotes hdenotes)
  | ambiguous hseveral hnodup hkinds =>
    refine .ambiguous hseveral hnodup ?_
    intro target htarget
    obtain ⟨entity, hentity, hkind⟩ := hkinds target htarget
    exact ⟨entity, hgrows.entity? hentity, hkind⟩

theorem ne_unknown_of_isSynthesized {kind : EntityKind} (h : kind.isSynthesized = true) :
    kind ≠ .unknown := by
  rintro rfl
  cases h

theorem ne_unknown_of_declared {kind : EntityKind} (h : kind ∈ EntityKind.declared) :
    kind ≠ .unknown := by
  rintro rfl
  revert h
  decide

variable {kept : EntityId → Prop}

/-- What a name is bound to is no placeholder. -/
theorem Grows.kind_of_bound (h : Grows kept start state) (hfresh : start.model.Fresh)
    (hready : Ready base state) {target : EntityRef}
    (hbound : state.model.find? name = some target ∨
      state.model.library.find? name = some target) :
    ∃ entity, state.model.entity? target = some entity ∧ entity.kind ≠ .unknown := by
  rcases hbound with hown | hshared
  · obtain ⟨entity, hentity⟩ := hready.entity?_of_denotes (.bound hown)
    refine ⟨entity, hentity, ?_⟩
    rcases h.find?_cases name with hsame | ⟨-, slot, kind, id, hmade, hkind, hcompound⟩
    · -- It was bound by the build, hence declared.
      rw [hsame] at hown
      obtain ⟨slot, hslot, rfl⟩ := Option.map_eq_some_iff.1 hown
      have hlt := hfresh.table.slot_lt name slot hslot
      have hearly : start.model.entity? (.project slot) = some start.model.table.arena[slot] :=
        Array.getElem?_eq_getElem hlt
      have hlate := h.entity? hearly
      rw [hentity] at hlate
      cases hlate
      exact ne_unknown_of_declared (hfresh.declared hearly)
    · rw [hmade] at hown
      cases hown
      rw [hentity] at hcompound
      cases hcompound
      exact ne_unknown_of_isSynthesized (isSynthesized_of_compoundKind? hkind)
  · rw [h.library] at hshared
    obtain ⟨entity, hentity⟩ :=
      Option.isSome_iff_exists.1 (hfresh.library.isSome_of_find? hshared)
    obtain ⟨slot, -, rfl⟩ := Option.map_eq_some_iff.1 hshared
    have hearly : start.model.entity? (.library slot) = some entity := hentity
    exact ⟨entity, h.entity? hearly, ne_unknown_of_declared (hfresh.declared hearly)⟩

/-- What dispatch decides is well formed. -/
theorem Grows.wellFormed_dispatch (h : Grows kept start state) (hfresh : start.model.Fresh)
    (hready : Ready base state) (hbinding : (state.model.dispatch name).binding = some binding) :
    state.WellFormed name binding := by
  obtain ⟨hstatus, htargets⟩ := ProjectModel.dispatch_targets hbinding
  have hkinds : ∀ target ∈ binding.targets, ∃ entity, state.model.entity? target = some entity ∧
      entity.kind ≠ .unknown := by
    intro target htarget
    obtain ⟨other, hbound⟩ := htargets target htarget
    exact h.kind_of_bound hfresh hready hbound
  cases binding with
  | resolved target =>
    obtain ⟨entity, hentity, hkind⟩ := hkinds target (List.mem_singleton_self _)
    exact .resolved hentity hkind
  | unresolved target => exact absurd rfl hstatus
  | ambiguous targets =>
    rcases state.model.dispatch_cases name with
      ⟨ref, view, found, -, -, -, -, heq⟩ | ⟨target, heq⟩
    · rw [heq] at hbinding
      obtain ⟨hseveral, hnodup⟩ := Hierarchy.resolve_ambiguous hbinding
      exact .ambiguous hseveral hnodup hkinds
    · rw [heq] at hbinding
      cases target <;> cases hbinding

/-- The placeholder that an open name gets is the one of that name. -/
theorem wellFormed_open (hready : Ready base state) (hany : state.model.findAny? name = none)
    {anomaly : Option Anomaly} {target : EntityRef}
    (hrun : Lookup.unknown name (state.noting anomaly) = .ok target after) :
    (after.remembering name (.unresolved target)).WellFormed name (.unresolved target) := by
  have hunknown := unknown_noting_adds hready name anomaly
  rw [hrun] at hunknown
  obtain ⟨hadds, hplaceholder⟩ := hunknown
  obtain ⟨slot, id, rfl, hentity⟩ := hadds.ready.placeholder name target hplaceholder
  have hseen : (after.remembering name (.unresolved (.project slot))).model.entity?
      (.project slot) = some (PlaceholderCache.entity name id) := hentity
  refine .unresolved hseen rfl rfl rfl ?_
  intro hshape
  obtain ⟨hown, hshared⟩ := ProjectModel.findAny?_eq_none.1 hany
  have hfree := hadds.grows.slot?_eq_none hshape (Option.map_eq_none_iff.1 hown)
  apply ProjectModel.getEntity_of_denotes
  refine .placeholder (Option.map_eq_none_iff.2 hfree) hshape ?_ hplaceholder
  show after.model.library.find? name = none
  rw [hadds.grows.library]
  exact hshared

/-- An answer is well formed when it is given. -/
theorem Grows.wellFormed_virtual (h : Grows kept start state) (hfresh : start.model.Fresh)
    (hready : Ready base state) (hmemo : state.model.memoized? name = none)
    (hrun : ProjectModel.getVirtualEntity name state = .ok binding after) :
    after.WellFormed name binding := by
  have hexit := ProjectModel.getVirtualEntity_exit name state
  have hadds := getVirtualEntity_adds hready name
  rw [leaving_of_ok hrun] at hadds
  rw [hrun] at hexit
  cases hexit with
  | remembered hold =>
    rw [hmemo] at hold
    cases hold
  | bound _ hany =>
    rw [ProjectModel.findAny?, Option.orElse_eq_orElse, Option.orElse_eq_or,
      Option.or_eq_some_iff] at hany
    obtain ⟨entity, hentity, hkind⟩ :=
      h.kind_of_bound hfresh hready (hany.imp id And.right)
    exact .resolved hentity hkind
  | made _ hany hcompound hget =>
    obtain ⟨kind, hkind⟩ := isSome_compoundKind? hcompound
    obtain ⟨id, -, hentity⟩ :=
      compound_of_getEntity hready (ProjectModel.findAny?_eq_none.1 hany).1 hkind hget
    exact .resolved hentity (ne_unknown_of_isSynthesized (isSynthesized_of_compoundKind? hkind))
  | decided _ _ _ hbinding =>
    exact (h.wellFormed_dispatch hfresh hready hbinding).grows hready hadds.grows
  | placed _ hany _ _ hunknown => exact wellFormed_open hready hany hunknown

theorem wellFormed_lasting {model : ProjectModel} (hfresh : model.Fresh) {corpus : Access}
    (hstore : corpus.store.Reached) (cache : PlaceholderCache) :
    Lasting { corpus, cache, model } WellFormed where
  given hbefore hready hmemo hrun := by
    obtain ⟨_, _, hgrows⟩ := hbefore.grows (hfresh.ready hstore cache)
    exact hgrows.wellFormed_virtual hfresh hready hmemo hrun
  kept hready hgrows h := h.grows hready hgrows

end LookupState

namespace ProjectModel

variable {model : ProjectModel}

/-- Whatever was asked before, an answer to a virtual lookup is well formed, and stays so. -/
theorem Built.answers_well_formed (hbuilt : model.Built) {corpus : Access}
    (hstore : corpus.store.Reached) (cache : PlaceholderCache) {state after : LookupState}
    {name : String} {binding : Binding}
    (hstate : LookupState.Leads { corpus, cache, model } state)
    (hrun : getVirtualEntity name state = .ok binding after) :
    ∀ later, after.Leads later → later.WellFormed name binding := by
  have hfresh := hbuilt.fresh
  have hstart := hfresh.ready hstore cache
  have hlasting := wellFormed_lasting hfresh hstore cache
  have hanswer : after.WellFormed name binding := by
    apply hlasting.answered hstart ?_ hstate hrun
    intro other early hmemo
    simp [hfresh.memoized?_eq_none] at hmemo
  intro later hlater
  obtain ⟨_, hready, -⟩ := hstate.grows hstart
  have hadds := getVirtualEntity_adds hready name
  rw [leaving_of_ok hrun] at hadds
  obtain ⟨_, -, hgrows⟩ := hlater.grows hadds.ready
  exact hanswer.grows hadds.ready hgrows

/-- A member of a type that nothing declares, asked for after an array has been made. -/
theorem Built.missing_member_well_formed :
    let start : LookupState :=
      { corpus := { store := boxStore }, cache := { owner := ⟨9⟩ }, model := boxModel }
    let state := start.leaving (Question.plain "a.Box<T>[]").ask
    boxModel.Built ∧ boxStore.Reached ∧ start.Leads state ∧ ∃ target after,
      getVirtualEntity "a.Gone.m()" state = .ok (.unresolved target) after ∧
        after.WellFormed "a.Gone.m()" (.unresolved target) := by
  intro start state
  have hstore : start.corpus.store.Reached := Store.reached_ofRows _
  have hstate : start.Leads state := .asked _ .here
  have hstatus : (state.told? "a.Gone.m()").map Prod.fst = some .unresolved := by decide +kernel
  cases hrun : getVirtualEntity "a.Gone.m()" state with
  | error err after =>
    rw [told?, hrun] at hstatus
    cases hstatus
  | ok binding after =>
    rw [told?, hrun] at hstatus
    have hanswer := boxModel_built.answers_well_formed hstore _ hstate hrun after .here
    cases binding with
    | unresolved target => exact ⟨boxModel_built, hstore, hstate, target, after, rfl, hanswer⟩
    | resolved target => cases hstatus
    | ambiguous targets => cases hstatus

end ProjectModel

end Referent
