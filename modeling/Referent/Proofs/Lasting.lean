import Referent.Proofs.Steady

/-!
# Plain answers last

A plain lookup that has succeeded once gives the same reference ever after, also when the store
has begun to fail, and what it refers to is what a fresh model would have found
(`Built.plain_answers_last`). Both follow from what a lookup leaves behind: the name denotes the
answer from then on, so finding it again needs no call; and what a name comes to (`found?`) is
fixed by the model as it was built, whatever has been made since.

Between two questions the rest of the program goes on (`Elsewhere`): other models ask theirs,
with the same store and the same placeholders.
-/

namespace Referent

open LookupState

/-! ## Histories -/

namespace LookupState

/-- What other models do to a store and its placeholders: rows come, placeholders come, and the
plan of failures may be another one from then on. -/
structure Elsewhere (state : LookupState) (corpus : Access) (cache : PlaceholderCache) :
    Prop where
  reached : corpus.store.Reached
  entities : state.corpus.store.entities.toList <+: corpus.store.entities.toList
  relations : state.corpus.store.relations.toList <+: corpus.store.relations.toList
  owner : cache.owner = state.cache.owner
  entries : ∀ (name : String) (id : EntityId), state.cache.entries[name]? = some id →
    cache.entries[name]? = some id

/-- The states that a model gets to when it is asked questions, whatever becomes of them and
whatever goes on elsewhere in between. -/
inductive Leads (start : LookupState) : LookupState → Prop
  | here : Leads start start
  | asked {state : LookupState} (question : Question) : Leads start state →
      Leads start (state.leaving question.ask)
  | meanwhile {state : LookupState} {corpus : Access} {cache : PlaceholderCache} :
      Leads start state → state.Elsewhere corpus cache →
      Leads start { state with corpus, cache }

variable {base : Nat} {start state after : LookupState}

/-- What goes on elsewhere does not touch the model. -/
theorem Ready.elsewhere (h : Ready base state) {corpus : Access} {cache : PlaceholderCache}
    (helse : state.Elsewhere corpus cache) :
    Ready corpus.store.relations.size { state with corpus, cache } ∧
      Grows (fun _ => False) state { state with corpus, cache } := by
  constructor
  · refine { h with store := helse.reached, base_le := Nat.le_refl _, left := ?_ }
    intro row hrow
    rw [← Array.length_toList, List.drop_length] at hrow
    cases hrow
  · obtain ⟨added, hadded⟩ := helse.relations
    exact { Grows.refl (fun _ => False) state with
      row := fun row hrow => helse.entities.subset hrow
      relations := ⟨added, hadded.symm, fun _ _ => not_false⟩ }

/-- Nothing is lost along a history. -/
theorem Leads.grows (h : start.Leads state) (hstart : Ready base start) :
    ∃ base, Ready base state ∧ Grows (fun _ => False) start state := by
  induction h with
  | here => exact ⟨base, hstart, .refl _ start⟩
  | asked question _ ih =>
    obtain ⟨base, hready, hgrows⟩ := ih
    have hadds := question_adds hready question
    exact ⟨base, hadds.ready, hgrows.trans (hadds.grows.weaken fun _ => False.elim)⟩
  | meanwhile _ helse ih =>
    obtain ⟨base, hready, hgrows⟩ := ih
    obtain ⟨hready, hgrows'⟩ := hready.elsewhere helse
    exact ⟨_, hready, hgrows.trans hgrows'⟩

end LookupState

/-! ## What a name comes to -/

/-- What a caller can tell of what a plain lookup finds, if it succeeds. -/
def ProjectModel.found? (model : ProjectModel) (name : String) : Option Profile :=
  match model.find? name with
  | some ref => (model.entity? ref).map Entity.profile
  | none =>
    match Name.compoundKind? name with
    | some kind => some { name, kind, origin := .notApplicable, declared := none }
    | none =>
      match model.library.find? name with
      | some ref => (model.entity? ref).map Entity.profile
      | none => some { name, kind := .unknown, origin := .unknown, declared := none }

namespace LookupState

variable {kept : EntityId → Prop} {base : Nat} {start state after : LookupState} {name : String}
  {ref : EntityRef}

/-- A compound type that has come to be bound since is what the name came to before. -/
theorem Grows.found? (h : Grows kept start state) (hstart : Ready base start) (name : String) :
    state.model.found? name = start.model.found? name := by
  unfold ProjectModel.found?
  rcases h.find?_cases name with hsame | ⟨hnone, slot, kind, id, hmade, hkind, hentity⟩
  · rw [hsame]
    cases hfind : start.model.find? name with
    | some ref =>
      obtain ⟨entity, hentity⟩ := hstart.entity?_of_denotes (.bound hfind)
      simp only [hentity, h.entity? hentity]
    | none =>
      cases hkind : Name.compoundKind? name with
      | some kind => rfl
      | none =>
        cases hlibrary : start.model.library.find? name with
        | some ref =>
          obtain ⟨entity, hentity⟩ :=
            hstart.entity?_of_denotes (.library hfind hkind hlibrary)
          simp only [h.library, hlibrary, hentity, h.entity? hentity]
        | none => simp only [h.library, hlibrary]
  · simp only [hnone, hmade, hkind, hentity, Option.map_some, profile_compoundEntity hkind]

/-- A plain lookup finds what its name comes to. -/
theorem found?_of_getEntity (h : Ready base state)
    (hrun : ProjectModel.getEntity name state = .ok ref after) :
    ∃ entity, after.model.entity? ref = some entity ∧
      state.model.found? name = some entity.profile := by
  obtain ⟨hadds, hdenotes⟩ := adds_of_getEntity h hrun
  obtain ⟨entity, hentity⟩ := hadds.ready.entity?_of_denotes hdenotes
  refine ⟨entity, hentity, ?_⟩
  rw [← hadds.grows.found? h]
  unfold ProjectModel.found?
  cases hdenotes with
  | bound hfind => simp only [hfind, hentity, Option.map_some]
  | library hfree hkind hlibrary =>
    simp only [hfree, hkind, hlibrary, hentity, Option.map_some]
  | placeholder hfree hkind hlibrary hplaceholder =>
    obtain ⟨slot, id, rfl, hslot⟩ := hadds.ready.placeholder name ref hplaceholder
    have hsame : some entity = some (PlaceholderCache.entity name id) := hentity.symm.trans hslot
    cases hsame
    rw [hfree, hkind, hlibrary]
    rfl

end LookupState

/-! ## Lasting answers -/

namespace ProjectModel

/-- Once a plain lookup has succeeded, it succeeds ever after, with the same reference to the
same entity; and of that entity a caller can tell what a fresh model finds under the name. There
is such an entity while the store fails nothing and has ids left. -/
theorem Built.plain_answers_last {model : ProjectModel} (hbuilt : model.Built)
    {corpus corpus₀ : Access} (hstore : corpus.store.Reached) (hstore₀ : corpus₀.store.Reached)
    (cache cache₀ : PlaceholderCache) {state after : LookupState} {name : String}
    {ref : EntityRef} (hstate : LookupState.Leads { corpus, cache, model } state)
    (hrun : getEntity name state = .ok ref after) :
    (∀ later, after.Leads later → getEntity name later = .ok ref later ∧
      later.model.entity? ref = after.model.entity? ref) ∧
    ∃ entity, after.model.entity? ref = some entity ∧
      (∀ ref₀ after₀, getEntity name { corpus := corpus₀, cache := cache₀, model } =
          .ok ref₀ after₀ →
        (after₀.model.entity? ref₀).map Entity.profile = some entity.profile) ∧
      (corpus₀.Healthy (Name.weight name) → ∃ ref₀ after₀,
        getEntity name { corpus := corpus₀, cache := cache₀, model } = .ok ref₀ after₀) := by
  have hfresh := hbuilt.fresh
  have hstart := hfresh.ready hstore cache
  obtain ⟨base, hready, hgrows⟩ := hstate.grows hstart
  obtain ⟨hadds, hdenotes⟩ := adds_of_getEntity hready hrun
  obtain ⟨entity, hentity, hfound⟩ := found?_of_getEntity hready hrun
  constructor
  · intro later hlater
    obtain ⟨-, -, hgrows'⟩ := hlater.grows hadds.ready
    refine ⟨getEntity_of_denotes (hgrows'.denotes hdenotes), ?_⟩
    rw [hentity]
    exact hgrows'.entity? hentity
  · refine ⟨entity, hentity, ?_, ?_⟩
    · intro ref₀ after₀ hrun₀
      have hstart₀ := hfresh.ready hstore₀ cache₀
      obtain ⟨entity₀, hentity₀, hfound₀⟩ := found?_of_getEntity hstart₀ hrun₀
      have hsame : state.model.found? name = model.found? name := hgrows.found? hstart name
      rw [hentity₀, Option.map_some, ← hfound₀, ← hfound]
      exact hsame.symm
    · intro hhealthy
      rw [← Nat.zero_add (Name.weight name)] at hhealthy
      have hget :
          Lookup.Succeeds 0 (getEntity name { corpus := corpus₀, cache := cache₀, model }) :=
        getEntity_succeeds hhealthy
      obtain ⟨ref₀, after₀, hrun₀, -⟩ := hget.exists_ok
      exact ⟨ref₀, after₀, hrun₀⟩

/-- The array is made and then the store fails: another name cannot be had any more, the array
can. -/
theorem Built.array_lasts_while_store_fails :
    let start : LookupState :=
      { corpus := { store := boxStore }, cache := { owner := ⟨9⟩ }, model := boxModel }
    let after := start.leaving (getEntity "a.Box<T>[]")
    let broken := { after with corpus.plan := fun _ _ => true }
    let later := broken.leaving (Question.plain "p.Missing").ask
    boxModel.Built ∧ boxStore.Reached ∧ after.Leads later ∧
      succeeds (getEntity "p.Missing" broken) = false ∧
        ∃ ref, getEntity "a.Box<T>[]" start = .ok ref after ∧
          getEntity "a.Box<T>[]" later = .ok ref later := by
  intro start after broken later
  have hreached : start.corpus.store.Reached := Store.reached_ofRows _
  have hok : succeeds (getEntity "a.Box<T>[]" start) = true := by decide +kernel
  obtain ⟨ref, made, hrun⟩ := exists_ok_of_succeeds hok
  have hmade : after = made := by
    show start.leaving _ = made
    rw [LookupState.leaving, hrun]
  have hready := boxModel_built.fresh.ready hreached { owner := ⟨9⟩ }
  have hafter : after.corpus.store.Reached := by
    rw [hmade]
    exact (adds_of_getEntity hready hrun).1.ready.store
  have hlater : after.Leads later :=
    .asked _ (.meanwhile .here
      { reached := hafter, entities := List.prefix_refl _, relations := List.prefix_refl _
        owner := rfl, entries := fun _ _ h => h })
  rw [← hmade] at hrun
  refine ⟨boxModel_built, hreached, hlater, by decide +kernel, ref, hrun, ?_⟩
  exact ((boxModel_built.plain_answers_last hreached hreached _ { owner := ⟨9⟩ } .here hrun).1
    later hlater).1

end ProjectModel

end Referent
