import Referent.Proofs.Accounting
import Referent.Proofs.Answers
import Referent.Proofs.Independence
import Referent.Proofs.OwnMembers

/-!
# No reference dangles

References are bare slots of two arenas, and they are copied about: into indexes and results, from
a core library into the one on top of it, from a library into the parents of project types. No
operation leaves one behind without its entity, whatever fails on the way: in every library and in
every model on top of it, all references that are held denote something
(`LibraryModel.Reached.nothing_dangles`).

* **Libraries** (`LibraryModel.Sound.closed`): every load keeps a library closed in itself.
* **Models** (`Serves.anchored`): what a question enters has no supertypes
  (`wired_upkeep`), what it remembers could be seen (`visible_lasting`), and arenas only grow.
* **Parts** (`Reaches.links`): wherever a lookup comes to relate a compound type to a part, the
  part is there, so no relation is skipped.
* **Reports** (`Serves.resolveNames`): what names came to is still there when it is reported.
-/

namespace Referent

open Lookup LookupState

/-! ## Libraries -/

namespace LibraryModel

/-- Every reference that the library holds or answers has an entity behind it, and parents of
library entities are library entities. -/
structure Closed (model : LibraryModel) : Prop where
  name : ∀ name ref, model.find? name = some ref → (model.entity? ref).isSome
  id : ∀ id ref, model.findById? id = some ref → (model.entity? ref).isSome
  parent : ∀ ref entity, model.entity? ref = some entity → ∀ parent ∈ entity.parents,
    (∃ slot, parent = .library slot) ∧ (model.entity? parent).isSome
  answer : ∀ name binding, (model.dispatch name).binding = some binding →
    ∀ target ∈ binding.targets, (model.entity? target).isSome

theorem Sound.closed {model : LibraryModel} (h : model.Sound) : model.Closed where
  name _ _ := h.isSome_of_find?
  id _ _ := h.isSome_of_findById?
  parent _ _ := h.parents_shown
  answer name binding hbinding target htarget := by
    obtain ⟨other, hother⟩ := (dispatch_targets hbinding).2 target htarget
    exact h.isSome_of_find? hother

end LibraryModel

/-! ## Models -/

namespace ProjectModel

/-- Every reference that the model holds has an entity behind it. -/
structure Closed (model : ProjectModel) : Prop where
  library : model.library.Closed
  name : ∀ name ref, model.find? name = some ref → (model.entity? ref).isSome
  id : ∀ id slot, model.table.typeSlot? id = some slot → (model.entity? (.project slot)).isSome
  placeholder : ∀ (name : String) (ref : EntityRef), model.placeholders[name]? = some ref →
    (model.entity? ref).isSome
  remembered : ∀ name binding, model.memoized? name = some binding →
    ∀ target ∈ binding.targets, (model.entity? target).isSome
  parent : ∀ ref entity, model.entity? ref = some entity → ∀ parent ∈ entity.parents,
    (model.entity? parent).isSome

/-- The index by id is given up, and parents of the project's entities can be seen. -/
structure Wired (model : ProjectModel) : Prop where
  ids : model.table.typeSlots = none
  parent : ∀ (slot : Nat) (entity : Entity), model.table.arena[slot]? = some entity →
    ∀ parent ∈ entity.parents, (model.entity? parent).isSome

/-- What is entered without parents needs no wiring. -/
theorem Wired.push {model later : ProjectModel} (h : model.Wired) {entity : Entity}
    (hlibrary : later.library = model.library)
    (hids : later.table.typeSlots = model.table.typeSlots)
    (harena : later.table.arena = model.table.arena.push entity)
    (hparents : entity.parents = []) : later.Wired where
  ids := hids.trans h.ids
  parent slot other hother parent hparent := by
    rw [harena, Array.getElem?_push] at hother
    split at hother
    · cases hother
      rw [hparents] at hparent
      cases hparent
    · obtain ⟨found, hfound⟩ :=
        Option.isSome_iff_exists.1 (h.parent slot other hother parent hparent)
      cases parent with
      | library slot =>
        rw [ProjectModel.entity?, hlibrary]
        exact Option.isSome_iff_exists.2 ⟨found, hfound⟩
      | project slot =>
        have hlt := (Array.getElem?_eq_some_iff.1 hfound).1
        rw [ProjectModel.entity?, harena, Array.getElem?_push, if_neg (Nat.ne_of_lt hlt)]
        exact Option.isSome_iff_exists.2 ⟨found, hfound⟩

theorem wired_of_build {mode : Mode} {project : ProjectId} {library : LibraryModel}
    {soleHolder : Bool} {desk desk' : Desk} {model : ProjectModel} (hlibrary : library.Reached)
    (hbuild : build mode project library soleHolder desk = .ok model desk') : model.Wired where
  ids := by
    cases mode with
    | plain =>
      obtain ⟨rfl, -⟩ := buildPlain_eq_ok hbuild
      have htracks := Draft.tracks_addRows .internal {}
        (desk.corpus.store.entitiesOf project EntityKind.declared)
      exact Option.isSome_eq_false_iff.1 htracks |> Option.isNone_iff_eq_none.1
    | «virtual» =>
      obtain ⟨rfl, -⟩ := buildVirtual_eq_ok hbuild
      rfl
  parent slot entity hentity := by
    have hbuilt : model.Built := ⟨mode, project, library, soleHolder, desk, desk', hlibrary, hbuild⟩
    have hseen : model.entity? (.project slot) = some entity := hentity
    exact hbuilt.fresh.closed hseen

/-- A model shows the entities of its library, whoever else holds the library. -/
theorem entity?_of_build {mode : Mode} {project : ProjectId} {library : LibraryModel}
    {soleHolder : Bool} {desk desk' : Desk} {model : ProjectModel}
    (hbuild : build mode project library soleHolder desk = .ok model desk') (slot : Nat) :
    model.entity? (.library slot) = library.entity? (.library slot) := by
  cases mode with
  | plain =>
    obtain ⟨rfl, -⟩ := buildPlain_eq_ok hbuild
    rfl
  | «virtual» =>
    obtain ⟨rfl, -⟩ := buildVirtual_eq_ok hbuild
    cases soleHolder <;> rfl

end ProjectModel

/-- No question enters an entity with parents. -/
theorem Lookup.wired_upkeep : Upkeep (fun state => state.model.Wired) fun _ => True where
  toPlainUpkeep := by
    apply PlainUpkeep.of_model
    · intro state after heq hstate
      rw [heq]
      exact hstate
    · exact fun _ _ _ hstate => hstate.push rfl rfl rfl rfl
    · exact fun _ _ hstate => hstate.push rfl rfl rfl rfl
    · exact fun _ hstate => ⟨hstate.ids, hstate.parent⟩
  noting _ hstate := ⟨hstate.ids, hstate.parent⟩
  remembering _ _ hstate := ⟨hstate.ids, hstate.parent⟩

namespace LookupState

variable {base : Nat} {start state after : LookupState} {name : String} {binding : Binding}
  {library : LibraryModel}

theorem Leads.trans {last : LookupState} (h : start.Leads state) (h' : state.Leads last) :
    start.Leads last := by
  induction h' with
  | here => exact h
  | asked question _ ih => exact .asked question ih
  | meanwhile _ helse ih => exact .meanwhile ih helse

theorem Leads.wired (hstate : start.Leads state) (hstart : start.model.Wired) :
    state.model.Wired := by
  induction hstate with
  | here => exact hstart
  | asked question _ ih => exact wired_upkeep.question question ih
  | meanwhile _ _ ih => exact ih

/-- Everything that a binding can denote can be seen. -/
def Visible (state : LookupState) (binding : Binding) : Prop :=
  ∀ target ∈ binding.targets, (state.model.entity? target).isSome

theorem Visible.grows {kept : EntityId → Prop} (h : state.Visible binding)
    (hgrows : Grows kept state after) : after.Visible binding := by
  intro target htarget
  obtain ⟨entity, hentity⟩ := Option.isSome_iff_exists.1 (h target htarget)
  rw [hgrows.entity? hentity]
  rfl

theorem visible_lasting (start : LookupState) :
    Lasting start fun state _ binding => state.Visible binding where
  given _ hready hmemo hrun := (outcome_of_virtual hready hmemo hrun).2
  kept _ hgrows h := h.grows hgrows

/-- What holds of every state of a model: whatever it refers to can be seen, and what its library
shows is the library's. -/
structure Anchored (library : LibraryModel) (state : LookupState) : Prop where
  ready : ∃ base, Ready base state
  shared : ∀ slot, state.model.entity? (.library slot) = library.entity? (.library slot)
  wired : state.model.Wired
  remembered : ∀ name binding, state.model.memoized? name = some binding → state.Visible binding

theorem Anchored.led (h : Anchored library start) (hstate : start.Leads state) :
    Anchored library state := by
  obtain ⟨base, hstart⟩ := h.ready
  obtain ⟨base', hready, hgrows⟩ := hstate.grows hstart
  refine ⟨⟨base', hready⟩, ?_, hstate.wired h.wired, ?_⟩
  · intro slot
    have hsame := h.shared slot
    rw [ProjectModel.entity?] at hsame ⊢
    rw [hgrows.library]
    exact hsame
  · intro name binding hmemo
    exact (visible_lasting start).remembered hstart h.remembered hstate hmemo

/-- An entity that is entered by hand hides none. -/
theorem entity?_add (model : ProjectModel) (name : String) (id : EntityId) (kind : EntityKind)
    {ref : EntityRef} {entity : Entity} (hentity : model.entity? ref = some entity) :
    (model.add name id kind).2.entity? ref = some entity := by
  cases ref with
  | library slot => exact hentity
  | project slot =>
    rw [ProjectModel.entity?, arena_add]
    exact allocate_entity hentity

theorem Anchored.added (h : Anchored library state) (name : String) (id : EntityId)
    (kind : EntityKind) :
    Anchored library { state with model := (state.model.add name id kind).2 } := by
  obtain ⟨base, hready⟩ := h.ready
  refine ⟨⟨base, hready.added name id kind⟩, h.shared, ?_, ?_⟩
  · have hids : (state.model.add name id kind).2.table.typeSlots = state.model.table.typeSlots :=
      Draft.typeSlots_claims _ state.model.table.size [name]
    exact h.wired.push rfl hids (arena_add state.model name id kind) rfl
  · intro other binding hmemo target htarget
    obtain ⟨entity, hentity⟩ :=
      Option.isSome_iff_exists.1 (h.remembered other binding hmemo target htarget)
    rw [entity?_add state.model name id kind hentity]
    rfl

theorem Anchored.closed (h : Anchored library state) : state.model.Closed := by
  obtain ⟨base, hready⟩ := h.ready
  constructor
  · exact hready.library.closed
  · intro name ref hfind
    obtain ⟨entity, hentity⟩ := hready.entity?_of_denotes (.bound hfind)
    rw [hentity]
    rfl
  · intro id slot hslot
    rw [Table.typeSlot?, h.wired.ids] at hslot
    cases hslot
  · intro name ref href
    obtain ⟨slot, id, rfl, hentity⟩ := hready.placeholder name ref href
    exact Option.isSome_iff_exists.2 ⟨_, hentity⟩
  · exact h.remembered
  · intro ref entity hentity parent hparent
    cases ref with
    | project slot => exact h.wired.parent slot entity hentity parent hparent
    | library slot =>
      obtain ⟨⟨other, rfl⟩, hsome⟩ :=
        hready.library.closed.parent (.library slot) entity hentity parent hparent
      exact hsome

end LookupState

/-- The states that models on top of a library get into. Between questions, entities may be
entered by hand. -/
inductive LibraryModel.Serves (library : LibraryModel) : LookupState → Prop
  | built {mode : Mode} {project : ProjectId} {soleHolder : Bool} {desk desk' : Desk}
      {model : ProjectModel} {corpus : Access} (cache : PlaceholderCache) :
      ProjectModel.build mode project library soleHolder desk = .ok model desk' →
      corpus.store.Reached → Serves library { corpus, cache, model }
  | led {start state : LookupState} : Serves library start → start.Leads state →
      Serves library state
  | added {state : LookupState} (name : String) (id : EntityId) (kind : EntityKind) :
      Serves library state →
      Serves library { state with model := (state.model.add name id kind).2 }

namespace LibraryModel

variable {library : LibraryModel} {state after : LookupState}

theorem Serves.anchored (h : library.Serves state) (hlibrary : library.Reached) :
    Anchored library state := by
  induction h with
  | @built mode project soleHolder desk desk' model corpus cache hbuild hstore =>
    have hbuilt : model.Built :=
      ⟨mode, project, library, soleHolder, desk, desk', hlibrary, hbuild⟩
    refine ⟨⟨_, hbuilt.fresh.ready hstore cache⟩, ProjectModel.entity?_of_build hbuild,
      ProjectModel.wired_of_build hlibrary hbuild, ?_⟩
    intro name binding hmemo
    simp [hbuilt.fresh.memoized?_eq_none] at hmemo
  | led _ hleads ih => exact ih.led hleads
  | added name id kind _ ih => exact ih.added name id kind

end LibraryModel

/-! ## Parts -/

namespace LookupState

variable {base : Nat} {state before mid last : LookupState} {name whole : String} {id : EntityId}
  {part : RelationKind × String}

/-- Looking a compound type up comes to one of its parts: the type has got its row, with this id,
and the parts before are linked. -/
def ComesTo (before : LookupState) (whole : String) (id : EntityId)
    (part : RelationKind × String) (mid : LookupState) : Prop :=
  before.model.find? whole = none ∧ ∃ kind made after earlier later,
    Name.compoundKind? whole = some kind ∧
    synthesize whole kind before = .ok (id, made) after ∧
    (Name.Shape.ofName whole).constituents = earlier ++ part :: later ∧
    earlier.forM (linkPart id) after = .ok () mid

/-- Looking a name up in a state leads to looking another name up in another state: the name
itself at first, and then the parts of whatever compound type is looked up. -/
inductive Reaches (name : String) (state : LookupState) : String → LookupState → Prop
  | here : Reaches name state name state
  | part {whole : String} {before mid : LookupState} {id : EntityId}
      {part : RelationKind × String} : Reaches name state whole before →
      before.ComesTo whole id part mid → Reaches name state part.2 mid

theorem ComesTo.ready (h : before.ComesTo whole id part mid) (hready : Ready base before) :
    Ready base mid := by
  obtain ⟨hfree, kind, made, after, earlier, later, hkind, hmade, hparts, hlinked⟩ := h
  rcases synthesize_cases hready.store.sound hfree kind with
    ⟨other, corpus, hrun, hinserted⟩ | ⟨cause, corpus, hrun, -⟩
  · rw [hrun] at hmade
    cases hmade
    have hnew := made_of_inserted hready (Option.map_eq_none_iff.1 hfree) hkind hinserted
    have hget : ∀ part ∈ earlier, part.2.length < whole.length ∧
        ∀ state, Ready base state → GetAdds base part.2 state := by
      intro part hpart
      refine ⟨Name.length_lt_of_mem_constituents ?_, getEntity_adds base part.2⟩
      rw [hparts]
      exact List.mem_append_left _ hpart
    have hattached := linkParts_attaches whole.length hget hnew.ready hnew.uses
    rw [hlinked] at hattached
    exact hattached.1.ready
  · rw [hrun] at hmade
    cases hmade

theorem Reaches.ready (h : Reaches name state whole before) (hready : Ready base state) :
    Ready base before := by
  induction h with
  | here => exact hready
  | part _ hcomes ih => exact hcomes.ready ih

/-- Wherever a lookup comes to relate a compound type to a part, the part is there, and the
relation goes to the corpus. -/
theorem Reaches.links (h : Reaches name state whole before) (hready : Ready base state)
    (hcomes : before.ComesTo whole id part mid) {target : EntityRef}
    (hget : ProjectModel.getEntity part.2 mid = .ok target last) :
    ∃ entity, last.model.entity? target = some entity ∧
      relateTo id part.1 target last =
        ask (·.relate (partRow last.model.project id part.1 entity)) last := by
  obtain ⟨hadds, hdenotes⟩ := adds_of_getEntity (hcomes.ready (h.ready hready)) hget
  obtain ⟨entity, hentity⟩ := hadds.ready.entity?_of_denotes hdenotes
  refine ⟨entity, hentity, ?_⟩
  simp only [relateTo, get_bind_apply, hentity, partRow]

end LookupState

/-! ## Reports -/

/-- A report lists everything that a visible binding can denote. -/
theorem LookupState.Visible.reported {state : LookupState} {binding : Binding}
    (h : state.Visible binding) (name : String) :
    (Resolution.ofBinding state.model name binding).targets.map some =
      binding.targets.map fun ref => (state.model.entity? ref).map Target.ofEntity := by
  apply map_some_filterMap
  intro target htarget
  rw [Option.isSome_map]
  exact h target htarget

namespace LibraryModel

variable {library : LibraryModel} {state after last : LookupState} {mode : Mode} {name : String}
  {binding : Binding}

/-- What a plain lookup answers can be seen. -/
theorem Serves.getEntity (h : library.Serves state) (hlibrary : library.Reached)
    {ref : EntityRef} (hrun : ProjectModel.getEntity name state = .ok ref after) :
    (after.model.entity? ref).isSome := by
  obtain ⟨base, hready⟩ := (h.anchored hlibrary).ready
  obtain ⟨hadds, hdenotes⟩ := adds_of_getEntity hready hrun
  exact Option.isSome_iff_exists.2 (hadds.ready.entity?_of_denotes hdenotes)

/-- What a virtual lookup answers can be seen. -/
theorem Serves.getVirtualEntity (h : library.Serves state) (hlibrary : library.Reached)
    (hrun : ProjectModel.getVirtualEntity name state = .ok binding after) :
    after.Visible binding := by
  have hanchored := h.anchored hlibrary
  obtain ⟨base, hready⟩ := hanchored.ready
  exact (visible_lasting state).answered hready hanchored.remembered .here hrun

/-- What a requested name comes to can be seen, in either mode. -/
theorem Serves.resolveName (h : library.Serves state) (hlibrary : library.Reached)
    (hrun : Run.resolveName mode name state = .ok binding after) :
    state.Leads after ∧ after.Visible binding := by
  cases mode with
  | plain =>
    obtain ⟨found, mid, hget, hrest⟩ := bind_eq_ok.1 hrun
    have hleads : state.Leads (state.leaving (Question.plain name).ask) := .asked _ .here
    rw [leaving_plain, leaving_of_ok hget] at hleads
    have hvisible := h.getEntity hlibrary hget
    rw [get_bind_apply] at hrest
    cases hrest
    refine ⟨hleads, fun target htarget => ?_⟩
    have heq : target = found := by
      split at htarget <;> exact List.mem_singleton.1 htarget
    rw [heq]
    exact hvisible
  | «virtual» =>
    have hasked : ProjectModel.getVirtualEntity name state = .ok binding after := hrun
    have hleads : state.Leads (state.leaving (Question.virtual name).ask) := .asked _ .here
    rw [leaving_virtual, leaving_of_ok hasked] at hleads
    exact ⟨hleads, h.getVirtualEntity hlibrary hasked⟩

/-- What requested names come to can still be seen when they are reported. -/
theorem Serves.resolveNames (h : library.Serves state) (hlibrary : library.Reached)
    {names : List String} {bindings : List Binding}
    (hrun : names.mapM (Run.resolveName mode) state = .ok bindings last) :
    state.Leads last ∧ ∀ binding ∈ bindings, last.Visible binding := by
  induction names generalizing state bindings with
  | nil =>
    cases hrun
    exact ⟨.here, fun binding hbinding => by cases hbinding⟩
  | cons name names ih =>
    rw [List.mapM_cons] at hrun
    obtain ⟨binding, mid, hfirst, hrest⟩ := bind_eq_ok.1 hrun
    obtain ⟨rest, last', hnames, hlast⟩ := bind_eq_ok.1 hrest
    cases hlast
    obtain ⟨hleads, hvisible⟩ := h.resolveName hlibrary hfirst
    obtain ⟨hleads', hrested⟩ := ih (h.led hleads) hnames
    obtain ⟨base, hready⟩ := ((h.led hleads).anchored hlibrary).ready
    obtain ⟨_, -, hgrows⟩ := hleads'.grows hready
    refine ⟨hleads.trans hleads', ?_⟩
    intro other hother
    rcases List.mem_cons.1 hother with rfl | hother
    · exact hvisible.grows hgrows
    · exact hrested other hother

/-- No reference dangles in a library that building can lead to, nor in any model on top of it,
whatever it has been asked and whatever has failed: what is held or answered has an entity behind
it, and what is the library's is the same in every model. So a lookup that comes to relate a
compound type to a part does relate them, and a report lists all that a name can denote. -/
theorem Reached.nothing_dangles (hlibrary : library.Reached) :
    library.Closed ∧ ∀ state, library.Serves state →
      state.model.Closed ∧
      (∀ slot, state.model.entity? (.library slot) = library.entity? (.library slot)) ∧
      (∀ name ref after, ProjectModel.getEntity name state = .ok ref after →
        (after.model.entity? ref).isSome) ∧
      (∀ name binding after, ProjectModel.getVirtualEntity name state = .ok binding after →
        ∀ target ∈ binding.targets, (after.model.entity? target).isSome) ∧
      (∀ name id kind, let (ref, model) := state.model.add name id kind
        (model.entity? ref).isSome) ∧
      (∀ name whole before id part mid target last, Reaches name state whole before →
        before.ComesTo whole id part mid →
        ProjectModel.getEntity part.2 mid = .ok target last →
        ∃ entity, last.model.entity? target = some entity ∧
          relateTo id part.1 target last =
            ask (·.relate (partRow last.model.project id part.1 entity)) last) ∧
      (∀ mode (names : List String) bindings last,
        names.mapM (Run.resolveName mode) state = .ok bindings last →
        ∀ name, ∀ binding ∈ bindings,
          (Resolution.ofBinding last.model name binding).targets.map some =
            binding.targets.map fun ref => (last.model.entity? ref).map Target.ofEntity) := by
  refine ⟨hlibrary.sound.closed, fun state hserves => ?_⟩
  have hanchored := hserves.anchored hlibrary
  obtain ⟨base, hready⟩ := hanchored.ready
  refine ⟨hanchored.closed, hanchored.shared, ?_, ?_, ?_, ?_, ?_⟩
  · intro name ref after hrun
    exact hserves.getEntity hlibrary hrun
  · intro name binding after hrun
    exact hserves.getVirtualEntity hlibrary hrun
  · intro name id kind
    show ((state.model.add name id kind).2.entity? (.project state.model.table.size)).isSome
    rw [ProjectModel.entity?, arena_add]
    exact Option.isSome_iff_exists.2 ⟨_, allocate_size⟩
  · intro name whole before id part mid target last hreaches hcomes hget
    exact hreaches.links hready hcomes hget
  · intro mode names bindings last hrun name binding hbinding
    exact ((hserves.resolveNames hlibrary hrun).2 binding hbinding).reported name

/-- An array of a library type is made in a model on top of the library, and nothing dangles. -/
theorem Reached.array_of_box_closed :
    let library := ProjectModel.overrideLibrary
    ∃ model desk, ProjectModel.build .virtual ⟨1⟩ library true
        { corpus := { store := ProjectModel.overrideStore } } = .ok model desk ∧
      let start : LookupState :=
        { corpus := { store := ProjectModel.overrideStore }, cache := { owner := ⟨9⟩ }, model }
      let state := start.leaving (Question.plain "a.Box<T>[]").ask
      library.Reached ∧ library.Serves state ∧ library.Closed ∧ state.model.Closed ∧
        ∃ ref last, ProjectModel.getEntity "a.Base[]" state = .ok ref last ∧
          (last.model.entity? ref).isSome := by
  intro library
  have hlibrary : library.Reached := ProjectModel.overrideLibrary_reached
  obtain ⟨model, desk, hbuild⟩ := exists_ok_of_succeeds
    (ProjectModel.build_succeeds .virtual ⟨1⟩ library true ProjectModel.overrideStore)
  refine ⟨model, desk, hbuild, ?_⟩
  intro start state
  have hstate : library.Serves state :=
    .led (.built _ hbuild ProjectModel.overrideStore_reached) (.asked _ .here)
  obtain ⟨hclosed, hmodels⟩ := hlibrary.nothing_dangles
  obtain ⟨hstateClosed, -, hplain, -⟩ := hmodels state hstate
  have hget : succeeds (ProjectModel.getEntity "a.Base[]" state) = true := by
    obtain ⟨rfl, -⟩ := ProjectModel.buildVirtual_eq_ok hbuild
    decide +kernel
  obtain ⟨ref, last, hrun⟩ := exists_ok_of_succeeds hget
  exact ⟨hlibrary, hstate, hclosed, hstateClosed, ref, last, hrun, hplain _ _ _ hrun⟩

end LibraryModel

end Referent
