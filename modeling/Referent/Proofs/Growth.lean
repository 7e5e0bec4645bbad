import Referent.Model.Lookup
import Referent.Proofs.Models

/-!
# What a lookup changes

Whatever becomes of it, a lookup only adds: entities to the arena, rows to the tables, names of
compound types to the index, placeholders (`LookupState.Grows`). A compound type in the making
is the one exception, since its name is given back when a part fails; but nobody sees the name
before the parts are looked up, so seen from the start of the lookup nothing is ever lost.

Each step of a lookup is described once, with the state it leaves: `getEntity_found` and its
siblings are the branches of a plain lookup, `unknown_cases`, `synthesize_cases` and
`relateTo_cases` its steps.
-/

namespace Referent

/-! ## Denotation -/

namespace ProjectModel

/-- What a plain lookup finds without writing anything. -/
inductive Denotes (model : ProjectModel) (name : String) : EntityRef → Prop
  | bound {ref} : model.find? name = some ref → Denotes model name ref
  | library {ref} : model.find? name = none → Name.compoundKind? name = none →
      model.library.find? name = some ref → Denotes model name ref
  | placeholder {ref} : model.find? name = none → Name.compoundKind? name = none →
      model.library.find? name = none → model.placeholders[name]? = some ref →
      Denotes model name ref

end ProjectModel

/-! ## Steps -/

/-- The state with a placeholder in a slot of its own. -/
def LookupState.placing (state : LookupState) (name : String) (id : EntityId) : LookupState :=
  { state with model := { state.model with
      table := state.model.table.allocate (PlaceholderCache.entity name id)
      placeholders := state.model.placeholders.insert name
        (.project state.model.table.size) } }

namespace Lookup

variable {name : String} {state : LookupState}

theorem unknown_cached {ref : EntityRef} (h : state.model.placeholders[name]? = some ref) :
    unknown name state = .ok ref state := by
  simp only [unknown, get_bind_apply, h]
  rfl

/-- A name that another model has asked for keeps its placeholder row. -/
theorem unknown_kept {id : EntityId} (hnew : state.model.placeholders[name]? = none)
    (hcached : state.cache.entries[name]? = some id) :
    unknown name state = .ok (.project state.model.table.size) (state.placing name id) := by
  simp only [unknown, get_bind_apply, hnew, bind_apply (fetchPlaceholder name), fetchPlaceholder,
    PlaceholderCache.fetch, hcached]
  rfl

/-- A name that nobody has asked for gets a row. -/
theorem unknown_inserting (hnew : state.model.placeholders[name]? = none)
    (hmissing : state.cache.entries[name]? = none) :
    unknown name state =
      match state.corpus.insert { project := state.cache.owner, name, kind := .unknown } with
      | (.ok id, corpus) => .ok (.project state.model.table.size)
          ({ state with
              corpus, cache.entries := state.cache.entries.insert name id }.placing name id)
      | (.error cause, corpus) => .error (.store cause) { state with corpus } := by
  simp only [unknown, get_bind_apply, hnew, bind_apply (fetchPlaceholder name), fetchPlaceholder,
    PlaceholderCache.fetch, hmissing]
  cases state.corpus.insert { project := state.cache.owner, name, kind := .unknown } with
  | mk answer corpus =>
    cases answer <;> rfl

/-- A new placeholder gets a slot of its own and no name; a placeholder that cannot be had
leaves everything but the counters. -/
theorem unknown_cases (hsound : state.corpus.store.Sound)
    (h : state.model.placeholders[name]? = none) :
    (∃ id corpus cache, unknown name state = .ok (.project state.model.table.size)
        { corpus, cache, model := { state.model with
            table := state.model.table.allocate (PlaceholderCache.entity name id)
            placeholders := state.model.placeholders.insert name
              (.project state.model.table.size) } } ∧
        (corpus.store = state.corpus.store ∨
          state.corpus.store.Inserted { project := state.cache.owner, name, kind := .unknown }
            id corpus.store)) ∨
      ∃ cause corpus, unknown name state = .error (.store cause) { state with corpus } ∧
        corpus.store = state.corpus.store := by
  cases hcached : state.cache.entries[name]? with
  | some id => exact .inl ⟨id, state.corpus, state.cache, unknown_kept h hcached, .inl rfl⟩
  | none =>
    have hcases := state.corpus.insert_cases
      { project := state.cache.owner, name, kind := .unknown }
    rw [unknown_inserting h hcached]
    revert hcases
    rcases state.corpus.insert _ with ⟨answer, corpus⟩
    rintro (⟨id, rfl, hinsert⟩ | ⟨cause, rfl, hsame⟩)
    · exact .inl ⟨id, corpus, _, rfl, .inr (Store.inserted_of_insert hsound hinsert)⟩
    · exact .inr ⟨cause, corpus, rfl, hsame⟩

/-- Only the placeholder itself can fail. -/
theorem fetch_of_unknown_error {err : ModelError} {after : LookupState}
    (h : unknown name state = .error err after) :
    ∃ last, PlaceholderCache.fetch name (state.cache, state.corpus) = .error err last := by
  cases hplaceholder : state.model.placeholders[name]? with
  | some ref =>
    rw [unknown_cached hplaceholder] at h
    cases h
  | none =>
    simp only [unknown, get_bind_apply, hplaceholder, bind_apply (fetchPlaceholder name),
      fetchPlaceholder] at h
    cases hfetch : PlaceholderCache.fetch name (state.cache, state.corpus) with
    | ok entity last =>
      rw [hfetch] at h
      cases h
    | error cause last =>
      rw [hfetch] at h
      cases h
      exact ⟨last, rfl⟩

/-- The row of a compound type. -/
def compoundEntry (project : ProjectId) (name : String) (kind : EntityKind) : Entry :=
  { project, name, kind, dimensions := (Name.Shape.ofName name).dimensions? }

/-- The entity of a compound type. -/
def compoundEntity (name : String) (kind : EntityKind) (id : EntityId) : Entity :=
  { name, kind, id, origin := .notApplicable }

/-- A free name denotes what is entered under it, and there is no anomaly. -/
theorem enter_of_free {model : ProjectModel} (hfree : model.find? name = none) (entity : Entity) :
    model.enter name entity = (.project model.table.size, { model with
      table := (model.table.allocate entity).bind name model.table.size }) := by
  have hslot : (model.table.allocate entity).slot? name = none := Option.map_eq_none_iff.1 hfree
  simp only [ProjectModel.enter, Draft.add, List.foldl_cons, List.foldl_nil, Draft.claim, hslot]

/-- A compound type is made only under a name that is free, so it gets the name. -/
theorem synthesize_inserting (hfree : state.model.find? name = none) (kind : EntityKind) :
    synthesize name kind state =
      match state.corpus.insert (compoundEntry state.model.project name kind) with
      | (.ok id, corpus) => .ok (id, .project state.model.table.size)
          { state with corpus, model := { state.model with
              table := (state.model.table.allocate (compoundEntity name kind id)).bind name
                state.model.table.size } }
      | (.error cause, corpus) => .error (.store cause) { state with corpus } := by
  simp only [synthesize, get_bind_apply, bind_apply (ask _), ask, compoundEntry]
  rcases state.corpus.insert _ with ⟨answer, corpus⟩
  cases answer with
  | ok id =>
    simp only [enter_of_free hfree]
    rfl
  | error cause => rfl

theorem synthesize_cases (hsound : state.corpus.store.Sound)
    (hfree : state.model.find? name = none) (kind : EntityKind) :
    (∃ id corpus, synthesize name kind state = .ok (id, .project state.model.table.size)
        { state with corpus, model := { state.model with
            table := (state.model.table.allocate (compoundEntity name kind id)).bind name
              state.model.table.size } } ∧
        state.corpus.store.Inserted (compoundEntry state.model.project name kind) id
          corpus.store) ∨
      ∃ cause corpus, synthesize name kind state = .error (.store cause) { state with corpus } ∧
        corpus.store = state.corpus.store := by
  have hcases := state.corpus.insert_cases (compoundEntry state.model.project name kind)
  rw [synthesize_inserting hfree]
  revert hcases
  rcases state.corpus.insert _ with ⟨answer, corpus⟩
  rintro (⟨id, rfl, hinsert⟩ | ⟨cause, rfl, hsame⟩)
  · exact .inl ⟨id, corpus, rfl, Store.inserted_of_insert hsound hinsert⟩
  · exact .inr ⟨cause, corpus, rfl, hsame⟩

/-- The relation from a compound type to an entity it is made of. -/
def partRow (project : ProjectId) (left : EntityId) (kind : RelationKind) (entity : Entity) :
    RelationRow :=
  { kind, left, right := entity.id, project, origin := entity.origin }

theorem relateTo_cases {target : EntityRef} {entity : Entity}
    (h : state.model.entity? target = some entity) (left : EntityId) (kind : RelationKind) :
    (∃ corpus, relateTo left kind target state = .ok () { state with corpus } ∧
        corpus.store =
          state.corpus.store.relate (partRow state.model.project left kind entity)) ∨
      ∃ cause corpus, relateTo left kind target state =
        .error (.store cause) { state with corpus } ∧ corpus.store = state.corpus.store := by
  simp only [relateTo, get_bind_apply, h, ask]
  let row := partRow state.model.project left kind entity
  rcases state.corpus.relate_cases row with ⟨hok, hstore⟩ | ⟨cause, herror, hsame⟩
  · left
    have hpair : state.corpus.relate row = (.ok (), (state.corpus.relate row).2) := by
      rw [← hok]
    simp only [row, partRow] at hpair
    rw [hpair]
    exact ⟨_, rfl, hstore⟩
  · right
    have hpair : state.corpus.relate row = (.error cause, (state.corpus.relate row).2) := by
      rw [← herror]
    simp only [row, partRow] at hpair
    rw [hpair]
    exact ⟨cause, _, rfl, hsame⟩

/-- Look a part up and relate the whole to it. -/
def linkPart (id : EntityId) (part : RelationKind × String) : Lookup Unit := do
  relateTo id part.1 (← ProjectModel.getEntity part.2)

end Lookup

/-! ## Branches of a plain lookup -/

namespace ProjectModel

open Lookup

variable {name : String} {state : LookupState}

theorem getEntity_found {ref : EntityRef} (h : state.model.find? name = some ref) :
    getEntity name state = .ok ref state := by
  rw [getEntity]
  simp only [get_bind_apply, h]
  rfl

theorem getEntity_compound {kind : EntityKind} (hfree : state.model.find? name = none)
    (hkind : Name.compoundKind? name = some kind) :
    getEntity name state = (do
      let (id, made) ← synthesize name kind
      unbinding name ((Name.Shape.ofName name).constituents.forM (linkPart id))
      return made) state := by
  have hparts : ∀ id, (Name.Shape.ofName name).constituents.forM (linkPart id) =
      (Name.Shape.ofName name).constituents.attach.forM fun part => linkPart id part.1 := by
    intro id
    conv_lhs => rw [← List.attach_map_subtype_val (Name.Shape.ofName name).constituents]
    exact List.forM_map
  rw [getEntity]
  simp only [hparts]
  simp only [get_bind_apply, hfree, hkind, linkPart]

theorem getEntity_library {ref : EntityRef} (hfree : state.model.find? name = none)
    (hkind : Name.compoundKind? name = none)
    (h : state.model.library.find? name = some ref) :
    getEntity name state = .ok ref state := by
  rw [getEntity]
  simp only [get_bind_apply, hfree, hkind, h]
  rfl

theorem getEntity_unknown (hfree : state.model.find? name = none)
    (hkind : Name.compoundKind? name = none) (h : state.model.library.find? name = none) :
    getEntity name state = unknown name state := by
  rw [getEntity]
  simp only [get_bind_apply, hfree, hkind, h]

/-- What a name denotes is found, and finding it changes nothing. -/
theorem getEntity_of_denotes {ref : EntityRef} (h : state.model.Denotes name ref) :
    getEntity name state = .ok ref state := by
  cases h with
  | bound hfind => exact getEntity_found hfind
  | library hfree hkind hfind => exact getEntity_library hfree hkind hfind
  | placeholder hfree hkind hnone hfind =>
    rw [getEntity_unknown hfree hkind hnone]
    exact unknown_cached hfind

end ProjectModel

/-! ## Growth -/

/-- Some row of the store has this id. -/
def Store.Uses (store : Store) (id : EntityId) : Prop :=
  id ∈ store.entities.toList.map (·.id)

theorem Store.Uses.of_mem {store : Store} {row : EntityRow} (h : row ∈ store.entities.toList) :
    store.Uses row.id :=
  List.mem_map_of_mem h

/-- The row has come into the store since. -/
def Store.New (before after : Store) (row : EntityRow) : Prop :=
  row ∈ after.entities.toList ∧ row ∉ before.entities.toList

namespace LookupState

open Lookup

/-- What lookups rely on and keep. The relations behind the first `base` ones are those that
were inserted since lookups began. -/
structure Ready (base : Nat) (state : LookupState) : Prop where
  store : state.corpus.store.Reached
  library : state.model.library.Sound
  slot_lt : ∀ name slot, state.model.table.slot? name = some slot →
    slot < state.model.table.size
  placeholder : ∀ (name : String) (ref : EntityRef),
    state.model.placeholders[name]? = some ref → ∃ slot id, ref = .project slot ∧
      state.model.table.arena[slot]? = some (PlaceholderCache.entity name id)
  base_le : base ≤ state.corpus.store.relations.size
  left : ∀ row ∈ state.corpus.store.relations.toList.drop base,
    state.corpus.store.Uses row.left

/-- Nothing is lost on the way from one state to another, and ids that are `kept` get no
further relations. -/
structure Grows (kept : EntityId → Prop) (before after : LookupState) : Prop where
  project : after.model.project = before.model.project
  library : after.model.library = before.model.library
  entity : ∀ (slot : Nat) (entity : Entity), before.model.table.arena[slot]? = some entity →
    after.model.table.arena[slot]? = some entity
  slot : ∀ name slot, before.model.table.slot? name = some slot →
    after.model.table.slot? name = some slot
  /-- Only names of compound types come to be bound. -/
  made : ∀ name slot, before.model.table.slot? name = none →
    after.model.table.slot? name = some slot → ∃ kind id,
      Name.compoundKind? name = some kind ∧
        after.model.table.arena[slot]? = some (compoundEntity name kind id)
  placeholder : ∀ (name : String) (ref : EntityRef), before.model.placeholders[name]? = some ref →
    after.model.placeholders[name]? = some ref
  row : ∀ row ∈ before.corpus.store.entities.toList, row ∈ after.corpus.store.entities.toList
  relations : ∃ added, after.corpus.store.relations.toList =
    before.corpus.store.relations.toList ++ added ∧ ∀ row ∈ added, ¬ kept row.left

variable {kept : EntityId → Prop} {first second third : LookupState}

theorem Grows.refl (kept : EntityId → Prop) (state : LookupState) : Grows kept state state where
  project := rfl
  library := rfl
  entity _ _ h := h
  slot _ _ h := h
  made name slot hnone hsome := by
    rw [hnone] at hsome
    cases hsome
  placeholder _ _ h := h
  row _ h := h
  relations := ⟨[], by simp, by simp⟩

theorem Grows.trans (h : Grows kept first second) (h' : Grows kept second third) :
    Grows kept first third where
  project := h'.project.trans h.project
  library := h'.library.trans h.library
  entity slot entity hentity := h'.entity slot entity (h.entity slot entity hentity)
  slot name slot hslot := h'.slot name slot (h.slot name slot hslot)
  made name slot hnone hsome := by
    cases hmid : second.model.table.slot? name with
    | none => exact h'.made name slot hmid hsome
    | some early =>
      have hsame := h'.slot name early hmid
      rw [hsome] at hsame
      cases hsame
      obtain ⟨kind, id, hkind, hentity⟩ := h.made name slot hnone hmid
      exact ⟨kind, id, hkind, h'.entity slot _ hentity⟩
  placeholder name ref href := h'.placeholder name ref (h.placeholder name ref href)
  row row hrow := h'.row row (h.row row hrow)
  relations := by
    obtain ⟨added, heq, hadded⟩ := h.relations
    obtain ⟨more, heq', hmore⟩ := h'.relations
    refine ⟨added ++ more, by rw [heq', heq, List.append_assoc], ?_⟩
    intro row hrow
    rcases List.mem_append.1 hrow with hrow | hrow
    · exact hadded row hrow
    · exact hmore row hrow

/-- To keep fewer ids asks for less. -/
theorem Grows.weaken {fewer : EntityId → Prop} (h : Grows kept first second)
    (hfewer : ∀ id, fewer id → kept id) : Grows fewer first second :=
  { h with
    relations := by
      obtain ⟨added, heq, hadded⟩ := h.relations
      exact ⟨added, heq, fun row hrow hleft => hadded row hrow (hfewer _ hleft)⟩ }

theorem Grows.uses (h : Grows kept first second) {id : EntityId}
    (hid : first.corpus.store.Uses id) : second.corpus.store.Uses id := by
  obtain ⟨row, hrow, rfl⟩ := List.mem_map.1 hid
  exact .of_mem (h.row row hrow)

theorem Grows.entity? (h : Grows kept first second) {ref : EntityRef} {entity : Entity}
    (hentity : first.model.entity? ref = some entity) :
    second.model.entity? ref = some entity := by
  cases ref with
  | library slot =>
    rw [ProjectModel.entity?, h.library]
    exact hentity
  | project slot => exact h.entity slot entity hentity

/-- A name that makes no compound type stays free. -/
theorem Grows.slot?_eq_none (h : Grows kept first second) {name : String}
    (hkind : Name.compoundKind? name = none) (hnone : first.model.table.slot? name = none) :
    second.model.table.slot? name = none := by
  cases hsome : second.model.table.slot? name with
  | none => rfl
  | some slot =>
    obtain ⟨kind, id, hmade, -⟩ := h.made name slot hnone hsome
    rw [hkind] at hmade
    cases hmade

theorem Grows.denotes (h : Grows kept first second) {name : String} {ref : EntityRef}
    (hdenotes : first.model.Denotes name ref) : second.model.Denotes name ref := by
  have hstays (hkind : Name.compoundKind? name = none) (hfree : first.model.find? name = none) :
      second.model.find? name = none := by
    rw [ProjectModel.find?, Option.map_eq_none_iff] at hfree ⊢
    exact h.slot?_eq_none hkind hfree
  cases hdenotes with
  | bound hfind =>
    obtain ⟨slot, hslot, rfl⟩ := Option.map_eq_some_iff.1 hfind
    exact .bound (by rw [ProjectModel.find?, h.slot name slot hslot, Option.map_some])
  | library hfree hkind hfind =>
    exact .library (hstays hkind hfree) hkind (by rw [h.library]; exact hfind)
  | placeholder hfree hkind hnone hfind =>
    exact .placeholder (hstays hkind hfree) hkind (by rw [h.library]; exact hnone)
      (h.placeholder name ref hfind)

/-- What a name denotes has an entity behind it. -/
theorem Ready.entity?_of_denotes {base : Nat} {state : LookupState} (h : Ready base state)
    {name : String} {ref : EntityRef} (hdenotes : state.model.Denotes name ref) :
    ∃ entity, state.model.entity? ref = some entity := by
  cases hdenotes with
  | bound hfind =>
    obtain ⟨slot, hslot, rfl⟩ := Option.map_eq_some_iff.1 hfind
    have hlt := h.slot_lt name slot hslot
    exact ⟨_, Array.getElem?_eq_getElem hlt⟩
  | library hfree hkind hfind =>
    have hsome := h.library.isSome_of_find? hfind
    obtain ⟨slot, hslot, rfl⟩ := Option.map_eq_some_iff.1 hfind
    exact Option.isSome_iff_exists.1 hsome
  | placeholder hfree hkind hnone hfind =>
    obtain ⟨slot, id, rfl, hentity⟩ := h.placeholder name ref hfind
    exact ⟨_, hentity⟩

/-! ## What each step adds -/

variable {base : Nat} {name : String} {state : LookupState}

/-- Calls that leave the store alone leave everything. -/
theorem Ready.same_store (h : Ready base state) (kept : EntityId → Prop) {corpus : Access}
    (hstore : corpus.store = state.corpus.store) :
    Ready base { state with corpus } ∧ Grows kept state { state with corpus } := by
  constructor
  · constructor
    · simpa [hstore] using h.store
    · exact h.library
    · exact h.slot_lt
    · exact h.placeholder
    · simpa [hstore] using h.base_le
    · simpa [hstore] using h.left
  · exact { Grows.refl kept state with
      row := by simp [hstore]
      relations := ⟨[], by simp [hstore], by simp⟩ }

/-- A new row leaves the relations alone. -/
theorem Ready.inserted (h : Ready base state) (kept : EntityId → Prop) {corpus : Access}
    {entry : Entry} {id : EntityId}
    (hinserted : state.corpus.store.Inserted entry id corpus.store) :
    Ready base { state with corpus } ∧ Grows kept state { state with corpus } := by
  have hrow : ∀ row ∈ state.corpus.store.entities.toList,
      row ∈ corpus.store.entities.toList := by
    intro row hrow
    rw [hinserted.entities, Array.toList_push]
    exact List.mem_append_left _ hrow
  constructor
  · constructor
    · exact hinserted.reached h.store
    · exact h.library
    · exact h.slot_lt
    · exact h.placeholder
    · simpa [hinserted.relations] using h.base_le
    · intro row hmem
      simp only [hinserted.relations] at hmem
      obtain ⟨owner, howner, hid⟩ := List.mem_map.1 (h.left row hmem)
      exact List.mem_map.2 ⟨owner, hrow owner howner, hid⟩
  · exact { Grows.refl kept state with
      row := hrow
      relations := ⟨[], by simp [hinserted.relations], by simp⟩ }

/-- A new entity takes a slot behind all others. -/
theorem allocate_entity {table : Table} {entity new : Entity} {slot : Nat}
    (h : table.arena[slot]? = some entity) :
    (table.allocate new).arena[slot]? = some entity := by
  have hlt := (Array.getElem?_eq_some_iff.1 h).1
  rw [Table.allocate, Array.getElem?_push, if_neg (by omega)]
  exact h

theorem allocate_size {table : Table} {new : Entity} :
    (table.allocate new).arena[table.size]? = some new := by
  rw [Table.allocate, Table.size, Array.getElem?_push, if_pos rfl]

theorem Ready.allocate (h : Ready base state) (kept : EntityId → Prop) (entity : Entity) :
    Ready base { state with model.table := state.model.table.allocate entity } ∧
      Grows kept state { state with model.table := state.model.table.allocate entity } := by
  constructor
  · refine { h with slot_lt := ?_, placeholder := ?_ }
    · intro other slot hother
      have hlt := h.slot_lt other slot hother
      simp only [Table.size, Table.allocate, Array.size_push]
      exact Nat.lt_succ_of_lt hlt
    · intro other ref href
      obtain ⟨slot, id, rfl, hentity⟩ := h.placeholder other ref href
      exact ⟨slot, id, rfl, allocate_entity hentity⟩
  · refine { Grows.refl kept state with entity := fun _ _ => allocate_entity, made := ?_ }
    intro other slot hnone hsome
    rw [Table.slot?_allocate, hnone] at hsome
    cases hsome

/-- A name gets its placeholder. -/
theorem Ready.enter (h : Ready base state) (kept : EntityId → Prop) {slot : Nat} {id : EntityId}
    (hnew : state.model.placeholders[name]? = none)
    (hentity : state.model.table.arena[slot]? = some (PlaceholderCache.entity name id)) :
    Ready base { state with
      model.placeholders := state.model.placeholders.insert name (.project slot) } ∧
      Grows kept state { state with
        model.placeholders := state.model.placeholders.insert name (.project slot) } := by
  constructor
  · refine { h with placeholder := ?_ }
    intro other ref href
    simp only at href
    rw [Std.TreeMap.getElem?_insert] at href
    split at href
    · rename_i heq
      cases href
      rw [← Std.LawfulEqOrd.eq_of_compare heq]
      exact ⟨slot, id, rfl, hentity⟩
    · exact h.placeholder other ref href
  · refine { Grows.refl kept state with placeholder := ?_ }
    intro other ref href
    simp only
    rw [Std.TreeMap.getElem?_insert, if_neg]
    · exact href
    · intro heq
      rw [← Std.LawfulEqOrd.eq_of_compare heq, hnew] at href
      cases href

/-- A compound type gets its name. -/
theorem Ready.bind (h : Ready base state) (kept : EntityId → Prop) {slot : Nat}
    {kind : EntityKind} {id : EntityId} (hfree : state.model.table.slot? name = none)
    (hkind : Name.compoundKind? name = some kind)
    (hentity : state.model.table.arena[slot]? = some (compoundEntity name kind id)) :
    Ready base { state with model.table := state.model.table.bind name slot } ∧
      Grows kept state { state with model.table := state.model.table.bind name slot } := by
  have hslot (other : String) := state.model.table.slot?_bind name other slot
  constructor
  · refine { h with slot_lt := ?_ }
    intro other last hother
    simp only [hslot] at hother
    split at hother
    · cases hother
      exact (Array.getElem?_eq_some_iff.1 hentity).1
    · exact h.slot_lt other last hother
  · refine { Grows.refl kept state with slot := ?_, made := ?_ }
    · intro other last hother
      simp only [hslot]
      rw [if_neg]
      · exact hother
      · rintro rfl
        rw [hfree] at hother
        cases hother
    · intro other last hnone hsome
      simp only [hslot] at hsome
      split at hsome
      · rename_i heq
        subst heq
        cases hsome
        exact ⟨kind, id, hkind, hentity⟩
      · rw [hnone] at hsome
        cases hsome

end LookupState

end Referent
