import Referent.Proofs.Flaws
import Referent.Proofs.Precedence
import Referent.Proofs.Repetition

/-!
# The supertypes that wiring gives

The wiring pass reads the inheritance rows of a project in order. A row is about the type of the
project with the left id. Its supertype is the type of the project, or else of the library, that has
the right id, or rather the id of the base type that the project names for it last. A row with both
ends adds a parent, and any other row records an anomaly.

So what the pass made can be read off the rows, entity by entity (`ProjectModel.exact_wiring`): the
supertypes of a type are those of the rows about it, in order and each once, no other entity has
any, and the anomalies of the pass are the ends that rows miss, in order.
-/

namespace Referent

/-! ## Rows -/

/-- The relation rows of a project that have some kinds, as they were inserted. -/
def Store.filed (store : Store) (project : ProjectId) (kinds : List RelationKind) :
    List RelationRow :=
  store.relations.toList.filter fun row => row.project = project ∧ row.kind ∈ kinds

/-- The id that stands for another in a project: that of the base type in the last row about it, if
there is one. -/
def Store.baseOf (store : Store) (project : ProjectId) (id : EntityId) : EntityId :=
  (((store.filed project [.hasBaseType]).filter (·.left = id)).getLast?.map (·.right)).getD id

theorem Store.Sound.relationsOf_eq_filed {store : Store} (h : store.Sound) (project : ProjectId)
    (kinds : List RelationKind) : store.relationsOf project kinds = store.filed project kinds := by
  simp only [h.relationsOf_eq, filed, List.contains_iff_mem]

/-- Of several rows about an id the last counts. -/
theorem getD_baseTypes (rows : List RelationRow) (id default : EntityId) :
    (baseTypes rows).getD id default =
      ((rows.filter (·.left = id)).getLast?.map (·.right)).getD default := by
  induction rows using List.reverseRecOn with
  | nil => rfl
  | append_singleton rows row ih =>
    have hstep : baseTypes (rows ++ [row]) = (baseTypes rows).insert row.left row.right := by
      rw [baseTypes, List.foldl_append, ← baseTypes]
      rfl
    rw [hstep, Std.TreeMap.getD_insert, ih, List.filter_append]
    by_cases hleft : row.left = id <;> simp [hleft]

theorem Store.Sound.getD_baseTypes {store : Store} (h : store.Sound) (project : ProjectId)
    (id : EntityId) :
    (baseTypes (store.relationsOf project [.hasBaseType])).getD id id =
      store.baseOf project id := by
  rw [Referent.getD_baseTypes, h.relationsOf_eq_filed, baseOf]

/-- Parents are added in order, each once. -/
theorem Entity.addParents_eq {entity : Entity} (h : entity.parents = [])
    (parents : List EntityRef) :
    entity.addParents parents = { entity with parents := parents.eraseDups } := by
  induction parents using List.reverseRecOn with
  | nil =>
    cases entity
    cases h
    rfl
  | append_singleton parents parent ih =>
    rw [addParents_append, ih, eraseDups_concat]
    simp only [addParents, List.foldl_cons, List.foldl_nil, addParent, List.mem_eraseDups]
    split <;> rfl

/-! ## One table -/

namespace Table

variable {table : Table} {store : Store} {project : ProjectId}

/-- No two types have one id. -/
def TypesApart (table : Table) : Prop :=
  ∀ (i j : Nat) (first second : Entity) (id : EntityId), table.arena[i]? = some first →
    table.arena[j]? = some second → first.IsTypeOf id → second.IsTypeOf id → i = j

/-- Where no two types have one id, an index that covers the table leads to the type with it. -/
theorem Covers.typeSlot?_eq_some (h : table.Covers 0) (hapart : table.TypesApart)
    {id : EntityId} {slot : Nat} : table.typeSlot? id = some slot ↔
      ∃ entity, table.arena[slot]? = some entity ∧ entity.IsTypeOf id := by
  constructor
  · exact h.exists_type
  · rintro ⟨entity, hentity, htype⟩
    rw [h.leads, LastAt, Array.getElem?_toList]
    refine ⟨Nat.zero_le _, ⟨entity, hentity, htype⟩, ?_⟩
    intro other hother htype'
    obtain ⟨i, hi⟩ := List.mem_iff_getElem?.1 hother
    rw [List.getElem?_drop, Array.getElem?_toList] at hi
    have hsame := hapart _ _ _ _ id hentity hi htype htype'
    omega

/-- The slot of the first type with an id. -/
def findType? (table : Table) (id : EntityId) : Option Nat :=
  table.arena.toList.findIdx? fun entity => entity.IsTypeOf id

theorem findType?_eq_some (hapart : table.TypesApart) {id : EntityId} {slot : Nat} :
    table.findType? id = some slot ↔
      ∃ entity, table.arena[slot]? = some entity ∧ entity.IsTypeOf id := by
  rw [findType?, List.findIdx?_eq_some_iff_getElem]
  constructor
  · rintro ⟨hlt, htype, -⟩
    exact ⟨_, by rw [← Array.getElem?_toList]; exact List.getElem?_eq_getElem hlt,
      of_decide_eq_true htype⟩
  · rintro ⟨entity, hentity, htype⟩
    rw [← Array.getElem?_toList] at hentity
    obtain ⟨hlt, rfl⟩ := List.getElem?_eq_some_iff.1 hentity
    refine ⟨hlt, decide_eq_true htype, ?_⟩
    intro other hbefore htype'
    have hother := List.getElem?_eq_getElem (Nat.lt_trans hbefore hlt)
    rw [Array.getElem?_toList] at hentity hother
    have hsame := hapart _ _ _ _ id hother hentity (of_decide_eq_true htype') htype
    omega

theorem Covers.typeSlot?_eq (h : table.Covers 0) (hapart : table.TypesApart) :
    table.typeSlot? = table.findType? := by
  funext id
  apply Option.ext
  intro slot
  rw [h.typeSlot?_eq_some hapart, findType?_eq_some hapart]

/-- Edges lead out of types only. -/
theorem parentsIn_edges_eq_nil {toRef : Nat → EntityRef}
    {elsewhere : EntityId → Option EntityRef} {slot : Nat}
    (hslot : ∀ id, table.typeSlot? id ≠ some slot) :
    parentsIn slot (table.edges toRef elsewhere store project) = [] := by
  apply parentsIn_eq_nil
  rintro child parent hmem rfl
  obtain ⟨row, -, hedge⟩ := List.mem_map.1 hmem
  exact hslot row.left (child_of_edge hedge)

/-- The edges out of the type with an id are those of the rows about this id. -/
theorem parentsIn_edges (hstore : store.Sound) (toRef : Nat → EntityRef)
    (elsewhere : EntityId → Option EntityRef) {slot : Nat} {id : EntityId}
    (hslot : ∀ other, table.typeSlot? other = some slot ↔ other = id) :
    parentsIn slot (table.edges toRef elsewhere store project) =
      ((store.filed project RelationKind.inheritance).filter (·.left = id)).filterMap fun row =>
        ((table.typeSlot? (store.baseOf project row.right)).map toRef).or
          (elsewhere (store.baseOf project row.right)) := by
  rw [parentsIn, edges, List.filterMap_map, List.filterMap_filter,
    hstore.relationsOf_eq_filed project RelationKind.inheritance]
  apply List.filterMap_congr
  intro row _
  simp only [Function.comp_apply, edge, hstore.getD_baseTypes]
  generalize store.baseOf project row.right = right
  rw [Option.orElse_eq_orElse, Option.orElse_eq_or]
  by_cases hleft : row.left = id
  · rw [(hslot row.left).2 hleft]
    cases ((table.typeSlot? right).map toRef).or (elsewhere right) <;> simp [hleft]
  · have hother : table.typeSlot? row.left ≠ some slot := fun heq => hleft ((hslot _).1 heq)
    cases hchild : table.typeSlot? row.left with
    | none => simp [hleft]
    | some child =>
      have hne : child ≠ slot := fun heq => hother (heq ▸ hchild)
      cases ((table.typeSlot? right).map toRef).or (elsewhere right) <;> simp [hleft, hne]

end Table

/-- Entities of rows with ids of their own are apart. -/
theorem Table.Holds.typesApart {table : Table} {origin : Origin} {rows : List EntityRow}
    (h : table.Holds origin rows) (hids : (rows.map (·.id)).Nodup) : table.TypesApart := by
  have hentities : table.arena.toList.map (·.id) = rows.map (·.id) := by
    have hunwired := congrArg (List.map (·.id)) h.entity
    rwa [List.map_map, List.map_map] at hunwired
  intro i j first second id hfirst hsecond htype htype'
  rw [← Array.getElem?_toList] at hfirst hsecond
  rw [← hentities] at hids
  have hlt : i < (table.arena.toList.map (·.id)).length := by
    rw [List.length_map]
    exact (List.getElem?_eq_some_iff.1 hfirst).1
  apply (List.getElem?_inj hlt hids).1
  rw [List.getElem?_map, List.getElem?_map, hfirst, hsecond, Option.map_some, Option.map_some,
    htype.2, htype'.2]

theorem Store.Sound.nodup_stream {store : Store} (h : store.Sound) (project : ProjectId) :
    ((store.stream [project]).map (·.id)).Nodup := by
  rw [stream, List.flatMap_singleton]
  exact h.nodup.sublist (List.filter_sublist.map _)

/-- Which types a table has can be told without their supertypes. -/
theorem Table.findType?_congr {table other : Table}
    (h : table.arena.toList.map Entity.unwired = other.arena.toList.map Entity.unwired) :
    table.findType? = other.findType? := by
  funext id
  have hunwired (any : Table) : any.findType? id =
      (any.arena.toList.map Entity.unwired).findIdx? fun entity => entity.IsTypeOf id := by
    rw [List.findIdx?_map]
    rfl
  rw [hunwired, hunwired, h]

/-! ## Projects -/

namespace ProjectModel

section Rows

variable (model : ProjectModel) (library : LibraryModel) (store : Store)

/-- The type of the project that has an id. -/
def type? (id : EntityId) : Option EntityRef :=
  (model.table.findType? id).map .project

/-- The supertype that a row names: the type of the project that has the right id, or rather the
id that stands for it, and otherwise that of the library. -/
def supertype? (row : RelationRow) : Option EntityRef :=
  let right := store.baseOf model.project row.right
  (model.type? right).or (library.findById? right)

/-- The supertypes that the inheritance rows about an id name, in order and each once. -/
def supertypes (id : EntityId) : List EntityRef :=
  (((store.filed model.project RelationKind.inheritance).filter (·.left = id)).filterMap
    (model.supertype? library store)).eraseDups

/-- The anomaly of an inheritance row: a row that is not about a type of the project misses its
child, and any other row that names no supertype misses its parent. -/
def missing? (row : RelationRow) : Option Anomaly :=
  match model.type? row.left, model.supertype? library store row with
  | none, _ => some (.missingChild row.left)
  | some _, none => some (.missingParent (store.baseOf model.project row.right))
  | some _, some _ => none

end Rows

/-! ## The declarations of a project -/

variable {store : Store}

theorem typesApart_declared (hstore : store.Sound) (project : ProjectId) :
    (declared store project).table.TypesApart :=
  (holds_declared hstore project).typesApart (hstore.nodup_stream project)

/-- A plain model is left with the declarations. -/
theorem arena_contents_plain (library : LibraryModel) (project : ProjectId) :
    (contents .plain store library project).table.arena = (declared store project).table.arena := by
  apply Array.toList_inj.1
  rw [contents, Draft.declare, declared, Draft.ofDeclarations_eq, Draft.arena_addRows,
    Draft.arena_addRows, Store.declarationsOf, List.flatMap_singleton]
  rfl

theorem slot?_contents_plain (library : LibraryModel) (project : ProjectId) (name : String) :
    (contents .plain store library project).table.slot? name =
      (declared store project).table.slot? name := by
  rw [contents, Draft.declare, declared, Draft.slot?_ofDeclarations, Draft.slot?_addRows,
    Store.declarationsOf, List.flatMap_singleton]
  simp [Table.slot?, Table.size]

theorem toList_contents_plain (library : LibraryModel) (project : ProjectId) :
    (contents .plain store library project).diagnostics.toList =
      (declared store project).diagnostics.toList := by
  rw [contents, Draft.declare, declared, Draft.ofDeclarations_eq, Draft.toList_addRows,
    Draft.toList_addRows, Store.declarationsOf, List.flatMap_singleton]
  rfl

/-! ## What wiring makes of them -/

section Wiring

variable {model : ProjectModel} {library : LibraryModel}

/-- The index by id that wiring uses leads to the types that the project has in the end. -/
theorem typeSlot?_declared (hstore : store.Sound)
    (htable : model.table = (contents .virtual store library model.project).table.releaseIds) :
    (declared store model.project).table.typeSlot? = model.table.findType? := by
  rw [(covers_declared store model.project).typeSlot?_eq (typesApart_declared hstore _), htable]
  exact Table.findType?_congr (Draft.map_unwired_wire _ _).symm

/-- A type gets the supertypes that the rows about it name, and no other entity gets any. -/
theorem addParents_declared (hstore : store.Sound)
    (htable : model.table = (contents .virtual store library model.project).table.releaseIds)
    {slot : Nat} {entity : Entity}
    (hentity : (declared store model.project).table.arena[slot]? = some entity)
    (hparents : entity.parents = []) :
    entity.addParents (parentsIn slot ((declared store model.project).table.edges
        .project library.findById? store model.project)) =
      { entity with
        parents := if entity.kind.isClassLike then model.supertypes library store entity.id
          else [] } := by
  have hslot (id : EntityId) :
      (declared store model.project).table.typeSlot? id = some slot ↔ entity.IsTypeOf id := by
    rw [(covers_declared store _).typeSlot?_eq_some (typesApart_declared hstore _), hentity]
    simp
  rw [Entity.addParents_eq hparents]
  by_cases hclass : entity.kind.isClassLike = true
  · have hid (other : EntityId) :
        (declared store model.project).table.typeSlot? other = some slot ↔ other = entity.id := by
      rw [hslot]
      exact ⟨fun h => h.2.symm, fun h => ⟨hclass, h.symm⟩⟩
    rw [if_pos hclass, Table.parentsIn_edges hstore .project library.findById? hid,
      typeSlot?_declared hstore htable]
    rfl
  · rw [if_neg hclass, Table.parentsIn_edges_eq_nil fun id h => hclass ((hslot id).1 h).1,
      List.eraseDups_nil]

/-- Wiring records the ends that rows miss, row by row. -/
theorem missingIn_declared (hstore : store.Sound)
    (htable : model.table = (contents .virtual store library model.project).table.releaseIds) :
    missingIn ((declared store model.project).table.edges .project library.findById? store
        model.project) =
      (store.filed model.project RelationKind.inheritance).filterMap
        (model.missing? library store) := by
  rw [missingIn_edges, Store.missingEnds,
    hstore.relationsOf_eq_filed model.project RelationKind.inheritance]
  apply List.filterMap_congr
  intro row _
  simp only [RelationRow.missingEnd?, hstore.getD_baseTypes, typeSlot?_declared hstore htable,
    missing?, supertype?, type?]
  cases model.table.findType? row.left with
  | none => simp
  | some child =>
    cases model.table.findType? (store.baseOf model.project row.right) with
    | some parent => simp
    | none => cases library.findById? (store.baseOf model.project row.right) <;> simp

end Wiring

/-- A virtual model has the entities that a plain model of the project has. Exactly its types have
supertypes, those that the inheritance rows about them name, in order and each once. The anomalies
of the wiring are those of the inheritance rows, in order, and they follow those that a plain model
has. A name denotes what it denotes in a plain model, an id is that of one type of the project, and
the entities of the library are left as they are, where an id leads to a type with this id: to the
last one, if the library has kept its index. -/
theorem exact_wiring {model : ProjectModel} {library : LibraryModel} {store : Store}
    {project : ProjectId} {soleHolder : Bool} {desk desk' : Desk} (hstore : store.Reached)
    (hlibrary : library.Reached) (hdesk : desk.corpus.store = store)
    (hbuild : buildVirtual project library soleHolder desk = .ok model desk') :
    ∃ plain after, buildPlain project library { corpus := { store } } = .ok plain after ∧
      model.table.arena.toList = plain.table.arena.toList.map (fun entity => { entity with
        parents := if entity.kind.isClassLike then model.supertypes library store entity.id
          else [] }) ∧
      model.anomalies = plain.anomalies ++
        (store.filed project RelationKind.inheritance).filterMap
          (model.missing? library store) ∧
      (∀ name, model.find? name = plain.find? name) ∧
      (∀ id slot, model.type? id = some (.project slot) ↔
        ∃ entity, model.table.arena[slot]? = some entity ∧ entity.IsTypeOf id) ∧
      model.library.draft.table.arena = library.draft.table.arena ∧
      (∀ id ref, library.findById? id = some ref →
        ∃ entity, library.entity? ref = some entity ∧ entity.IsTypeOf id) ∧
      (library.KeepsIndex → ∀ id slot, library.findById? id = some (.library slot) ↔
        LastAt (·.IsTypeOf id) library.draft.table.arena.toList slot) := by
  have hsound := hstore.sound
  have hplain : succeeds (buildPlain project library { corpus := { store } }) = true := rfl
  obtain ⟨plain, after, hplain⟩ := exists_ok_of_succeeds hplain
  refine ⟨plain, after, hplain, ?_⟩
  obtain ⟨rfl, -⟩ := buildPlain_eq_ok hplain
  obtain ⟨hmodel, -⟩ := buildVirtual_eq_ok hbuild
  rw [hdesk] at hmodel
  have hproject : model.project = project := by rw [hmodel]
  have htable : model.table =
      (contents .virtual store library model.project).table.releaseIds := by
    rw [hproject, hmodel]
  have hanomalies : model.anomalies =
      (contents .virtual store library model.project).diagnostics.toList := by
    rw [hproject, hmodel]
    rfl
  subst hproject
  refine ⟨?_, ?_, ?_, ?_, ?_, ?_, ?_⟩
  · show _ = (contents .plain store library model.project).table.arena.toList.map _
    rw [arena_contents_plain]
    apply List.ext_getElem?
    intro slot
    rw [List.getElem?_map, Array.getElem?_toList, Array.getElem?_toList, htable]
    refine (Draft.getElem?_inherit .project library.findById? store (declared store model.project)
      model.project slot).trans ?_
    apply Option.map_congr
    intro entity hentity
    refine addParents_declared hstore.sound htable hentity ?_
    rw [declared, Draft.getElem?_ofDeclarations] at hentity
    obtain ⟨row, -, rfl⟩ := Option.map_eq_some_iff.1 hentity
    rfl
  · rw [hanomalies]
    show _ = (contents .plain store library model.project).diagnostics.toList ++ _
    rw [toList_contents_plain, ← missingIn_declared hstore.sound htable]
    exact Draft.toList_wire _ _
  · intro name
    show _ = ((contents .plain store library model.project).table.slot? name).map _
    rw [slot?_contents_plain, find?, htable]
    congr 1
    exact Draft.slot?_inherit .project library.findById? store (declared store model.project)
      model.project name
  · intro id slot
    have hholds := contents_holds hstore.sound .virtual library model.project
    have hapart := hholds.releaseIds.typesApart (hstore.sound.nodup_stream model.project)
    rw [type?, htable, ← Table.findType?_eq_some hapart, Option.map_eq_some_iff]
    simp
  · rw [hmodel]
    cases soleHolder <;> rfl
  · exact fun id ref => hlibrary.type_of_findById?
  · exact fun hkeeps id slot => hkeeps.findById?_eq_some

/-- Two types and a method of a project over a library type. A row about the method has no child, a
row names an id that nothing has, and the id 9 stands for the library type in the end. -/
def crossingStore : Store :=
  [{ kind := .hasBaseType, left := ⟨9⟩, right := ⟨2⟩, project := ⟨1⟩ },
   { kind := .implements, left := ⟨1⟩, right := ⟨9⟩, project := ⟨1⟩ },
   { kind := .extends, left := ⟨3⟩, right := ⟨2⟩, project := ⟨1⟩ },
   { kind := .extends, left := ⟨1⟩, right := ⟨2⟩, project := ⟨1⟩ },
   { kind := .extends, left := ⟨1⟩, right := ⟨8⟩, project := ⟨1⟩ },
   { kind := .implements, left := ⟨1⟩, right := ⟨9⟩, project := ⟨1⟩ },
   { kind := .hasBaseType, left := ⟨9⟩, right := ⟨4⟩, project := ⟨1⟩ }].foldl Store.relate
  (Store.ofRows
    [{ project := ⟨1⟩, name := "p.A", kind := .class, id := ⟨1⟩ },
     { project := ⟨1⟩, name := "p.B", kind := .class, id := ⟨2⟩ },
     { project := ⟨1⟩, name := "p.A.m", kind := .method, params := some "()", id := ⟨3⟩ },
     { project := ⟨10⟩, name := "l.L", kind := .interface, id := ⟨4⟩ }])

/-- The type gets the library type first, as the row that names it comes first. -/
theorem crossing_wired :
    let desk : Desk := { corpus := { store := crossingStore } }
    crossingStore.Reached ∧ ∃ library after model desk',
      (LibraryModel.empty .virtual).loaded [⟨10⟩] desk = .ok library after ∧
      library.KeepsIndex ∧ buildVirtual ⟨1⟩ library true desk = .ok model desk' ∧
      (model.table.arena[0]?).map (·.parents) = some [.library 0, .project 1] ∧
      model.anomalies = [.missingChild ⟨3⟩, .missingParent ⟨8⟩] ∧
      library.findById? ⟨4⟩ = some (.library 0) := by
  intro desk
  have hreached : crossingStore.Reached := by
    unfold crossingStore
    simp only [List.foldl_cons, List.foldl_nil]
    iterate 7 refine .relate _ ?_
    exact Store.reached_ofRows _
  have hloaded : succeeds ((LibraryModel.empty .virtual).loaded [⟨10⟩] desk) = true := by
    decide +kernel
  obtain ⟨library, after, hloaded⟩ := exists_ok_of_succeeds hloaded
  have hlibrary := LibraryModel.reached_of_loaded (.empty .virtual) hloaded
  have hkeeps := LibraryModel.keepsIndex_of_loaded .empty hloaded
  have hbuilt : succeeds (buildVirtual ⟨1⟩ library true desk) = true := rfl
  obtain ⟨model, desk', hbuilt⟩ := exists_ok_of_succeeds hbuilt
  obtain ⟨plain, last, hplain, harena, hanomalies, -, -, -, -, hfind⟩ :=
    exact_wiring hreached hlibrary rfl hbuilt
  have hleads := hfind hkeeps ⟨4⟩ 0
  obtain ⟨rfl, -⟩ := LibraryModel.loaded_eq_ok hloaded
  obtain ⟨rfl, -⟩ := buildVirtual_eq_ok hbuilt
  obtain ⟨rfl, -⟩ := buildPlain_eq_ok hplain
  refine ⟨hreached, _, after, _, desk', hloaded, hkeeps, hbuilt, ?_, ?_, ?_⟩
  · rw [← Array.getElem?_toList, harena]
    decide +kernel
  · rw [hanomalies]
    decide +kernel
  · exact hleads.2 (by decide +kernel)

end ProjectModel

end Referent
