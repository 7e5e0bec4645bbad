import Mathlib.Data.Set.Function
import Referent.Proofs.Loading

/-!
# What wiring makes of rows

Loading declarations makes one entity of each row; wiring then adds parents and touches nothing
else. The parents of a slot are those that the edges leading out of it name, in the order of the
rows, so a table that has been loaded is known slot by slot from the rows of its projects
(`getElem?_fill`), and a name or an id leads where it led before the wiring (`slot?_fill`,
`typeSlot?_fill`).
-/

namespace Referent

/-! ## Parents of one slot -/

/-- The entity with direct supertypes added in order. -/
def Entity.addParents (entity : Entity) (parents : List EntityRef) : Entity :=
  parents.foldl Entity.addParent entity

namespace Entity

theorem addParents_append (entity : Entity) (parents more : List EntityRef) :
    entity.addParents (parents ++ more) = (entity.addParents parents).addParents more :=
  List.foldl_append

theorem addParent_fields (entity : Entity) (parent : EntityRef) :
    (entity.addParent parent).name = entity.name ∧ (entity.addParent parent).kind = entity.kind ∧
      (entity.addParent parent).id = entity.id := by
  unfold addParent
  split <;> exact ⟨rfl, rfl, rfl⟩

theorem addParents_fields (entity : Entity) (parents : List EntityRef) :
    (entity.addParents parents).name = entity.name ∧
      (entity.addParents parents).kind = entity.kind ∧
        (entity.addParents parents).id = entity.id := by
  induction parents generalizing entity with
  | nil => exact ⟨rfl, rfl, rfl⟩
  | cons parent parents ih =>
    obtain ⟨hname, hkind, hid⟩ := ih (entity.addParent parent)
    obtain ⟨hname', hkind', hid'⟩ := entity.addParent_fields parent
    exact ⟨hname.trans hname', hkind.trans hkind', hid.trans hid'⟩

theorem mem_addParents {entity : Entity} {parents : List EntityRef} {ref : EntityRef} :
    ref ∈ (entity.addParents parents).parents ↔ ref ∈ entity.parents ∨ ref ∈ parents := by
  induction parents generalizing entity with
  | nil => simp [addParents]
  | cons parent parents ih =>
    have hmem : ref ∈ (entity.addParent parent).parents ↔ ref ∈ entity.parents ∨ ref = parent := by
      unfold addParent
      split
      · rename_i hold
        constructor
        · exact .inl
        · rintro (href | rfl)
          · exact href
          · exact hold
      · simp
    rw [addParents, List.foldl_cons]
    refine ih.trans ?_
    rw [hmem, List.mem_cons, or_assoc]

/-- Parents that are there already are not added again. -/
theorem addParents_of_subset {entity : Entity} {parents : List EntityRef}
    (h : ∀ parent ∈ parents, parent ∈ entity.parents) : entity.addParents parents = entity := by
  induction parents with
  | nil => rfl
  | cons parent parents ih =>
    have hold : entity.addParent parent = entity := if_pos (h parent List.mem_cons_self)
    rw [addParents, List.foldl_cons, hold]
    exact ih fun other hother => h other (List.mem_cons_of_mem _ hother)

/-- Moving all references before parents are added or after comes to the same. -/
theorem parents_addParents_map {move : EntityRef → EntityRef} {entity moved : Entity}
    {parents : List EntityRef}
    (hinj : Set.InjOn move {ref | ref ∈ entity.parents ∨ ref ∈ parents})
    (hparents : moved.parents = entity.parents.map move) :
    (moved.addParents (parents.map move)).parents =
      (entity.addParents parents).parents.map move := by
  induction parents generalizing entity moved with
  | nil => exact hparents
  | cons parent parents ih =>
    have hmem : move parent ∈ moved.parents ↔ parent ∈ entity.parents := by
      rw [hparents, List.mem_map]
      constructor
      · rintro ⟨other, hother, heq⟩
        rwa [← hinj (.inl hother) (.inr List.mem_cons_self) heq]
      · intro hparent
        exact ⟨parent, hparent, rfl⟩
    apply ih
    · refine hinj.mono ?_
      rintro ref (href | href)
      · unfold addParent at href
        split at href
        · exact .inl href
        · rcases List.mem_append.1 href with href | href
          · exact .inl href
          · rw [List.mem_singleton.1 href]
            exact .inr List.mem_cons_self
      · exact .inr (List.mem_cons_of_mem _ href)
    · unfold addParent
      by_cases h : parent ∈ entity.parents
      · rw [if_pos h, if_pos (hmem.2 h)]
        exact hparents
      · rw [if_neg h, if_neg fun hmoved => h (hmem.1 hmoved)]
        simp only
        rw [hparents, List.map_append, List.map_singleton]

end Entity

/-- The parents that edges give to one slot. -/
def parentsIn (slot : Nat) (edges : List (Except Anomaly (Nat × EntityRef))) :
    List EntityRef :=
  edges.filterMap fun
    | .ok (child, parent) => if child = slot then some parent else none
    | .error _ => none

theorem edge_of_mem_parentsIn {slot : Nat} {parent : EntityRef}
    {edges : List (Except Anomaly (Nat × EntityRef))} (h : parent ∈ parentsIn slot edges) :
    .ok (slot, parent) ∈ edges := by
  obtain ⟨edge, hedge, heq⟩ := List.mem_filterMap.1 h
  cases edge with
  | error anomaly => cases heq
  | ok link =>
    simp only [Option.ite_none_right_eq_some, Option.some.injEq] at heq
    obtain ⟨rfl, rfl⟩ := heq
    exact hedge

/-- Edges give no parents to slots that no child is in. -/
theorem parentsIn_eq_nil {slot : Nat} {edges : List (Except Anomaly (Nat × EntityRef))}
    (h : ∀ child parent, .ok (child, parent) ∈ edges → child ≠ slot) :
    parentsIn slot edges = [] := by
  rw [parentsIn, List.filterMap_eq_nil_iff]
  intro edge hedge
  cases edge with
  | error anomaly => rfl
  | ok link => exact if_neg (h link.1 link.2 hedge)

/-- Moved edges give a moved slot its parents, moved, if no other child is moved there. -/
theorem parentsIn_map {child : Nat → Nat} {move : EntityRef → EntityRef} {slot : Nat}
    {edges : List (Except Anomaly (Nat × EntityRef))}
    (hchild : ∀ other parent, .ok (other, parent) ∈ edges → child other = child slot →
      other = slot) :
    parentsIn (child slot) (edges.map (Except.map fun link => (child link.1, move link.2))) =
      (parentsIn slot edges).map move := by
  rw [parentsIn, parentsIn, List.filterMap_map, List.map_filterMap]
  apply List.filterMap_congr
  intro edge hedge
  cases edge with
  | error anomaly => rfl
  | ok link =>
    have hiff : child link.1 = child slot ↔ link.1 = slot :=
      ⟨hchild link.1 link.2 hedge, congrArg child⟩
    simp only [Function.comp_apply, Except.map, hiff]
    split <;> rfl

/-- The child of an edge is the type with the left id. -/
theorem child_of_edge {table : Table} {toRef : Nat → EntityRef}
    {elsewhere : EntityId → Option EntityRef} {bases : Std.TreeMap EntityId EntityId}
    {row : RelationRow} {link : Nat × EntityRef}
    (h : table.edge toRef elsewhere bases row = .ok link) :
    table.typeSlot? row.left = some link.1 := by
  unfold Table.edge at h
  simp only at h
  split at h
  · cases h
  · rename_i child hchild
    split at h
    · cases h
    · cases h
      exact hchild

/-- What the inheritance rows of a project mean to a table. -/
def Table.edges (table : Table) (toRef : Nat → EntityRef)
    (elsewhere : EntityId → Option EntityRef) (store : Store) (project : ProjectId) :
    List (Except Anomaly (Nat × EntityRef)) :=
  (store.relationsOf project RelationKind.inheritance).map <|
    table.edge toRef elsewhere (baseTypes (store.relationsOf project [.hasBaseType]))

theorem Table.edges_congr {table other : Table} (h : table.typeSlots = other.typeSlots) :
    table.edges = other.edges := by
  have hslot : table.typeSlot? = other.typeSlot? := by
    funext id
    rw [typeSlot?, typeSlot?, h]
  funext toRef elsewhere store project
  unfold edges
  congr 1
  funext row
  rw [edge, edge, hslot]

namespace Draft

/-- New entities stand behind the old ones, in the order of the rows. -/
theorem getElem?_addRows (origin : Origin) (draft : Draft) (rows : List EntityRow) (slot : Nat) :
    (rows.foldl (addRow origin) draft).table.arena[slot]? =
      if slot < draft.table.size then draft.table.arena[slot]?
      else (rows[slot - draft.table.size]?).map (·.entity origin) := by
  rw [← Array.getElem?_toList, arena_addRows]
  split
  · rename_i hlt
    rw [List.getElem?_append_left (by simpa [Table.size] using hlt), Array.getElem?_toList]
  · rename_i hle
    rw [List.getElem?_append_right (by simpa [Table.size] using hle), List.getElem?_map,
      Array.length_toList, Table.size]

theorem getElem?_wire (draft : Draft) (edges : List (Except Anomaly (Nat × EntityRef)))
    (slot : Nat) : (draft.wire edges).table.arena[slot]? =
      (draft.table.arena[slot]?).map (·.addParents (parentsIn slot edges)) := by
  induction edges generalizing draft with
  | nil => simp [wire, parentsIn, Entity.addParents]
  | cons edge edges ih =>
    rw [wire, List.foldl_cons]
    refine (ih (draft.applyEdge edge)).trans ?_
    cases edge with
    | error anomaly => rfl
    | ok link =>
      obtain ⟨child, parent⟩ := link
      simp only [applyEdge, Table.addParent, parentsIn, List.filterMap_cons,
        Array.getElem?_modify]
      split
      · cases draft.table.arena[slot]? <;> rfl
      · rfl

theorem size_wire (draft : Draft) (edges : List (Except Anomaly (Nat × EntityRef))) :
    (draft.wire edges).table.size = draft.table.size := by
  induction edges generalizing draft with
  | nil => rfl
  | cons edge edges ih =>
    rw [wire, List.foldl_cons]
    refine (ih (draft.applyEdge edge)).trans ?_
    cases edge with
    | error anomaly => rfl
    | ok link => exact Table.size_addParent draft.table link.1 link.2

@[simp] theorem typeSlots_inherit (toRef : Nat → EntityRef)
    (elsewhere : EntityId → Option EntityRef) (store : Store) (draft : Draft)
    (project : ProjectId) :
    (draft.inherit toRef elsewhere store project).table.typeSlots = draft.table.typeSlots :=
  typeSlots_wire draft _

@[simp] theorem slot?_inherit (toRef : Nat → EntityRef)
    (elsewhere : EntityId → Option EntityRef) (store : Store) (draft : Draft)
    (project : ProjectId) (name : String) :
    (draft.inherit toRef elsewhere store project).table.slot? name = draft.table.slot? name :=
  slot?_wire draft _ name

theorem size_inherit (toRef : Nat → EntityRef) (elsewhere : EntityId → Option EntityRef)
    (store : Store) (draft : Draft) (project : ProjectId) :
    (draft.inherit toRef elsewhere store project).table.size = draft.table.size :=
  size_wire draft _

theorem getElem?_inherit (toRef : Nat → EntityRef) (elsewhere : EntityId → Option EntityRef)
    (store : Store) (draft : Draft) (project : ProjectId) (slot : Nat) :
    (draft.inherit toRef elsewhere store project).table.arena[slot]? =
      (draft.table.arena[slot]?).map
        (·.addParents (parentsIn slot (draft.table.edges toRef elsewhere store project))) :=
  getElem?_wire draft _ slot

variable (toRef : Nat → EntityRef) (elsewhere : EntityId → Option EntityRef) (store : Store)
  (projects : List ProjectId)

theorem typeSlots_inherit_foldl (draft : Draft) :
    (projects.foldl (inherit toRef elsewhere store) draft).table.typeSlots =
      draft.table.typeSlots := by
  induction projects generalizing draft with
  | nil => rfl
  | cons project projects ih => rw [List.foldl_cons, ih, typeSlots_inherit]

theorem slot?_inherit_foldl (draft : Draft) (name : String) :
    (projects.foldl (inherit toRef elsewhere store) draft).table.slot? name =
      draft.table.slot? name := by
  induction projects generalizing draft with
  | nil => rfl
  | cons project projects ih => rw [List.foldl_cons, ih, slot?_inherit]

theorem size_inherit_foldl (draft : Draft) :
    (projects.foldl (inherit toRef elsewhere store) draft).table.size = draft.table.size := by
  induction projects generalizing draft with
  | nil => rfl
  | cons project projects ih => rw [List.foldl_cons, ih, size_inherit]

theorem getElem?_inherit_foldl (draft : Draft) (slot : Nat) :
    (projects.foldl (inherit toRef elsewhere store) draft).table.arena[slot]? =
      (draft.table.arena[slot]?).map (·.addParents (projects.flatMap fun project =>
        parentsIn slot (draft.table.edges toRef elsewhere store project))) := by
  induction projects generalizing draft with
  | nil => simp [Entity.addParents]
  | cons project projects ih =>
    -- Wiring leaves the index by id alone, so later rows mean what they meant at the start.
    have hsame : (draft.inherit toRef elsewhere store project).table.edges = draft.table.edges :=
      Table.edges_congr (typeSlots_inherit toRef elsewhere store draft project)
    rw [List.foldl_cons, ih, getElem?_inherit, Option.map_map, hsame, List.flatMap_cons]
    congr 1
    funext entity
    exact (entity.addParents_append _ _).symm

/-- Wiring leaves every entity its id. -/
theorem id_inherit_foldl (draft : Draft) (slot : Nat) :
    ((projects.foldl (inherit toRef elsewhere store) draft).table.arena[slot]?).map (·.id) =
      (draft.table.arena[slot]?).map (·.id) := by
  rw [getElem?_inherit_foldl, Option.map_map]
  congr 1
  funext entity
  exact (entity.addParents_fields _).2.2

end Draft

/-! ## Loading from nothing -/

/-- The rows of all declarations of some projects. -/
def Store.declarationsOf (store : Store) (projects : List ProjectId) : List EntityRow :=
  projects.flatMap (store.entitiesOf · EntityKind.declared)

theorem mem_declarationsOf {store : Store} (hstore : store.Sound) {projects : List ProjectId}
    {row : EntityRow} : row ∈ store.declarationsOf projects ↔
      row ∈ store.entities.toList ∧ row.project ∈ projects ∧ row.kind ∈ EntityKind.declared := by
  simp only [Store.declarationsOf, List.mem_flatMap, hstore.entitiesOf_eq, List.mem_filter,
    decide_eq_true_eq, List.contains_iff_mem]
  constructor
  · rintro ⟨owner, howner, hmem, rfl, hkind⟩
    exact ⟨hmem, howner, hkind⟩
  · rintro ⟨hmem, howner, hkind⟩
    exact ⟨row.project, howner, hmem, rfl, hkind⟩

theorem kind_of_mem_declarationsOf {store : Store} (hstore : store.Sound)
    {projects : List ProjectId} :
    ∀ row ∈ store.declarationsOf projects, row.kind ∈ EntityKind.declared :=
  fun _ hrow => ((mem_declarationsOf hstore).1 hrow).2.2

/-- Projects that are listed once have each of their declarations once. -/
theorem nodup_declarationsOf {store : Store} (hstore : store.Sound) {projects : List ProjectId}
    (hprojects : projects.Nodup) : (store.declarationsOf projects).Nodup := by
  rw [Store.declarationsOf, List.nodup_flatMap]
  constructor
  · intro project _
    exact hstore.nodup_entitiesOf project EntityKind.declared
  · refine hprojects.imp ?_
    intro project other hne row hrow hother
    simp only [hstore.entitiesOf_eq, List.mem_filter, decide_eq_true_eq] at hrow hother
    exact hne (hrow.2.1.symm.trans hother.2.1)

/-- A draft that tracks ids, with the declarations of some projects. -/
def Draft.ofDeclarations (origin : Origin) (store : Store) (projects : List ProjectId) : Draft :=
  projects.foldl (declare origin store) { table := ({} : Table).trackIds }

namespace Draft

variable (origin : Origin) (store : Store) (projects : List ProjectId)

/-- Loading project by project loads all rows in order. -/
theorem declare_foldl (draft : Draft) : projects.foldl (declare origin store) draft =
    (store.declarationsOf projects).foldl (addRow origin) draft := by
  rw [Store.declarationsOf, List.foldl_flatMap]
  rfl

theorem ofDeclarations_eq : ofDeclarations origin store projects =
    (store.declarationsOf projects).foldl (addRow origin) { table := ({} : Table).trackIds } :=
  declare_foldl origin store projects _

theorem getElem?_ofDeclarations (slot : Nat) :
    (ofDeclarations origin store projects).table.arena[slot]? =
      ((store.declarationsOf projects)[slot]?).map (·.entity origin) := by
  rw [ofDeclarations_eq, getElem?_addRows]
  simp [Table.size, Table.trackIds]

theorem slot?_ofDeclarations (name : String) :
    (ofDeclarations origin store projects).table.slot? name =
      claimSlot? name 0 (store.declarationsOf projects) := by
  rw [ofDeclarations_eq, slot?_addRows]
  simp [Table.slot?, Table.trackIds, Table.size]

theorem typeSlot?_ofDeclarations (id : EntityId) :
    (ofDeclarations origin store projects).table.typeSlot? id =
      classSlot? id 0 (store.declarationsOf projects) := by
  rw [ofDeclarations_eq, typeSlot?_addRows _ _ _ rfl]
  simp [Table.typeSlot?, Table.trackIds, Table.size]

/-- A library model that is loaded at once, slot by slot. -/
theorem getElem?_fill (slot : Nat) :
    (fill .virtual store projects { table := ({} : Table).trackIds }).table.arena[slot]? =
      (((store.declarationsOf projects)[slot]?).map (·.entity .library)).map
        (·.addParents (projects.flatMap fun project => parentsIn slot
          ((ofDeclarations .library store projects).table.edges .library (fun _ => none) store
            project))) := by
  rw [← getElem?_ofDeclarations]
  exact getElem?_inherit_foldl .library (fun _ => none) store projects _ slot

theorem slot?_fill (name : String) :
    (fill .virtual store projects { table := ({} : Table).trackIds }).table.slot? name =
      claimSlot? name 0 (store.declarationsOf projects) := by
  rw [← slot?_ofDeclarations .library]
  exact slot?_inherit_foldl .library (fun _ => none) store projects _ name

theorem typeSlot?_fill (id : EntityId) :
    (fill .virtual store projects { table := ({} : Table).trackIds }).table.typeSlot? id =
      classSlot? id 0 (store.declarationsOf projects) := by
  have hsame := typeSlots_inherit_foldl .library (fun _ => none) store projects
    (ofDeclarations .library store projects)
  rw [← typeSlot?_ofDeclarations .library, Table.typeSlot?, Table.typeSlot?, ← hsame]
  rfl

end Draft

end Referent
