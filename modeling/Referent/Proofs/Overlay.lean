import Referent.Proofs.Models
import Referent.Proofs.Questions
import Referent.Proofs.Relocation
import Referent.Proofs.Wiring

/-!
# One table or two

A project model lays a project's declarations over a library model. Loading the project and then
the libraries into one library model gives the same types in one table: the project's slots come
first and the libraries' slots behind them (`shift`). The two models answer alike about members
of the project's types, as long as inheritance does not cross the layers backwards (`Layered`).

* **Rows** (`edge_project`, `edge_library`): an inheritance row means the same in both, shifted.
* **Types** (`Overlaid.entity?_flat`): so each type has the same supertypes, shifted.
* **Answers** (`overlay_agrees_with_flat`): so the walk finds the same declarations, and both
  ways of dispatch take the same branch.
-/

namespace Referent

/-- What the rows of a store must keep for layers to be one table: inheritance that is filed
under the project begins at the project's own types, and inheritance that is filed under a
library stays among library types. -/
structure Layered (store : Store) (project : ProjectId) (libraries : List ProjectId) : Prop where
  absent : project ∉ libraries
  project_left : ∀ row ∈ store.relationsOf project RelationKind.inheritance,
    ∀ entity ∈ store.declarationsOf libraries, entity.kind.isClassLike = true →
      entity.id ≠ row.left
  library_left : ∀ library ∈ libraries,
    ∀ row ∈ store.relationsOf library RelationKind.inheritance,
      ∀ entity ∈ store.declarationsOf [project], entity.kind.isClassLike = true →
        entity.id ≠ row.left
  /-- The right end is the base type of a parameterized type. -/
  library_right : ∀ library ∈ libraries,
    ∀ row ∈ store.relationsOf library RelationKind.inheritance,
      ∀ entity ∈ store.declarationsOf [project], entity.kind.isClassLike = true →
        entity.id ≠ (baseTypes (store.relationsOf library [.hasBaseType])).getD row.right row.right

/-- Where a reference of the two layers leads in the one table, whose first `size` slots are the
project's. -/
def shift (size : Nat) : EntityRef → EntityRef
  | .project slot => if slot < size then .library slot else .project slot
  | .library slot => .library (size + slot)

theorem shift_injective (size : Nat) : Function.Injective (shift size) := by
  intro ref other h
  cases ref with
  | library slot =>
    cases other with
    | library slot' =>
      simp only [shift, EntityRef.library.injEq] at h
      rw [EntityRef.library.injEq]
      omega
    | project slot' =>
      simp only [shift] at h
      split at h
      · rw [EntityRef.library.injEq] at h
        omega
      · cases h
  | project slot =>
    cases other with
    | library slot' =>
      simp only [shift] at h
      split at h
      · rw [EntityRef.library.injEq] at h
        omega
      · cases h
    | project slot' =>
      simp only [shift] at h
      split at h <;> split at h <;> cases h <;> rfl

/-! ## Rows -/

/-- The ids of two layers in one table: those of the project first, and none in both. -/
structure Joined (size : Nat) (own lib flat : Table) : Prop where
  own_lt : ∀ id slot, own.typeSlot? id = some slot → slot < size
  flat : ∀ id, flat.typeSlot? id =
    (own.typeSlot? id).or ((lib.typeSlot? id).map (size + ·))

/-- The link with its ends shifted. -/
def shiftLink (size : Nat) (child : Nat → Nat) (link : Nat × EntityRef) : Nat × EntityRef :=
  (child link.1, shift size link.2)

section Rows

variable {size : Nat} {own lib flat : Table} {bases : Std.TreeMap EntityId EntityId}
  {row : RelationRow}

theorem Joined.parent (h : Joined size own lib flat) (id : EntityId) :
    (flat.typeSlot? id).map .library =
      (((own.typeSlot? id).map .project).or ((lib.typeSlot? id).map .library)).map
        (shift size) := by
  rw [h.flat]
  cases hown : own.typeSlot? id with
  | none => cases lib.typeSlot? id <;> rfl
  | some slot =>
    have := h.own_lt id slot hown
    simp [shift, this]

/-- A row of the project, whose child is the project's. -/
theorem edge_project (h : Joined size own lib flat)
    (hleft : lib.typeSlot? row.left = none) :
    flat.edge .library (fun _ => none) bases row =
      (own.edge .project (fun id => (lib.typeSlot? id).map .library) bases row).map
        (shiftLink size id) := by
  have hchild : flat.typeSlot? row.left = own.typeSlot? row.left := by
    rw [h.flat, hleft, Option.map_none, Option.or_none]
  have hparent := h.parent (bases.getD row.right row.right)
  unfold Table.edge
  simp only [Option.orElse_eq_orElse, Option.orElse_eq_or, Option.or_none, hchild, hparent]
  cases own.typeSlot? row.left with
  | none => rfl
  | some child =>
    cases ((own.typeSlot? (bases.getD row.right row.right)).map EntityRef.project).or
      ((lib.typeSlot? (bases.getD row.right row.right)).map EntityRef.library) <;> rfl

/-- A row of a library, whose ends are both of libraries. -/
theorem edge_library (h : Joined size own lib flat)
    (hleft : own.typeSlot? row.left = none)
    (hright : own.typeSlot? (bases.getD row.right row.right) = none) :
    flat.edge .library (fun _ => none) bases row =
      (lib.edge .library (fun _ => none) bases row).map (shiftLink size (size + ·)) := by
  have hchild : flat.typeSlot? row.left = (lib.typeSlot? row.left).map (size + ·) := by
    rw [h.flat, hleft, Option.none_or]
  have hparent := h.parent (bases.getD row.right row.right)
  rw [hright, Option.map_none, Option.none_or] at hparent
  unfold Table.edge
  simp only [Option.orElse_eq_orElse, Option.orElse_eq_or, Option.or_none, hchild, hparent]
  cases lib.typeSlot? row.left with
  | none => rfl
  | some child => cases lib.typeSlot? (bases.getD row.right row.right) <;> rfl

/-- Shifted edges give a shifted slot its parents, shifted. -/
theorem parentsIn_shift {child : Nat → Nat} (hchild : Function.Injective child) (slot : Nat)
    (edges : List (Except Anomaly (Nat × EntityRef))) :
    parentsIn (child slot) (edges.map (Except.map (shiftLink size child))) =
      (parentsIn slot edges).map (shift size) :=
  parentsIn_map fun _ _ _ heq => hchild heq

end Rows

/-! ## Types -/

section Layers

variable {store : Store} {project : ProjectId} {libraries : List ProjectId}

theorem declarationsOf_cons (store : Store) (project : ProjectId) (libraries : List ProjectId) :
    store.declarationsOf (project :: libraries) =
      store.declarationsOf [project] ++ store.declarationsOf libraries := by
  simp [Store.declarationsOf]

/-- No type of the project has the id of a type of a library. -/
theorem classSlot?_apart (hstore : store.Sound) (habsent : project ∉ libraries) (id : EntityId)
    (start start' : Nat) : classSlot? id start (store.declarationsOf [project]) = none ∨
      classSlot? id start' (store.declarationsOf libraries) = none := by
  cases hown : classSlot? id start (store.declarationsOf [project]) with
  | none => exact .inl rfl
  | some slot =>
    cases hlib : classSlot? id start' (store.declarationsOf libraries) with
    | none => exact .inr rfl
    | some slot' =>
      exfalso
      obtain ⟨row, hrow, -, hid⟩ := classSlot?_isSome.1 (Option.isSome_iff_exists.2 ⟨_, hown⟩)
      obtain ⟨other, hother, -, hid'⟩ := classSlot?_isSome.1 (Option.isSome_iff_exists.2 ⟨_, hlib⟩)
      obtain ⟨hmem, hproject, -⟩ := (mem_declarationsOf hstore).1 hrow
      obtain ⟨hmem', hlibrary, -⟩ := (mem_declarationsOf hstore).1 hother
      have hsame := hstore.row_unique hmem hmem' (hid.trans hid'.symm)
      rw [hsame, List.mem_singleton] at hproject
      exact habsent (hproject ▸ hlibrary)

theorem joined (hstore : store.Sound) (habsent : project ∉ libraries) :
    Joined (store.declarationsOf [project]).length
      (Draft.ofDeclarations .internal store [project]).table
      (Draft.ofDeclarations .library store libraries).table
      (Draft.ofDeclarations .library store (project :: libraries)).table where
  own_lt id slot h := by
    rw [Draft.typeSlot?_ofDeclarations] at h
    have := (classSlot?_bounds h).2
    omega
  flat id := by
    simp only [Draft.typeSlot?_ofDeclarations]
    rw [declarationsOf_cons store project libraries, classSlot?_append, classSlot?_add]
    have hshift : (fun slot => slot + (store.declarationsOf [project]).length) =
        ((store.declarationsOf [project]).length + ·) := funext fun slot => Nat.add_comm _ _
    rw [hshift]
    rcases classSlot?_apart hstore habsent id 0 0 with h | h
    · rw [h, Option.or_none, Option.none_or]
    · rw [h, Option.map_none, Option.none_or, Option.or_none]

/-- What the inheritance of the project means in a table of its own. -/
def projectEdges (store : Store) (project : ProjectId) (libraries : List ProjectId) :
    List (Except Anomaly (Nat × EntityRef)) :=
  (Draft.ofDeclarations .internal store [project]).table.edges .project
    (fun id => ((Draft.ofDeclarations .library store libraries).table.typeSlot? id).map .library)
    store project

/-- What the inheritance of one of some projects means in the table of all of them. -/
def tableEdges (store : Store) (projects : List ProjectId) (owner : ProjectId) :
    List (Except Anomaly (Nat × EntityRef)) :=
  (Draft.ofDeclarations .library store projects).table.edges .library (fun _ => none) store owner

/-- The edges of the project, in one table and in two. -/
theorem edges_project (hstore : store.Sound) (h : Layered store project libraries) :
    tableEdges store (project :: libraries) project =
      (projectEdges store project libraries).map
        (Except.map (shiftLink (store.declarationsOf [project]).length id)) := by
  rw [tableEdges, projectEdges, Table.edges, Table.edges, List.map_map]
  apply List.map_congr_left
  intro row hrow
  apply edge_project (joined hstore h.absent)
  rw [Draft.typeSlot?_ofDeclarations]
  exact classSlot?_eq_none (h.project_left row hrow)

/-- The edges of a library, in one table and in two. -/
theorem edges_library (hstore : store.Sound) (h : Layered store project libraries)
    {library : ProjectId} (hlibrary : library ∈ libraries) :
    tableEdges store (project :: libraries) library =
      (tableEdges store libraries library).map (Except.map
        (shiftLink (store.declarationsOf [project]).length
          ((store.declarationsOf [project]).length + ·))) := by
  rw [tableEdges, tableEdges, Table.edges, Table.edges, List.map_map]
  apply List.map_congr_left
  intro row hrow
  apply edge_library (joined hstore h.absent)
  · rw [Draft.typeSlot?_ofDeclarations]
    exact classSlot?_eq_none (h.library_left library hlibrary row hrow)
  · rw [Draft.typeSlot?_ofDeclarations]
    exact classSlot?_eq_none (h.library_right library hlibrary row hrow)

/-- Rows of libraries give the project's slots no parents. -/
theorem parentsIn_own (hstore : store.Sound) (h : Layered store project libraries)
    {library : ProjectId} (hlibrary : library ∈ libraries) {slot : Nat}
    (hslot : slot < (store.declarationsOf [project]).length) :
    parentsIn slot (tableEdges store (project :: libraries) library) = [] := by
  rw [edges_library hstore h hlibrary]
  apply parentsIn_eq_nil
  intro child parent hmem
  obtain ⟨edge, -, hedge⟩ := List.mem_map.1 hmem
  cases edge with
  | error anomaly => cases hedge
  | ok link =>
    cases hedge
    simp only [ne_eq]
    omega

/-- Rows of the project give library slots no parents. -/
theorem parentsIn_behind (hstore : store.Sound) (h : Layered store project libraries)
    (slot : Nat) : parentsIn ((store.declarationsOf [project]).length + slot)
      (tableEdges store (project :: libraries) project) = [] := by
  rw [edges_project hstore h]
  apply parentsIn_eq_nil
  intro child parent hmem
  obtain ⟨edge, hedge, heq⟩ := List.mem_map.1 hmem
  cases edge with
  | error anomaly => cases heq
  | ok link =>
    obtain ⟨row, -, hrow⟩ := List.mem_map.1 hedge
    cases heq
    have := (joined hstore h.absent).own_lt _ _ (child_of_edge hrow)
    simp only [id, ne_eq]
    omega

/-- A slot of the project has the same parents in one table. -/
theorem parents_project (hstore : store.Sound) (h : Layered store project libraries) {slot : Nat}
    (hslot : slot < (store.declarationsOf [project]).length) :
    ((project :: libraries).flatMap fun owner =>
      parentsIn slot (tableEdges store (project :: libraries) owner)) =
        (parentsIn slot (projectEdges store project libraries)).map
          (shift (store.declarationsOf [project]).length) := by
  have hlibraries : (libraries.flatMap fun library =>
      parentsIn slot (tableEdges store (project :: libraries) library)) = [] := by
    rw [List.flatMap_eq_nil_iff]
    intro library hlibrary
    exact parentsIn_own hstore h hlibrary hslot
  rw [List.flatMap_cons, hlibraries, List.append_nil, edges_project hstore h]
  exact parentsIn_shift Function.injective_id slot _

/-- A slot of the libraries has the same parents in one table. -/
theorem parents_library (hstore : store.Sound) (h : Layered store project libraries)
    (slot : Nat) :
    ((project :: libraries).flatMap fun owner =>
      parentsIn ((store.declarationsOf [project]).length + slot)
        (tableEdges store (project :: libraries) owner)) =
      (libraries.flatMap fun library => parentsIn slot (tableEdges store libraries library)).map
        (shift (store.declarationsOf [project]).length) := by
  have hinj : Function.Injective ((store.declarationsOf [project]).length + ·) :=
    fun _ _ heq => Nat.add_left_cancel heq
  rw [List.flatMap_cons, parentsIn_behind hstore h, List.nil_append, List.map_flatMap]
  apply List.flatMap_congr
  intro library hlibrary
  rw [edges_library hstore h hlibrary]
  exact parentsIn_shift hinj slot _

/-- The entities of a row with parents and with the same parents moved. -/
theorem moved_entity {move : EntityRef → EntityRef} (hinj : Function.Injective move)
    (origin : Origin) (row : EntityRow) (parents : List EntityRef) :
    let entity := (row.entity origin).addParents parents
    let moved := (row.entity .library).addParents (parents.map move)
    moved.name = entity.name ∧ moved.kind = entity.kind ∧ moved.id = entity.id ∧
      moved.parents = entity.parents.map move := by
  intro entity moved
  obtain ⟨hname, hkind, hid⟩ := (row.entity origin).addParents_fields parents
  obtain ⟨hname', hkind', hid'⟩ := (row.entity .library).addParents_fields (parents.map move)
  refine ⟨hname'.trans hname.symm, hkind'.trans hkind.symm, hid'.trans hid.symm, ?_⟩
  exact Entity.parents_addParents_map hinj.injOn rfl

/-- The library model of some projects. -/
def LibraryModel.ofProjects (rootType : String) (store : Store) (projects : List ProjectId) :
    LibraryModel where
  mode := .virtual
  rootType
  draft := Draft.fill .virtual store projects { table := ({} : Table).trackIds }

theorem LibraryModel.eq_ofProjects_of_loaded {rootType : String} {projects : List ProjectId}
    {desk desk' : Desk} {model : LibraryModel}
    (h : ((empty .virtual).withRootType rootType).loaded projects desk = .ok model desk') :
    model = ofProjects rootType desk.corpus.store projects :=
  (loaded_eq_ok h).1

/-- The model has the tables of a project that is built on top of a library model, whether or
not ids are still tracked. -/
structure Overlaid (rootType : String) (store : Store) (project : ProjectId)
    (libraries : List ProjectId) (model : ProjectModel) : Prop where
  arena : model.table.arena = (ProjectModel.contents .virtual store
    (.ofProjects rootType store libraries) project).table.arena
  slots : model.table.slots = (ProjectModel.contents .virtual store
    (.ofProjects rootType store libraries) project).table.slots
  libraryArena : model.library.draft.table.arena =
    (LibraryModel.ofProjects rootType store libraries).draft.table.arena
  librarySlots : model.library.draft.table.slots =
    (LibraryModel.ofProjects rootType store libraries).draft.table.slots
  rootType : model.library.rootType = rootType

theorem overlaid_of_build {rootType : String} {desk desk' : Desk} {soleHolder : Bool}
    {model : ProjectModel}
    (h : ProjectModel.buildVirtual project
      (.ofProjects rootType desk.corpus.store libraries) soleHolder desk = .ok model desk') :
    Overlaid rootType desk.corpus.store project libraries model := by
  obtain ⟨rfl, -⟩ := ProjectModel.buildVirtual_eq_ok h
  cases soleHolder with
  | false => exact ⟨rfl, rfl, rfl, rfl, rfl⟩
  | true => exact ⟨rfl, rfl, rfl, rfl, rfl⟩

namespace Overlaid

variable {rootType : String} {model : ProjectModel}

theorem find? (h : Overlaid rootType store project libraries model) (name : String) :
    model.find? name =
      (claimSlot? name 0 (store.declarationsOf [project])).map .project := by
  rw [ProjectModel.find?, Table.slot?, h.slots, ← Table.slot?, ProjectModel.contents,
    Draft.slot?_inherit]
  congr 1
  exact Draft.slot?_ofDeclarations .internal store [project] name

theorem library_find? (h : Overlaid rootType store project libraries model) (name : String) :
    model.library.find? name =
      (claimSlot? name 0 (store.declarationsOf libraries)).map .library := by
  rw [LibraryModel.find?, Table.slot?, h.librarySlots, ← Table.slot?]
  congr 1
  exact Draft.slot?_fill store libraries name

theorem entity?_project (h : Overlaid rootType store project libraries model) (slot : Nat) :
    model.entity? (.project slot) =
      (((store.declarationsOf [project])[slot]?).map (·.entity .internal)).map
        (·.addParents (parentsIn slot (projectEdges store project libraries))) := by
  have helsewhere : (LibraryModel.ofProjects rootType store libraries).findById? =
      fun id => ((Draft.ofDeclarations .library store libraries).table.typeSlot? id).map
        .library := by
    funext id
    rw [Draft.typeSlot?_ofDeclarations, ← Draft.typeSlot?_fill]
    rfl
  rw [projectEdges, ← Draft.getElem?_ofDeclarations, ← helsewhere]
  show model.table.arena[slot]? = _
  rw [h.arena]
  exact Draft.getElem?_inherit .project _ store _ project slot

theorem entity?_library (h : Overlaid rootType store project libraries model) (slot : Nat) :
    model.entity? (.library slot) =
      (((store.declarationsOf libraries)[slot]?).map (·.entity .library)).map
        (·.addParents (libraries.flatMap fun library =>
          parentsIn slot (tableEdges store libraries library))) := by
  refine Eq.trans ?_ (Draft.getElem?_fill store libraries slot)
  show model.library.draft.table.arena[slot]? = _
  rw [h.libraryArena]
  rfl

/-- What a name denotes in two tables, it denotes in one, shifted. -/
theorem find?_flat (h : Overlaid rootType store project libraries model) (name : String) :
    (LibraryModel.ofProjects rootType store (project :: libraries)).find? name =
      (model.findAny? name).map (shift (store.declarationsOf [project]).length) := by
  have hflat : (LibraryModel.ofProjects rootType store (project :: libraries)).find? name =
      (claimSlot? name 0 (store.declarationsOf (project :: libraries))).map .library := by
    rw [← Draft.slot?_fill]
    rfl
  rw [hflat, declarationsOf_cons store project libraries, claimSlot?_append, claimSlot?_add,
    ProjectModel.findAny?, h.find?, h.library_find?, Option.orElse_eq_orElse,
    Option.orElse_eq_or]
  cases hown : claimSlot? name 0 (store.declarationsOf [project]) with
  | some slot =>
    have := (claimSlot?_bounds hown).2
    rw [Nat.zero_add] at this
    simp [shift, this]
  | none =>
    cases claimSlot? name 0 (store.declarationsOf libraries) with
    | none => rfl
    | some slot => simp [shift, Nat.add_comm]

/-- A type of two tables is a type of the one, with its supertypes shifted. -/
theorem entity?_flat (h : Overlaid rootType store project libraries model)
    (hstore : store.Sound) (hlayers : Layered store project libraries) {ref : EntityRef}
    {entity : Entity} (hentity : model.entity? ref = some entity) :
    ∃ moved, (LibraryModel.ofProjects rootType store (project :: libraries)).hierarchy.entity?
        (shift (store.declarationsOf [project]).length ref) = some moved ∧
      moved.name = entity.name ∧ moved.kind = entity.kind ∧ moved.id = entity.id ∧
        moved.parents =
          entity.parents.map (shift (store.declarationsOf [project]).length) := by
  have hflat : ∀ slot, (LibraryModel.ofProjects rootType store
      (project :: libraries)).hierarchy.entity? (.library slot) =
        (((store.declarationsOf (project :: libraries))[slot]?).map (·.entity .library)).map
          (·.addParents ((project :: libraries).flatMap fun owner =>
            parentsIn slot (tableEdges store (project :: libraries) owner))) :=
    Draft.getElem?_fill store (project :: libraries)
  have hinj := shift_injective (store.declarationsOf [project]).length
  cases ref with
  | project slot =>
    rw [h.entity?_project] at hentity
    cases hrow : (store.declarationsOf [project])[slot]? with
    | none =>
      rw [hrow] at hentity
      cases hentity
    | some row =>
      rw [hrow] at hentity
      cases hentity
      have hslot := (List.getElem?_eq_some_iff.1 hrow).1
      rw [shift, if_pos hslot, hflat, declarationsOf_cons store project libraries,
        List.getElem?_append_left hslot, hrow, parents_project hstore hlayers hslot]
      exact ⟨_, rfl, moved_entity hinj .internal row _⟩
  | library slot =>
    rw [h.entity?_library] at hentity
    cases hrow : (store.declarationsOf libraries)[slot]? with
    | none =>
      rw [hrow] at hentity
      cases hentity
    | some row =>
      rw [hrow] at hentity
      cases hentity
      rw [shift, hflat, declarationsOf_cons store project libraries,
        List.getElem?_append_right (Nat.le_add_right _ _),
        Nat.add_sub_cancel_left, hrow, parents_library hstore hlayers]
      exact ⟨_, rfl, moved_entity hinj .library row _⟩

/-- The two layers stand in the one table, shifted. -/
theorem relocates (h : Overlaid rootType store project libraries model) (hstore : store.Sound)
    (hlayers : Layered store project libraries) (hfresh : model.Fresh) :
    Hierarchy.Relocates (shift (store.declarationsOf [project]).length) model.hierarchy
      (LibraryModel.ofProjects rootType store (project :: libraries)).hierarchy where
  injective := shift_injective _
  entity ref entity hentity := by
    rw [ProjectModel.entity?_hierarchy] at hentity
    obtain ⟨moved, hmoved, hname, hkind, -, hparents⟩ := h.entity?_flat hstore hlayers hentity
    exact ⟨moved, hmoved, hname, hkind, hparents⟩
  closed ref entity hentity parent hparent := by
    rw [ProjectModel.entity?_hierarchy] at hentity ⊢
    exact hfresh.closed hentity parent hparent
  declared name := by
    have hflat : (LibraryModel.ofProjects rootType store (project :: libraries)).Sound :=
      LibraryModel.inherit_foldl_sound store _
        (LibraryModel.declare_foldl_sound store _ Table.Sound.empty.trackIds)
    show ((LibraryModel.ofProjects rootType store
      (project :: libraries)).draft.table.declaredSlot? name).map EntityRef.library =
        (model.declared? name).map _
    rw [hflat.declaredSlot?_eq, hfresh.declared?_eq, ← h.find?_flat]
    rfl

/-- Both ways of dispatch take the same branch. -/
theorem dispatch_flat (h : Overlaid rootType store project libraries model)
    (hstore : store.Sound) (hlayers : Layered store project libraries) (hfresh : model.Fresh)
    {name : String} {ref : Name.MemberRef} {receiver : EntityRef}
    (href : Name.MemberRef.ofName? name = some ref)
    (hreceiver : model.find? ref.receiver = some receiver)
    (hfree : model.findAny? name = none) :
    ((LibraryModel.ofProjects rootType store (project :: libraries)).dispatch name).binding =
      ((model.dispatch name).binding).map
        (Binding.move (shift (store.declarationsOf [project]).length)) := by
  have hnone : (LibraryModel.ofProjects rootType store (project :: libraries)).find? name =
      none := by
    rw [h.find?_flat, hfree]
    rfl
  have hknown : (LibraryModel.ofProjects rootType store (project :: libraries)).find?
      ref.receiver = some (shift (store.declarationsOf [project]).length receiver) := by
    rw [h.find?_flat, ProjectModel.findAny?, hreceiver]
    rfl
  have hrelocates := h.relocates hstore hlayers hfresh
  unfold LibraryModel.dispatch ProjectModel.dispatch
  simp only [hnone, href, hknown, hreceiver]
  cases ref.isConstructorOrInitializer with
  | true => rfl
  | false =>
    cases Name.isArray ref.receiver with
    | true =>
      have hroot : (LibraryModel.ofProjects rootType store (project :: libraries)).rootType =
          rootType := rfl
      simp only [Bool.false_eq_true, if_false, if_true, h.find?_flat, h.rootType,
        hfresh.declared?_eq, hroot]
      cases model.findAny? (Name.memberName rootType ref.member) <;> rfl
    | false =>
      simp only [Bool.false_eq_true, if_false]
      obtain ⟨slot, hslot, heq⟩ := Option.map_eq_some_iff.1 hreceiver
      subst heq
      have hlt := hfresh.table.slot_lt _ slot hslot
      have hvisible : (model.hierarchy.entity? (.project slot)).isSome := by
        have hget := Array.getElem?_eq_getElem hlt
        exact Option.isSome_iff_exists.2 ⟨_, hget⟩
      exact hrelocates.resolve hvisible name ref

end Overlaid

end Layers

/-! ## Answers -/

/-- Two references lead to entities with one id. -/
def SameEntity (overlay : ProjectModel) (flat : LibraryModel) (target other : EntityRef) : Prop :=
  ∃ entity moved, overlay.entity? target = some entity ∧ flat.entity? other = some moved ∧
    moved.id = entity.id

/-- The answers of two models come to the same; only a project model has placeholders. -/
inductive Agree (overlay : ProjectModel) (flat : LibraryModel) : Binding → Option Binding → Prop
  | resolved {target other} : SameEntity overlay flat target other →
      Agree overlay flat (.resolved target) (some (.resolved other))
  | ambiguous {targets others} : List.Forall₂ (SameEntity overlay flat) targets others →
      Agree overlay flat (.ambiguous targets) (some (.ambiguous others))
  | unresolved {target} : Agree overlay flat (.unresolved target) none

theorem Overlaid.sameEntity {rootType : String} {store : Store} {project : ProjectId}
    {libraries : List ProjectId} {model : ProjectModel}
    (h : Overlaid rootType store project libraries model) (hstore : store.Sound)
    (hlayers : Layered store project libraries) {target : EntityRef}
    (htarget : (model.entity? target).isSome) :
    SameEntity model (.ofProjects rootType store (project :: libraries)) target
      (shift (store.declarationsOf [project]).length target) := by
  obtain ⟨entity, hentity⟩ := Option.isSome_iff_exists.1 htarget
  obtain ⟨moved, hmoved, -, -, hid, -⟩ := h.entity?_flat hstore hlayers hentity
  rw [LibraryModel.entity?_hierarchy] at hmoved
  exact ⟨entity, moved, hentity, hmoved, hid⟩

/-- Remembering an answer moves no entity. -/
theorem SameEntity.remembering {state : LookupState} {flat : LibraryModel}
    {target other : EntityRef} (h : SameEntity state.model flat target other)
    (anomaly : Option Anomaly) (name : String) (binding : Binding) :
    SameEntity ((state.noting anomaly).remembering name binding).model flat target other := by
  obtain ⟨entity, moved, hentity, hmoved, hid⟩ := h
  refine ⟨entity, moved, ?_, hmoved, hid⟩
  cases target <;> exact hentity

theorem Agree.remembering {state : LookupState} {flat : LibraryModel} {answer : Binding}
    {other : Option Binding} (h : Agree state.model flat answer other)
    (anomaly : Option Anomaly) (name : String) (binding : Binding) :
    Agree ((state.noting anomaly).remembering name binding).model flat answer other := by
  cases h with
  | resolved hsame => exact .resolved (hsame.remembering anomaly name binding)
  | ambiguous hsame =>
    exact .ambiguous (hsame.imp fun _ _ hsame => hsame.remembering anomaly name binding)
  | unresolved => exact .unresolved

/-- An answer agrees with itself, moved, if its targets can be seen and moving keeps them. -/
theorem Agree.of_move {overlay : ProjectModel} {flat : LibraryModel}
    {move : EntityRef → EntityRef}
    (hsame : ∀ target, (overlay.entity? target).isSome →
      SameEntity overlay flat target (move target)) {binding : Binding}
    (hdecided : binding.status ≠ .unresolved)
    (hvisible : ∀ target ∈ binding.targets, (overlay.entity? target).isSome) :
    Agree overlay flat binding (some (binding.move move)) := by
  cases binding with
  | resolved target => exact .resolved (hsame target (hvisible target (List.mem_singleton_self _)))
  | unresolved target => exact absurd rfl hdecided
  | ambiguous targets =>
    refine .ambiguous ?_
    rw [List.forall₂_map_right_iff, List.forall₂_same]
    exact fun target htarget => hsame target (hvisible target htarget)

/-- Of a member of the project's own types, the first answer of a project model on top of a
library model and the answer of one library model of the project and the libraries agree: both
resolve it to one entity, both leave it open between the same entities in the same order, or the
first gives a placeholder where the second gives nothing. An error means that the placeholder
cannot be had. -/
theorem overlay_agrees_with_flat {store : Store} {project : ProjectId}
    {libraries : List ProjectId} (hstore : store.Reached)
    (hlayers : Layered store project libraries) {rootType : String}
    {flat library : LibraryModel} {overlay : ProjectModel} {soleHolder : Bool}
    {desk₁ desk₂ desk₃ desk₁' desk₂' desk₃' : Desk} (hdesk₁ : desk₁.corpus.store = store)
    (hdesk₂ : desk₂.corpus.store = store) (hdesk₃ : desk₃.corpus.store = store)
    (hflat : ((LibraryModel.empty .virtual).withRootType rootType).loaded (project :: libraries)
      desk₁ = .ok flat desk₁')
    (hlibrary : ((LibraryModel.empty .virtual).withRootType rootType).loaded libraries desk₂ =
      .ok library desk₂')
    (hoverlay : ProjectModel.buildVirtual project library soleHolder desk₃ = .ok overlay desk₃')
    {name : String} {ref : Name.MemberRef} (href : Name.MemberRef.ofName? name = some ref)
    (hreceiver : overlay.find? ref.receiver ≠ none) (hname : Name.isCompoundType name = false)
    {corpus : Access} (hcorpus : corpus.store.Reached) (cache : PlaceholderCache) :
    match ProjectModel.getVirtualEntity name { corpus, cache, model := overlay } with
    | .ok binding after => Agree after.model flat binding (flat.dispatch name).binding
    | .error err _ => (flat.dispatch name).binding = none ∧
        ∃ last, PlaceholderCache.fetch name (cache, corpus) = .error err last := by
  have hbuilt : overlay.Built := by
    have hreached := LibraryModel.reached_of_loaded (.withRootType rootType (.empty .virtual))
      hlibrary
    exact ⟨.virtual, project, library, soleHolder, desk₃, desk₃', hreached, hoverlay⟩
  have hfresh := hbuilt.fresh
  have hready := hfresh.ready hcorpus cache
  have hmemo : overlay.memoized? name = none := hfresh.memoized?_eq_none name
  rw [LibraryModel.eq_ofProjects_of_loaded hlibrary, hdesk₂, ← hdesk₃] at hoverlay
  have hoverlaid := overlaid_of_build hoverlay
  rw [hdesk₃] at hoverlaid
  obtain ⟨receiver, hreceiver⟩ := Option.ne_none_iff_exists'.1 hreceiver
  have hflat := LibraryModel.eq_ofProjects_of_loaded hflat
  rw [hdesk₁] at hflat
  have hsame : ∀ target, (overlay.entity? target).isSome → SameEntity overlay flat target
      (shift (store.declarationsOf [project]).length target) := by
    intro target htarget
    rw [hflat]
    exact hoverlaid.sameEntity hstore.sound hlayers htarget
  cases hany : overlay.findAny? name with
  | some target =>
    have hfind : flat.find? name =
        some (shift (store.declarationsOf [project]).length target) := by
      rw [hflat, hoverlaid.find?_flat, hany, Option.map_some]
    rw [ProjectModel.getVirtualEntity_found hmemo hany]
    simp only [LibraryModel.dispatch, hfind]
    have hresolved : (Binding.resolved target).status ≠ .unresolved := by
      intro hstatus
      cases hstatus
    exact .of_move hsame hresolved (hready.visible_findAny hany)
  | none =>
    have hdispatch := hoverlaid.dispatch_flat hstore.sound hlayers hfresh href hreceiver hany
    rw [← hflat] at hdispatch
    cases hbinding : (overlay.dispatch name).binding with
    | some binding =>
      rw [hbinding, Option.map_some] at hdispatch
      have hagree : Agree overlay flat binding (some (binding.move
          (shift (store.declarationsOf [project]).length))) :=
        .of_move hsame (ProjectModel.dispatch_targets hbinding).1 (hready.visible_dispatch hbinding)
      rw [@ProjectModel.getVirtualEntity_dispatched name { corpus, cache, model := overlay } hmemo
        hany hname binding hbinding]
      simp only [hdispatch]
      exact hagree.remembering _ name binding
    | none =>
      rw [hbinding, Option.map_none] at hdispatch
      rw [@ProjectModel.getVirtualEntity_open name { corpus, cache, model := overlay } hmemo hany
        hname hbinding]
      cases hrun : Lookup.unknown name
          (LookupState.noting { corpus, cache, model := overlay }
            (overlay.dispatch name).anomaly) with
      | ok target after =>
        simp only [hdispatch]
        exact .unresolved
      | error err after => exact ⟨hdispatch, Lookup.fetch_of_unknown_error hrun⟩

/-- A project with a class `a.A` that extends the library class `l.B`. -/
def layeredStore : Store :=
  (Store.ofRows
    [{ project := ⟨1⟩, name := "a.A", kind := .class, id := ⟨1⟩ },
     { project := ⟨10⟩, name := "l.B", kind := .class, id := ⟨2⟩ },
     { project := ⟨10⟩, name := "l.B.m", kind := .method, params := some "()", id := ⟨3⟩ }]).relate
    { kind := .extends, left := ⟨1⟩, right := ⟨2⟩, project := ⟨1⟩ }

/-- The method that `a.A` inherits is the library's in one table and in two. -/
theorem inherited_method_agrees :
    let desk : Desk := { corpus := { store := layeredStore } }
    layeredStore.Reached ∧ Layered layeredStore ⟨1⟩ [⟨10⟩] ∧
      ∃ flat library overlay after desk₁ desk₂ desk₃,
        ((LibraryModel.empty .virtual).withRootType "Root").loaded [⟨1⟩, ⟨10⟩] desk =
          .ok flat desk₁ ∧
        ((LibraryModel.empty .virtual).withRootType "Root").loaded [⟨10⟩] desk =
          .ok library desk₂ ∧
        ProjectModel.buildVirtual ⟨1⟩ library true desk = .ok overlay desk₃ ∧
        ProjectModel.getVirtualEntity "a.A.m()"
            { corpus := desk.corpus, cache := { owner := ⟨9⟩ }, model := overlay } =
          .ok (.resolved (.library 1)) after ∧
        Agree after.model flat (.resolved (.library 1)) (flat.dispatch "a.A.m()").binding := by
  intro desk
  have hreached : layeredStore.Reached := .relate _ (Store.reached_ofRows _)
  have hlayers : Layered layeredStore ⟨1⟩ [⟨10⟩] := by
    constructor <;> decide +kernel
  have hflat : succeeds (((LibraryModel.empty .virtual).withRootType "Root").loaded
      [⟨1⟩, ⟨10⟩] desk) = true := by decide +kernel
  have hlibrary : succeeds (((LibraryModel.empty .virtual).withRootType "Root").loaded
      [⟨10⟩] desk) = true := by decide +kernel
  have hoverlay : succeeds (ProjectModel.buildVirtual ⟨1⟩
      (.ofProjects "Root" layeredStore [⟨10⟩]) true desk) = true := by decide +kernel
  obtain ⟨flat, desk₁, hflat⟩ := exists_ok_of_succeeds hflat
  obtain ⟨library, desk₂, hlibrary⟩ := exists_ok_of_succeeds hlibrary
  obtain ⟨overlay, desk₃, hoverlay⟩ := exists_ok_of_succeeds hoverlay
  obtain ⟨heq, -⟩ := ProjectModel.buildVirtual_eq_ok hoverlay
  have hreceiver : overlay.find? "a.A" ≠ none := by
    rw [heq]
    decide +kernel
  have hanswer : (match ProjectModel.getVirtualEntity "a.A.m()"
        { corpus := desk.corpus, cache := { owner := ⟨9⟩ }, model := overlay } with
      | .ok binding _ => some binding
      | .error _ _ => none) = some (.resolved (.library 1)) := by
    rw [heq]
    decide +kernel
  have hdesk : desk.corpus.store = layeredStore := by with_reducible rfl
  have hsame : library = .ofProjects "Root" layeredStore [⟨10⟩] := by
    rw [LibraryModel.eq_ofProjects_of_loaded hlibrary]
  rw [← hsame] at hoverlay
  have href : Name.MemberRef.ofName? "a.A.m()" = some { receiver := "a.A", member := "m()" } := by
    decide +kernel
  have hcorpus : desk.corpus.store.Reached := by
    rw [hdesk]
    exact hreached
  have hname : Name.isCompoundType "a.A.m()" = false := by decide +kernel
  have hagree := overlay_agrees_with_flat hreached hlayers hdesk hdesk hdesk hflat hlibrary hoverlay
    href hreceiver hname hcorpus { owner := ⟨9⟩ }
  cases hrun : ProjectModel.getVirtualEntity "a.A.m()"
      { corpus := desk.corpus, cache := { owner := ⟨9⟩ }, model := overlay } with
  | error err after =>
    rw [hrun] at hanswer
    cases hanswer
  | ok binding after =>
    rw [hrun] at hanswer hagree
    cases hanswer
    exact ⟨hreached, hlayers, flat, library, overlay, after, desk₁, desk₂, desk₃, hflat, hlibrary,
      hoverlay, hrun, hagree⟩

end Referent
