import Referent.Proofs.Wiring

/-!
# The anomalies of loading

What loading records is known from the rows. A name that is taken when its turn comes is a clash,
whoever took it (`clashes`); an inheritance row may miss its child among the types that were
loaded, or its parent there and elsewhere (`RelationRow.missingEnd?`). Loading projects on top of
a table records exactly these, clashes first (`flaws`): it is so for libraries
(`Draft.toList_fill`) and for one project (`ProjectModel.toList_contents`).
-/

namespace Referent

/-! ## Clashes -/

/-- The anomalies of claiming names one after the other: one for each name that is taken when its
turn comes. -/
def clashes (taken : String → Bool) : List String → List Anomaly
  | [] => []
  | name :: names =>
    (if taken name then [.duplicateName name] else []) ++
      clashes (fun other => taken other || name == other) names

/-- What was claimed before is taken for the names that follow. -/
theorem clashes_append (taken : String → Bool) (names more : List String) :
    clashes taken (names ++ more) =
      clashes taken names ++ clashes (fun other => taken other || names.contains other) more := by
  induction names generalizing taken with
  | nil => simp [clashes]
  | cons name names ih =>
    have htaken : (fun other => (taken other || name == other) || names.contains other) =
        fun other => taken other || (name :: names).contains other := by
      funext other
      rw [List.contains_cons, Bool.or_assoc, BEq.comm]
    rw [List.cons_append, clashes, clashes, ih, htaken, List.append_assoc]

/-- Whether a name denotes something. -/
def Table.binds (table : Table) (name : String) : Bool :=
  (table.slot? name).isSome

namespace Draft

theorem binds_claim (draft : Draft) (slot : Nat) (name : String) :
    (draft.claim slot name).table.binds =
      fun other => draft.table.binds other || name == other := by
  funext other
  rw [Table.binds, slot?_claim, Option.isSome_or]
  by_cases h : name = other
  · simp [h]
  · simp [h, Table.binds]

theorem toList_claim (draft : Draft) (slot : Nat) (name : String) :
    (draft.claim slot name).diagnostics.toList = draft.diagnostics.toList ++
      if draft.table.binds name then [.duplicateName name] else [] := by
  unfold claim
  split
  · rename_i found hfound
    simp [Table.binds, hfound, Diagnostics.record, Diagnostics.toList]
  · rename_i hfree
    simp [Table.binds, hfree]

theorem toList_claims (draft : Draft) (slot : Nat) (names : List String) :
    (names.foldl (claim · slot) draft).diagnostics.toList =
      draft.diagnostics.toList ++ clashes draft.table.binds names := by
  induction names generalizing draft with
  | nil => simp [clashes]
  | cons name names ih =>
    rw [List.foldl_cons, ih, toList_claim, binds_claim, clashes, List.append_assoc]

theorem binds_addRow (origin : Origin) (draft : Draft) (row : EntityRow) :
    (draft.addRow origin row).table.binds =
      fun other => draft.table.binds other || row.claims.contains other := by
  funext other
  rw [Table.binds, slot?_addRow, Option.isSome_or]
  by_cases h : other ∈ row.claims
  · simp [h]
  · simp [h, Table.binds]

theorem toList_addRow (origin : Origin) (draft : Draft) (row : EntityRow) :
    (draft.addRow origin row).diagnostics.toList =
      draft.diagnostics.toList ++ clashes draft.table.binds row.claims := by
  -- The row takes its slot before it claims names, and enters the index after.
  have hclaims := toList_claims
    { draft with table := draft.table.allocate (row.entity origin) } draft.table.size row.claims
  unfold addRow add
  split <;> exact hclaims

/-- Declarations record their clashes, and nothing else. -/
theorem toList_addRows (origin : Origin) (draft : Draft) (rows : List EntityRow) :
    (rows.foldl (addRow origin) draft).diagnostics.toList =
      draft.diagnostics.toList ++ clashes draft.table.binds (rows.flatMap EntityRow.claims) := by
  induction rows generalizing draft with
  | nil => simp [clashes]
  | cons row rows ih =>
    rw [List.foldl_cons, ih, toList_addRow, binds_addRow, List.flatMap_cons, clashes_append,
      List.append_assoc]

end Draft

/-! ## Missing ends -/

/-- The anomalies among edges. -/
def missingIn (edges : List (Except Anomaly (Nat × EntityRef))) : List Anomaly :=
  edges.filterMap fun
    | .ok _ => none
    | .error anomaly => some anomaly

theorem missingIn_map (edges : List (Except Anomaly (Nat × EntityRef)))
    (move : Nat × EntityRef → Nat × EntityRef) :
    missingIn (edges.map (Except.map move)) = missingIn edges := by
  rw [missingIn, missingIn, List.filterMap_map]
  congr 1
  funext edge
  cases edge <;> rfl

/-- The end that an inheritance row misses, if it misses one: its child has to be known, and its
parent, or the base type of its parent, has to be known or elsewhere. -/
def RelationRow.missingEnd? (known elsewhere : EntityId → Bool)
    (bases : Std.TreeMap EntityId EntityId) (row : RelationRow) : Option Anomaly :=
  let right := bases.getD row.right row.right
  if known row.left then
    if known right || elsewhere right then none else some (.missingParent right)
  else some (.missingChild row.left)

/-- The ends that the inheritance rows of a project miss, in order. -/
def Store.missingEnds (store : Store) (known elsewhere : EntityId → Bool) (project : ProjectId) :
    List Anomaly :=
  (store.relationsOf project RelationKind.inheritance).filterMap
    (RelationRow.missingEnd? known elsewhere
      (baseTypes (store.relationsOf project [.hasBaseType])))

/-- The anomalies among the edges of a project are the ends that its rows miss. -/
theorem missingIn_edges (table : Table) (toRef : Nat → EntityRef)
    (elsewhere : EntityId → Option EntityRef) (store : Store) (project : ProjectId) :
    missingIn (table.edges toRef elsewhere store project) =
      store.missingEnds (fun id => (table.typeSlot? id).isSome) (fun id => (elsewhere id).isSome)
        project := by
  rw [missingIn, Table.edges, List.filterMap_map, Store.missingEnds]
  congr 1
  funext row
  generalize baseTypes (store.relationsOf project [.hasBaseType]) = bases
  rw [Function.comp_apply, Table.edge, RelationRow.missingEnd?]
  cases table.typeSlot? row.left with
  | none => simp
  | some child =>
    cases table.typeSlot? (bases.getD row.right row.right) with
    | some parent => simp
    | none => cases elsewhere (bases.getD row.right row.right) <;> simp

namespace Draft

theorem toList_wire (draft : Draft) (edges : List (Except Anomaly (Nat × EntityRef))) :
    (draft.wire edges).diagnostics.toList = draft.diagnostics.toList ++ missingIn edges := by
  induction edges generalizing draft with
  | nil => simp [wire, missingIn]
  | cons edge edges ih =>
    rw [wire, List.foldl_cons]
    refine (ih (draft.applyEdge edge)).trans ?_
    cases edge with
    | error anomaly => simp [applyEdge, missingIn, Diagnostics.record, Diagnostics.toList]
    | ok link => rfl

/-- Wiring records the anomalies of one project after the other. -/
theorem toList_inherit_foldl (toRef : Nat → EntityRef) (elsewhere : EntityId → Option EntityRef)
    (store : Store) (projects : List ProjectId) (draft : Draft) :
    (projects.foldl (inherit toRef elsewhere store) draft).diagnostics.toList =
      draft.diagnostics.toList ++ projects.flatMap fun project =>
        missingIn (draft.table.edges toRef elsewhere store project) := by
  induction projects generalizing draft with
  | nil => simp
  | cons project projects ih =>
    have hsame : (draft.inherit toRef elsewhere store project).table.edges = draft.table.edges :=
      Table.edges_congr (typeSlots_inherit toRef elsewhere store draft project)
    have hone : (draft.inherit toRef elsewhere store project).diagnostics.toList =
        draft.diagnostics.toList ++
          missingIn (draft.table.edges toRef elsewhere store project) := toList_wire draft _
    rw [List.foldl_cons, ih, hsame, hone, List.flatMap_cons, List.append_assoc]

end Draft

/-! ## Flaws of projects -/

/-- Whether an id is that of a type: one that a table tracks or one of the rows. -/
def Table.knows (table : Table) (rows : List EntityRow) (id : EntityId) : Bool :=
  rows.any (fun row => row.kind.isClassLike && row.id == id) || (table.typeSlot? id).isSome

/-- What is wrong with projects that are loaded in one go on top of a table: the clashes of their
declarations, and in virtual mode then the ends that their inheritance rows miss. -/
def flaws (mode : Mode) (store : Store) (projects : List ProjectId) (table : Table)
    (elsewhere : EntityId → Bool) : List Anomaly :=
  let rows := store.declarationsOf projects
  clashes table.binds (rows.flatMap EntityRow.claims) ++
    match mode with
    | .plain => []
    | .virtual => projects.flatMap (store.missingEnds (table.knows rows) elsewhere)

namespace Draft

/-- After the rows are added, the index leads from the ids that are known and from no others. -/
theorem isSome_typeSlot?_addRows (origin : Origin) (draft : Draft) (rows : List EntityRow)
    (htracks : draft.table.typeSlots.isSome) :
    (fun id => ((rows.foldl (addRow origin) draft).table.typeSlot? id).isSome) =
      draft.table.knows rows := by
  funext id
  rw [typeSlot?_addRows origin draft rows htracks, Option.isSome_or, Table.knows]
  congr 1
  rw [Bool.eq_iff_iff, classSlot?_isSome]
  simp

/-- Both passes over some projects record the flaws of the projects. -/
theorem toList_inherit_addRows (origin : Origin) (toRef : Nat → EntityRef)
    (elsewhere : EntityId → Option EntityRef) (store : Store) (projects : List ProjectId)
    {draft : Draft} (htracks : draft.table.typeSlots.isSome) :
    (projects.foldl (inherit toRef elsewhere store)
        ((store.declarationsOf projects).foldl (addRow origin) draft)).diagnostics.toList =
      draft.diagnostics.toList ++
        flaws .virtual store projects draft.table fun id => (elsewhere id).isSome := by
  rw [toList_inherit_foldl, toList_addRows, flaws, List.append_assoc]
  simp only [missingIn_edges, isSome_typeSlot?_addRows origin draft _ htracks]

/-- Loading libraries records their flaws. -/
theorem toList_fill {mode : Mode} {draft : Draft}
    (htracks : mode = .virtual → draft.table.typeSlots.isSome) (store : Store)
    (libraries : List ProjectId) : (draft.fill mode store libraries).diagnostics.toList =
      draft.diagnostics.toList ++ flaws mode store libraries draft.table fun _ => false := by
  unfold fill
  rw [declare_foldl]
  cases mode with
  | plain => rw [toList_addRows, flaws, List.append_nil]
  | «virtual» => exact toList_inherit_addRows .library .library _ store libraries (htracks rfl)

end Draft

/-- Building a project records its flaws. -/
theorem ProjectModel.toList_contents (mode : Mode) (store : Store) (library : LibraryModel)
    (project : ProjectId) : (contents mode store library project).diagnostics.toList =
      flaws mode store [project] {} fun id => (library.findById? id).isSome := by
  have hrows : store.declarationsOf [project] = store.entitiesOf project EntityKind.declared := by
    rw [Store.declarationsOf, List.flatMap_singleton]
  cases mode with
  | plain =>
    rw [contents, Draft.declare, ← hrows, Draft.toList_addRows, flaws, List.append_nil]
    rfl
  | «virtual» =>
    have htracks : ({ table := ({} : Table).trackIds } : Draft).table.typeSlots.isSome := rfl
    have hboth := Draft.toList_inherit_addRows .internal .project library.findById? store
      [project] htracks
    rw [hrows] at hboth
    refine hboth.trans ?_
    -- A table that tracks no ids knows as many as one that tracks none yet.
    have hknows : ({} : Table).trackIds.knows = ({} : Table).knows := by
      funext rows id
      simp [Table.knows, Table.typeSlot?, Table.trackIds]
    rw [flaws, flaws, hknows]
    rfl

end Referent
