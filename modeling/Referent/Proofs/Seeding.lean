import Referent.Proofs.Models
import Referent.Proofs.Wiring

/-!
# A core first or everything at once

A library model may be loaded in one go or in two: the core first, and the other libraries on top
of the finished core. The two ways interleave declaring and wiring differently. In one go the rows
of the core are wired when everything is declared, in two when only the core is. That makes no
difference to a core that stands alone (`Standalone`), since none of its edges has an end among
the types that come later (`edges_declared`). New declarations stand behind the wired ones and take
the slots, names and ids that they would take anyway (`Table.SameIndexes`), so the two ways make
the same table, and they succeed and fail with the same reads (`seeding_agrees`).
-/

namespace Referent

/-- The inheritance that is filed under the core neither begins nor ends at types of the
libraries. -/
structure Standalone (store : Store) (core : ProjectId) (libraries : List ProjectId) : Prop where
  left : ∀ row ∈ store.relationsOf core RelationKind.inheritance,
    ∀ entity ∈ store.declarationsOf libraries, entity.kind.isClassLike = true →
      entity.id ≠ row.left
  /-- The right end is the base type of a parameterized type. -/
  right : ∀ row ∈ store.relationsOf core RelationKind.inheritance,
    ∀ entity ∈ store.declarationsOf libraries, entity.kind.isClassLike = true →
      entity.id ≠ (baseTypes (store.relationsOf core [.hasBaseType])).getD row.right row.right

instance (store : Store) (core : ProjectId) (libraries : List ProjectId) :
    Decidable (Standalone store core libraries) :=
  decidable_of_iff
    ((∀ row ∈ store.relationsOf core RelationKind.inheritance,
        ∀ entity ∈ store.declarationsOf libraries, entity.kind.isClassLike = true →
          entity.id ≠ row.left) ∧
      ∀ row ∈ store.relationsOf core RelationKind.inheritance,
        ∀ entity ∈ store.declarationsOf libraries, entity.kind.isClassLike = true →
          entity.id ≠
            (baseTypes (store.relationsOf core [.hasBaseType])).getD row.right row.right)
    ⟨fun h => ⟨h.1, h.2⟩, fun h => ⟨h.left, h.right⟩⟩

/-! ## Tables that lead alike -/

namespace Table

/-- Two tables of one size in which names and ids lead to the same slots. -/
structure SameIndexes (table other : Table) : Prop where
  size : table.size = other.size
  slots : table.slots = other.slots
  typeSlots : table.typeSlots = other.typeSlots

variable {table other : Table}

/-- Tables that lead alike differ in their entities at most. -/
theorem SameIndexes.eq_of_arena (h : table.SameIndexes other)
    (harena : ∀ slot : Nat, table.arena[slot]? = other.arena[slot]?) : table = other := by
  have hsame : table.arena = other.arena := Array.ext_getElem? harena
  cases table
  cases other
  simp only at hsame
  rw [Table.mk.injEq]
  exact ⟨hsame, h.slots, h.typeSlots⟩

/-- Tracking ids that are tracked changes nothing. -/
theorem trackIds_of_tracked (h : table.typeSlots.isSome) : table.trackIds = table := by
  obtain ⟨typeSlots, htypeSlots⟩ := Option.isSome_iff_exists.1 h
  cases table
  simp only at htypeSlots
  simp [trackIds, htypeSlots]

end Table

namespace Draft

variable {draft other : Draft} {store : Store} {core : ProjectId} {libraries : List ProjectId}

theorem sameIndexes_wire (draft : Draft) (edges : List (Except Anomaly (Nat × EntityRef))) :
    (draft.wire edges).table.SameIndexes draft.table where
  size := size_wire draft edges
  slots := by
    induction edges generalizing draft with
    | nil => rfl
    | cons edge edges ih =>
      rw [wire, List.foldl_cons]
      refine (ih (draft.applyEdge edge)).trans ?_
      cases edge <;> rfl
  typeSlots := typeSlots_wire draft edges

theorem sameIndexes_claim (h : draft.table.SameIndexes other.table) (slot : Nat) (name : String) :
    (draft.claim slot name).table.SameIndexes (other.claim slot name).table := by
  have hslot : draft.table.slot? name = other.table.slot? name := by
    rw [Table.slot?, Table.slot?, h.slots]
  unfold claim
  rw [hslot]
  cases other.table.slot? name with
  | some taken => exact h
  | none =>
    refine ⟨h.size, ?_, h.typeSlots⟩
    show draft.table.slots.insert name slot = other.table.slots.insert name slot
    rw [h.slots]

theorem sameIndexes_claims (h : draft.table.SameIndexes other.table) (slot : Nat)
    (names : List String) :
    (names.foldl (claim · slot) draft).table.SameIndexes
      (names.foldl (claim · slot) other).table := by
  induction names generalizing draft other with
  | nil => exact h
  | cons name names ih => exact ih (sameIndexes_claim h slot name)

/-- A row takes the same slot, names and id in tables that lead alike. -/
theorem sameIndexes_addRow (h : draft.table.SameIndexes other.table) (origin : Origin)
    (row : EntityRow) :
    (draft.addRow origin row).table.SameIndexes (other.addRow origin row).table := by
  have hallocated : (draft.table.allocate (row.entity origin)).SameIndexes
      (other.table.allocate (row.entity origin)) := by
    refine ⟨?_, h.slots, h.typeSlots⟩
    have hsize := h.size
    simp only [Table.size, Table.allocate, Array.size_push] at hsize ⊢
    omega
  have hclaimed := @sameIndexes_claims
    { draft with table := draft.table.allocate (row.entity origin) }
    { other with table := other.table.allocate (row.entity origin) }
    hallocated draft.table.size row.claims
  unfold addRow add
  rw [← h.size]
  by_cases hclass : row.kind.isClassLike = true
  · simp only [hclass, if_true]
    refine ⟨hclaimed.size, hclaimed.slots, ?_⟩
    exact congrArg (Option.map (·.insert row.id draft.table.size)) hclaimed.typeSlots
  · simp only [hclass]
    exact hclaimed

theorem sameIndexes_declare (h : draft.table.SameIndexes other.table) (store : Store)
    (projects : List ProjectId) :
    (projects.foldl (declare .library store) draft).table.SameIndexes
      (projects.foldl (declare .library store) other).table := by
  rw [declare_foldl, declare_foldl]
  generalize store.declarationsOf projects = rows
  induction rows generalizing draft other with
  | nil => exact h
  | cons row rows ih => exact ih (sameIndexes_addRow h .library row)

theorem sameIndexes_inherit_foldl (draft : Draft) (store : Store) (projects : List ProjectId) :
    (projects.foldl (inherit .library (fun _ => none) store) draft).table.SameIndexes
      draft.table := by
  induction projects generalizing draft with
  | nil => exact ⟨rfl, rfl, rfl⟩
  | cons project projects ih =>
    have hrest := ih (draft.inherit .library (fun _ => none) store project)
    have hfirst := sameIndexes_wire draft (draft.table.edges .library (fun _ => none) store project)
    exact ⟨hrest.size.trans hfirst.size, hrest.slots.trans hfirst.slots,
      hrest.typeSlots.trans hfirst.typeSlots⟩

/-! ## The edges of the core -/

/-- What the inheritance of a core means is settled once the core is declared. -/
theorem edges_declared (h : Standalone store core libraries)
    (htracks : draft.table.typeSlots.isSome) :
    (libraries.foldl (declare .library store) draft).table.edges .library (fun _ => none) store
        core =
      draft.table.edges .library (fun _ => none) store core := by
  have hkept {id : EntityId}
      (hid : ∀ entity ∈ store.declarationsOf libraries, entity.kind.isClassLike = true →
        entity.id ≠ id) :
      (libraries.foldl (declare .library store) draft).table.typeSlot? id =
        draft.table.typeSlot? id := by
    rw [declare_foldl, typeSlot?_addRows _ _ _ htracks, classSlot?_eq_none hid, Option.none_or]
  apply List.map_congr_left
  intro row hrow
  unfold Table.edge
  simp only [hkept (h.left row hrow), hkept (h.right row hrow)]

/-- Edges give parents to slots of the table that they are read in, and to no others. -/
theorem parentsIn_edges_behind {toRef : Nat → EntityRef} {elsewhere : EntityId → Option EntityRef}
    {outside : EntityRef → Prop} (h : draft.table.Sound toRef outside) (project : ProjectId)
    {slot : Nat} (hslot : draft.table.size ≤ slot) :
    parentsIn slot (draft.table.edges toRef elsewhere store project) = [] := by
  apply parentsIn_eq_nil
  intro child parent hmem heq
  obtain ⟨row, -, hedge⟩ := List.mem_map.1 hmem
  have hlt := h.typeSlot_lt row.left child (child_of_edge hedge)
  omega

/-! ## Declaring behind wired types -/

/-- Other libraries that are loaded on top of a wired core make the table that they make when the
core is wired with them. -/
theorem table_fill_of_wired (h : Standalone store core libraries)
    (hsound : draft.table.Sound .library fun _ => False)
    (htracks : draft.table.typeSlots.isSome) (diagnostics : Diagnostics) :
    (fill .virtual store libraries
        { table := (draft.inherit .library (fun _ => none) store core).table
          diagnostics }).table =
      ((core :: libraries).foldl (inherit .library (fun _ => none) store)
        (libraries.foldl (declare .library store) draft)).table := by
  let wired : Draft :=
    { table := (draft.inherit .library (fun _ => none) store core).table, diagnostics }
  let whole := libraries.foldl (declare .library store) draft
  let behind := libraries.foldl (declare .library store) wired
  have hwired : wired.table.SameIndexes draft.table := sameIndexes_wire draft _
  have hbehind : behind.table.SameIndexes whole.table := sameIndexes_declare hwired store libraries
  have hleft := sameIndexes_inherit_foldl behind store libraries
  have hright := sameIndexes_inherit_foldl whole store (core :: libraries)
  refine Table.SameIndexes.eq_of_arena ⟨?_, ?_, ?_⟩ ?_
  · exact hleft.size.trans (hbehind.size.trans hright.size.symm)
  · exact hleft.slots.trans (hbehind.slots.trans hright.slots.symm)
  · exact hleft.typeSlots.trans (hbehind.typeSlots.trans hright.typeSlots.symm)
  · intro slot
    show (libraries.foldl (inherit .library (fun _ => none) store) behind).table.arena[slot]? = _
    have hedges : behind.table.edges = whole.table.edges := Table.edges_congr hbehind.typeSlots
    have hcore : whole.table.edges .library (fun _ => none) store core =
        draft.table.edges .library (fun _ => none) store core := edges_declared h htracks
    rw [getElem?_inherit_foldl, getElem?_inherit_foldl, List.flatMap_cons, hedges, hcore]
    -- The wiring of the core reaches the slots of the core, and the others stand behind them.
    have hslot : behind.table.arena[slot]? = (whole.table.arena[slot]?).map (·.addParents
        (parentsIn slot (draft.table.edges .library (fun _ => none) store core))) := by
      show (libraries.foldl (declare .library store) wired).table.arena[slot]? =
        ((libraries.foldl (declare .library store) draft).table.arena[slot]?).map _
      rw [declare_foldl, declare_foldl, getElem?_addRows, getElem?_addRows, hwired.size]
      by_cases hlt : slot < draft.table.size
      · rw [if_pos hlt, if_pos hlt]
        exact getElem?_inherit .library (fun _ => none) store draft core slot
      · rw [if_neg hlt, if_neg hlt, parentsIn_edges_behind hsound core (Nat.le_of_not_lt hlt)]
        exact (congrFun Option.map_id _).symm
    rw [hslot, Option.map_map]
    congr 1
    funext entity
    exact (entity.addParents_append _ _).symm

end Draft

namespace LibraryModel

/-! ## Seeding -/

/-- Load a core, and other libraries on top of the finished core. -/
def loadedInTwo (core : ProjectId) (libraries : List ProjectId) :
    EStateM ModelError Desk LibraryModel := do
  let baseline ← (empty .virtual).loaded [core]
  ((empty .virtual).withCore baseline).loaded libraries

/-- Loading in two goes and in one makes the same reads in the same order. -/
theorem succeeds_loadedInTwo (core : ProjectId) (libraries : List ProjectId) (desk : Desk) :
    succeeds (loadedInTwo core libraries desk) =
      succeeds ((empty .virtual).loaded (core :: libraries) desk) := by
  have hreads : desk.corpus.Allows (core :: libraries).length
        (relationReads .virtual (core :: libraries)) ↔
      desk.corpus.Allows 1 2 ∧
        (desk.corpus.afterReading 1 2).Allows libraries.length
          (relationReads .virtual libraries) := by
    rw [← Access.allows_add]
    simp only [List.length_cons, relationReads]
    rw [Nat.add_one_mul, Nat.add_comm libraries.length, Nat.add_comm _ 2]
  have hcore := loaded_spends (empty .virtual) [core] desk
  rw [Bool.eq_iff_iff, succeeds_loaded]
  refine Iff.trans ?_ hreads.symm
  unfold loadedInTwo
  rw [bind_apply]
  cases hrun : (empty .virtual).loaded [core] desk with
  | error err mid =>
    rw [hrun] at hcore
    constructor
    · intro h
      cases h
    · intro h
      exact absurd h.1 hcore
  | ok baseline mid =>
    rw [hrun] at hcore
    obtain ⟨hallows, hmid⟩ := hcore
    show succeeds (((empty .virtual).withCore baseline).loaded libraries mid) = true ↔ _
    rw [succeeds_loaded, hmid]
    exact ⟨fun h => ⟨hallows, h⟩, And.right⟩

/-- A virtual library model that is seeded from the finished model of a core and then loaded with
other libraries has the table of the model that is loaded with the core and the libraries at once:
the same entities with the same supertypes in the same order, and the same index by name and by
id. The two ways also succeed alike, whichever reads fail. -/
theorem seeding_agrees {store : Store} {core : ProjectId} {libraries : List ProjectId}
    (hcore : Standalone store core libraries) :
    (∀ desk, succeeds (loadedInTwo core libraries desk) =
      succeeds ((empty .virtual).loaded (core :: libraries) desk)) ∧
    ∀ {baseline seeded once : LibraryModel} {desk₁ desk₂ desk₃ desk₁' desk₂' desk₃' : Desk},
      desk₁.corpus.store = store → desk₂.corpus.store = store → desk₃.corpus.store = store →
      (empty .virtual).loaded [core] desk₁ = .ok baseline desk₁' →
      ((empty .virtual).withCore baseline).loaded libraries desk₂ = .ok seeded desk₂' →
      (empty .virtual).loaded (core :: libraries) desk₃ = .ok once desk₃' →
      seeded.draft.table = once.draft.table := by
  refine ⟨succeeds_loadedInTwo core libraries, ?_⟩
  intro baseline seeded once desk₁ desk₂ desk₃ desk₁' desk₂' desk₃' hdesk₁ hdesk₂ hdesk₃
    hbaseline hseeded honce
  obtain ⟨hbaseline, -⟩ := loaded_eq_ok hbaseline
  obtain ⟨hseeded, -⟩ := loaded_eq_ok hseeded
  obtain ⟨honce, -⟩ := loaded_eq_ok honce
  rw [hdesk₁] at hbaseline
  rw [hdesk₂] at hseeded
  rw [hdesk₃] at honce
  let declared := (empty .virtual).draft.declare .library store core
  have hsound : declared.table.Sound .library fun _ => False :=
    Draft.declare_sound (prepare_sound .empty .virtual) .library store core
  have htracks : declared.table.typeSlots.isSome := Draft.tracks_addRows .library _ _
  have htable : baseline.draft.table =
      (declared.inherit .library (fun _ => none) store core).table := by
    rw [hbaseline]
    rfl
  have hkept : baseline.draft.table.typeSlots.isSome := by
    rw [htable, Draft.typeSlots_inherit]
    exact htracks
  have hstart : ((empty .virtual).withCore baseline).draft =
      { table := (declared.inherit .library (fun _ => none) store core).table } := by
    rw [← htable]
    show ({ table := baseline.draft.table.trackIds } : Draft) = _
    rw [Table.trackIds_of_tracked hkept]
  rw [hseeded, honce, hstart]
  exact Draft.table_fill_of_wired hcore hsound htracks {}

/-- A core whose `a.Sub` extends its own `a.Base`. A library declares another `a.Base` that the one
of the core implements, and a `b.Leaf` that extends `a.Sub`. -/
def beneathStore : Store :=
  (((Store.ofRows
    [{ project := ⟨1⟩, name := "a.Base", kind := .class, id := ⟨1⟩ },
     { project := ⟨1⟩, name := "a.Sub", kind := .class, id := ⟨2⟩ },
     { project := ⟨10⟩, name := "a.Base", kind := .interface, id := ⟨3⟩ },
     { project := ⟨10⟩, name := "b.Leaf", kind := .class, id := ⟨4⟩ }]).relate
    { kind := .extends, left := ⟨2⟩, right := ⟨1⟩, project := ⟨1⟩ }).relate
    { kind := .implements, left := ⟨1⟩, right := ⟨3⟩, project := ⟨10⟩ }).relate
    { kind := .extends, left := ⟨4⟩, right := ⟨2⟩, project := ⟨10⟩ }

/-- The core keeps its names in both ways, and a type of the core that is wired already gets the
supertype that the library gives it. -/
theorem library_above_seeded_core :
    let desk : Desk := { corpus := { store := beneathStore } }
    Standalone beneathStore ⟨1⟩ [⟨10⟩] ∧ ∃ baseline seeded once desk₁ desk₂ desk₃,
      (empty .virtual).loaded [⟨1⟩] desk = .ok baseline desk₁ ∧
      ((empty .virtual).withCore baseline).loaded [⟨10⟩] desk₁ = .ok seeded desk₂ ∧
      (empty .virtual).loaded [⟨1⟩, ⟨10⟩] desk = .ok once desk₃ ∧
      seeded.draft.table = once.draft.table ∧
      once.draft.table.slot? "a.Base" = some 0 ∧
      once.draft.table.arena.toList.map (·.parents) =
        [[.library 2], [.library 0], [], [.library 1]] := by
  intro desk
  have hcore : Standalone beneathStore ⟨1⟩ [⟨10⟩] := by decide +kernel
  obtain ⟨hsucceeds, hsame⟩ := seeding_agrees hcore
  have hok : succeeds ((empty .virtual).loaded [⟨1⟩, ⟨10⟩] desk) = true := by decide +kernel
  have hok' := hok
  rw [← hsucceeds] at hok'
  obtain ⟨once, desk₃, honce⟩ := exists_ok_of_succeeds hok
  obtain ⟨seeded, desk₂, htwo⟩ := exists_ok_of_succeeds hok'
  obtain ⟨baseline, desk₁, hbaseline, hseeded⟩ := bind_eq_ok.1 htwo
  have hdesk₁ : desk₁.corpus.store = beneathStore := (loaded_eq_ok hbaseline).2
  have hshown : once.draft.table.slot? "a.Base" = some 0 ∧
      once.draft.table.arena.toList.map (·.parents) =
        [[.library 2], [.library 0], [], [.library 1]] := by
    rw [(loaded_eq_ok honce).1]
    decide +kernel
  exact ⟨hcore, baseline, seeded, once, desk₁, desk₂, desk₃, hbaseline, hseeded, honce,
    hsame rfl hdesk₁ rfl hbaseline hseeded honce, hshown.1, hshown.2⟩

end LibraryModel

end Referent
