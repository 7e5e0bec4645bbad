import Mathlib.Data.String.Basic
import Referent.Proofs.Accounting
import Referent.Proofs.Enrichment
import Referent.Proofs.Readers

/-!
# Arrays and what they are arrays of

The name of an array is its element with as many pairs `[]` behind it as it has dimensions, and an
element is no array itself: all pairs at the end of a name belong to one array (`ArrayName`). So a
lookup of an array never makes another array for the element, and the relation that a new array
gets leads past all arrays that lookups have made (`arrays_read_exactly`).

* **Names** (`exists_count_iff`): the reader takes the names of arrays and no others. A name of
  less than 2³² bytes has less than 2³² dimensions, so these are counted right.
* **Bound names** (`ArraysNamed`): in every state that can come about, what is bound to a made array
  is read as an array. The name of an element is not, so it denotes something else.
* **Rows** (`KeepsElements`): each step of a lookup keeps that, and what it says about new rows.
-/

namespace Referent

open Lookup LookupState

/-! ## Names -/

namespace Name

/-- The name of an array with this element and so many dimensions. -/
structure ArrayName (name element : String) (dimensions : Nat) : Prop where
  ends : EndsInPairs name.toList element.toList dimensions
  nonempty : element ≠ ""

namespace ArrayName

variable {name element other : String} {dimensions others : Nat}

theorem unique (h : ArrayName name element dimensions) (hother : ArrayName name other others) :
    other = element ∧ others = dimensions := by
  obtain ⟨heq, hcount⟩ := h.ends.unique hother.ends
  exact ⟨(String.toList_inj.1 heq).symm, hcount.symm⟩

/-- An element is no array. -/
theorem not_element (h : ArrayName name element dimensions) : ¬ ArrayName element other others :=
  fun helement => h.ends.not_element helement.ends

theorem utf8Len_pairs (dimensions : Nat) : String.utf8Len (pairs dimensions) = 2 * dimensions := by
  induction dimensions with
  | zero => rfl
  | succ dimensions ih =>
    have hopen : '['.utf8Size = 1 := rfl
    have hclose : ']'.utf8Size = 1 := rfl
    rw [pairs, String.utf8Len_cons, String.utf8Len_cons, ih, hopen, hclose]
    omega

/-- Every dimension takes two bytes. -/
theorem dimensions_lt (h : ArrayName name element dimensions)
    (hsize : name.utf8ByteSize < 2 ^ 32) : dimensions < 2 ^ 32 := by
  have hbytes := congrArg String.utf8Len h.ends.spelled
  rw [String.utf8Len_toList, String.utf8Len_append, utf8Len_pairs] at hbytes
  omega

end ArrayName

variable {name element : String} {dimensions : Nat}

/-- Where the reader finds an array there is the name of one, with the dimensions that 32 bits
hold. -/
theorem Shape.ofName_eq_array {count : UInt32} : ofName name = .array element count ↔
    ∃ dimensions, ArrayName name element dimensions ∧ count = UInt32.ofNat dimensions := by
  rw [ofName_eq_array_iff, readArray_eq_some_iff]
  constructor
  · rintro ⟨cs, dimensions, hends, hnonempty, heq⟩
    cases heq
    refine ⟨dimensions, ⟨by rwa [String.toList_ofList], fun hempty => hnonempty ?_⟩, rfl⟩
    rw [← String.toList_ofList (l := cs), hempty, String.toList_empty]
  · rintro ⟨dimensions, hname, rfl⟩
    refine ⟨element.toList, dimensions, hname.ends, ?_, by rw [String.ofList_toList]⟩
    exact fun hnil => hname.nonempty (String.toList_eq_nil_iff.1 hnil)

theorem Shape.exists_count_iff (hsize : name.utf8ByteSize < 2 ^ 32) :
    (∃ count : UInt32, ofName name = .array element count ∧ count.toNat = dimensions) ↔
      ArrayName name element dimensions := by
  have hcount {dimensions : Nat} (hname : ArrayName name element dimensions) :
      (UInt32.ofNat dimensions).toNat = dimensions :=
    UInt32.toNat_ofNat_of_lt' (hname.dimensions_lt hsize)
  constructor
  · rintro ⟨count, hshape, rfl⟩
    obtain ⟨dimensions, hname, rfl⟩ := ofName_eq_array.1 hshape
    rwa [hcount hname]
  · intro hname
    exact ⟨UInt32.ofNat dimensions, ofName_eq_array.2 ⟨dimensions, hname, rfl⟩, hcount hname⟩

/-- The element of an array is not read as an array. -/
theorem ArrayName.element_not_array (h : ArrayName name element dimensions) (inner : String)
    (count : UInt32) : Shape.ofName element ≠ .array inner count := by
  intro hshape
  obtain ⟨more, helement, -⟩ := Shape.ofName_eq_array.1 hshape
  exact h.not_element helement

theorem compoundKind?_array (h : compoundKind? name = some .array) :
    ∃ element count, Shape.ofName name = .array element count := by
  unfold compoundKind? at h
  split at h
  · cases h
  · cases hshape : Shape.ofName name with
    | array element count => exact ⟨element, count, rfl⟩
    | _ =>
      rw [hshape] at h
      cases h

/-- Only arrays have elements. -/
theorem Shape.eq_array_of_element {shape : Shape} {part : RelationKind × String}
    (hpart : part ∈ shape.constituents) (hkind : part.1 = .hasElementsOf) :
    ∃ count, shape = .array part.2 count := by
  obtain ⟨kind, type⟩ := part
  obtain rfl : kind = .hasElementsOf := hkind
  cases shape with
  | array element count =>
    cases List.mem_singleton.1 hpart
    exact ⟨count, rfl⟩
  | wildcard bound => cases bound <;> simp [constituents] at hpart
  | typeVariable parameter bounds => simp [constituents] at hpart
  | parameterized base arguments => simp [constituents] at hpart
  | simple => cases hpart

theorem compoundKind?_element {part : RelationKind × String}
    (hpart : part ∈ (Shape.ofName name).constituents) (hkind : part.1 = .hasElementsOf) :
    compoundKind? part.2 ≠ some .array := by
  intro harray
  obtain ⟨inner, more, hinner⟩ := compoundKind?_array harray
  obtain ⟨count, hshape⟩ := Shape.eq_array_of_element hpart hkind
  obtain ⟨dimensions, hname, -⟩ := Shape.ofName_eq_array.1 hshape
  exact hname.element_not_array inner more hinner

end Name

/-! ## Bound names -/

/-- An array that a lookup has made, and nobody has declared. -/
def Entity.IsMadeArray (entity : Entity) : Prop :=
  entity.kind = .array ∧ entity.origin = .notApplicable

/-- What is bound to an array that a lookup has made is read as an array. -/
def ProjectModel.ArraysNamed (model : ProjectModel) : Prop :=
  ∀ name slot entity, model.table.slot? name = some slot →
    model.table.arena[slot]? = some entity → entity.IsMadeArray →
      Name.compoundKind? name = some .array

theorem Entity.not_isMadeArray_of_declared {entity : Entity}
    (h : entity.kind ∈ EntityKind.declared) : ¬ entity.IsMadeArray := by
  rintro ⟨hkind, -⟩
  rw [hkind] at h
  revert h
  decide

namespace LookupState

variable {base : Nat} {start state after : LookupState} {name : String}
  {kept : EntityId → Prop}

/-- Relations may be counted from any time on. -/
theorem Ready.rebase (h : Ready base state) : Ready state.corpus.store.relations.size state where
  store := h.store
  library := h.library
  slot_lt := h.slot_lt
  placeholder := h.placeholder
  base_le := Nat.le_refl _
  left row hrow := by
    rw [← Array.length_toList, List.drop_length] at hrow
    cases hrow

theorem Ready.arraysNamed_grows (h : Ready base state) (hnamed : state.model.ArraysNamed)
    (hgrows : Grows kept state after) : after.model.ArraysNamed := by
  intro name slot entity hslot hentity hmade
  cases hearly : state.model.table.slot? name with
  | some early =>
    have hsame := hgrows.slot name early hearly
    rw [hslot] at hsame
    cases hsame
    have hbehind := Array.getElem?_eq_getElem (h.slot_lt name slot hearly)
    have hlate := hgrows.entity slot _ hbehind
    rw [hentity] at hlate
    cases hlate
    exact hnamed name slot _ hearly hbehind hmade
  | none =>
    obtain ⟨kind, id, hkind, hnew⟩ := hgrows.made name slot hearly hslot
    rw [hentity] at hnew
    cases hnew
    obtain ⟨rfl, -⟩ := hmade
    exact hkind

/-- Names do not come to denote made arrays in any other way. -/
theorem Reached.arraysNamed (h : state.Reached) : state.model.ArraysNamed := by
  induction h with
  | built cache hbuilt hstore =>
    intro name slot entity _ hentity hmade
    have hmem := Array.mem_toList_iff.2 (Array.mem_of_getElem? hentity)
    have hdeclared := hbuilt.fresh.table.kind entity hmem
    exact absurd hmade (Entity.not_isMadeArray_of_declared hdeclared)
  | led hstart hleads ih =>
    obtain ⟨⟨base, hready⟩, -⟩ := hstart.sound
    obtain ⟨-, -, hgrows⟩ := hleads.grows hready
    exact hready.arraysNamed_grows ih hgrows
  | @added before name id kind hbefore ih =>
    obtain ⟨⟨base, hready⟩, -⟩ := hbefore.sound
    intro other slot entity hslot hentity hmade
    rw [slot?_add] at hslot
    rw [arena_add] at hentity
    rcases Option.or_eq_some_iff.1 hslot with hearly | ⟨-, hnew⟩
    · have hne : slot ≠ before.model.table.arena.size :=
        Nat.ne_of_lt (hready.slot_lt other slot hearly)
      have hold : before.model.table.arena[slot]? = some entity := by
        rwa [Array.getElem?_push, if_neg hne] at hentity
      exact ih other slot entity hearly hold hmade
    · -- What is entered by hand is declared.
      split at hnew
      · cases hnew
        rw [Table.size, Array.getElem?_push, if_pos rfl] at hentity
        cases hentity
        obtain ⟨-, horigin⟩ := hmade
        cases horigin
      · cases hnew

/-- What is not read as an array does not denote an array that a lookup has made. -/
theorem Ready.not_isMadeArray (h : Ready base state) (hnamed : state.model.ArraysNamed)
    {ref : EntityRef} {target : Entity} (hdenotes : state.model.Denotes name ref)
    (htarget : state.model.entity? ref = some target)
    (hkind : Name.compoundKind? name ≠ some .array) : ¬ target.IsMadeArray := by
  cases hdenotes with
  | bound hfind =>
    obtain ⟨slot, hslot, rfl⟩ := Option.map_eq_some_iff.1 hfind
    exact fun hmade => hkind (hnamed name slot target hslot htarget hmade)
  | library _ _ hfind =>
    obtain ⟨slot, -, rfl⟩ := Option.map_eq_some_iff.1 hfind
    have hmem := Array.mem_toList_iff.2 (Array.mem_of_getElem? htarget)
    exact Entity.not_isMadeArray_of_declared (h.library.kind target hmem)
  | placeholder _ _ _ hplaceholder =>
    obtain ⟨slot, id, rfl, hentity⟩ := h.placeholder name ref hplaceholder
    have hsame : some target = some (PlaceholderCache.entity name id) := htarget.symm.trans hentity
    cases hsame
    rintro ⟨hunknown, -⟩
    cases hunknown

end LookupState

/-! ## Rows -/

/-- A relation that leads to an entity of the model which is no array made by a lookup. -/
def ProjectModel.LeadsPastArrays (model : ProjectModel) (link : RelationRow) : Prop :=
  ∃ ref target, model.entity? ref = some target ∧ link.right = target.id ∧
    link.origin = target.origin ∧ ¬ target.IsMadeArray

/-- The array in a slot has one relation among some, and this leads to what its element denotes,
which is no array made by a lookup. -/
def LookupState.LeadsToElement (state : LookupState) (links : List RelationRow) (slot : Nat)
    (whole element : String) : Prop :=
  ∃ id ref target, state.model.table.arena[slot]? = some (compoundEntity whole .array id) ∧
    state.model.Denotes element ref ∧ state.model.entity? ref = some target ∧
    ¬ target.IsMadeArray ∧
    links.filter (·.left = id) = [partRow state.model.project id .hasElementsOf target]

/-- A row that is read as an array, with its dimensions, if it is one. -/
def EntityRow.ReadsBack (row : EntityRow) : Prop :=
  row.kind = .array → ∃ element count, Name.Shape.ofName row.name = .array element count ∧
    row.dimensions = some count

namespace LookupState

/-- The rows that have come since: those of arrays read back, and relations of arrays to their
elements lead past arrays. -/
structure KeepsElements (start : Store) (state : LookupState) : Prop where
  ready : ∃ base, Ready base state
  named : state.model.ArraysNamed
  entities : ∃ rows, state.corpus.store.entities.toList = start.entities.toList ++ rows ∧
    ∀ row ∈ rows, row.ReadsBack
  relations : ∃ links, state.corpus.store.relations.toList = start.relations.toList ++ links ∧
    ∀ link ∈ links, link.kind = .hasElementsOf → state.model.LeadsPastArrays link

namespace KeepsElements

variable {base : Nat} {start : Store} {state after : LookupState} {name : String}
  {kept : EntityId → Prop}

theorem leadsPastArrays_grows {link : RelationRow} (hgrows : Grows kept state after)
    (h : state.model.LeadsPastArrays link) : after.model.LeadsPastArrays link := by
  obtain ⟨ref, target, htarget, hlink⟩ := h
  exact ⟨ref, target, hgrows.entity? htarget, hlink⟩

/-- What one step adds. -/
theorem step (h : KeepsElements start state) (hready : Ready base after)
    (hgrows : Grows kept state after)
    (hentities : ∃ rows, after.corpus.store.entities.toList =
      state.corpus.store.entities.toList ++ rows ∧ ∀ row ∈ rows, row.ReadsBack)
    (hrelations : ∃ links, after.corpus.store.relations.toList =
      state.corpus.store.relations.toList ++ links ∧
      ∀ link ∈ links, link.kind = .hasElementsOf → after.model.LeadsPastArrays link) :
    KeepsElements start after where
  ready := ⟨base, hready⟩
  named := by
    obtain ⟨_, hbefore⟩ := h.ready
    exact hbefore.arraysNamed_grows h.named hgrows
  entities := by
    obtain ⟨rows, hrows, hall⟩ := h.entities
    obtain ⟨more, hmore, hnew⟩ := hentities
    refine ⟨rows ++ more, by rw [hmore, hrows, List.append_assoc], fun row hrow => ?_⟩
    exact (List.mem_append.1 hrow).elim (hall row) (hnew row)
  relations := by
    obtain ⟨links, hlinks, hall⟩ := h.relations
    obtain ⟨more, hmore, hnew⟩ := hrelations
    refine ⟨links ++ more, by rw [hmore, hlinks, List.append_assoc], fun link hlink hkind => ?_⟩
    rcases List.mem_append.1 hlink with hlink | hlink
    · exact leadsPastArrays_grows hgrows (hall link hlink hkind)
    · exact hnew link hlink hkind

/-- A step that leaves the store alone. -/
theorem same_store (h : KeepsElements start state) (hready : Ready base after)
    (hgrows : Grows kept state after) (hstore : after.corpus.store = state.corpus.store) :
    KeepsElements start after :=
  h.step hready hgrows ⟨[], by rw [hstore, List.append_nil], by simp⟩
    ⟨[], by rw [hstore, List.append_nil], by simp⟩

/-- A step that inserts one row. -/
theorem inserted (h : KeepsElements start state) (hready : Ready base after)
    (hgrows : Grows kept state after) {entry : Entry} {id : EntityId}
    (hinserted : state.corpus.store.Inserted entry id after.corpus.store)
    (hback : EntityRow.ReadsBack { entry with id }) : KeepsElements start after := by
  refine h.step hready hgrows ⟨[{ entry with id }], ?_, ?_⟩ ⟨[], ?_, by simp⟩
  · rw [hinserted.entities, Array.toList_push]
  · intro row hrow
    rw [List.mem_singleton.1 hrow]
    exact hback
  · rw [hinserted.relations, List.append_nil]

/-- A change of what the model keeps besides its entities. -/
theorem of_same_entities (h : KeepsElements start state) {model : ProjectModel}
    (hready : ∃ base, Ready base { state with model }) (hnamed : model.ArraysNamed)
    (hentity : ∀ ref, model.entity? ref = state.model.entity? ref) :
    KeepsElements start { state with model } where
  ready := hready
  named := hnamed
  entities := h.entities
  relations := by
    obtain ⟨links, hlinks, hall⟩ := h.relations
    refine ⟨links, hlinks, fun link hlink hkind => ?_⟩
    obtain ⟨ref, target, htarget, hpast⟩ := hall link hlink hkind
    exact ⟨ref, target, (hentity ref).trans htarget, hpast⟩

end KeepsElements

/-- A relation that comes is no more than what may go on elsewhere. -/
theorem Elsewhere.of_relate {state : LookupState} (hstore : state.corpus.store.Reached)
    {corpus : Access} {link : RelationRow}
    (hrelated : corpus.store = state.corpus.store.relate link) :
    state.Elsewhere corpus state.cache where
  reached := by
    rw [hrelated]
    exact hstore.relate link
  entities := by
    rw [hrelated]
    exact List.prefix_refl _
  relations := by
    rw [hrelated, Store.relate, Array.toList_push]
    exact List.prefix_append _ _
  owner := rfl
  entries _ _ h := h

end LookupState

namespace Lookup

/-- Every step of a lookup keeps apart what arrays are made for and what they lead to. -/
theorem elements_upkeep (start : Store) : Upkeep (KeepsElements start) fun _ => True where
  made {state name kind} hstate hfree hkind := by
    obtain ⟨base, hready⟩ := hstate.ready
    rcases synthesize_cases hready.store.sound hfree kind with
      ⟨id, corpus, hrun, hinserted⟩ | ⟨cause, corpus, hrun, hsame⟩
    · rw [hrun]
      have hmade := made_of_inserted hready (Option.map_eq_none_iff.1 hfree) hkind hinserted
      refine ⟨hstate.inserted hmade.ready hmade.grows hinserted ?_, trivial⟩
      rintro rfl
      obtain ⟨element, count, hshape⟩ := Name.compoundKind?_array hkind
      refine ⟨element, count, hshape, ?_⟩
      simp only [compoundEntry, hshape, Name.Shape.dimensions?]
    · rw [hrun]
      obtain ⟨hafter, hgrows⟩ := hready.same_store (fun _ => False) hsame
      exact hstate.same_store hafter hgrows hsame
  related {before state id name part target} hbefore hget hstate _ hpart := by
    obtain ⟨base, hready⟩ := hstate.ready
    obtain ⟨early, hearly⟩ := hbefore.ready
    have hdenotes := (adds_of_getEntity hearly hget).2
    rcases leaving_relateTo_cases id part.1 target state with
      ⟨corpus, hafter, hsame⟩ | ⟨entity, corpus, htarget, hafter, hrelated⟩
    · rw [hafter]
      obtain ⟨hlater, hgrows⟩ := hready.same_store (fun _ => False) hsame
      exact hstate.same_store hlater hgrows hsame
    · rw [hafter]
      obtain ⟨hlater, hgrows⟩ := hready.elsewhere (.of_relate hready.store hrelated)
      refine hstate.step hlater hgrows ⟨[], ?_, by simp⟩
        ⟨[partRow state.model.project id part.1 entity], ?_, ?_⟩
      · simp only [hrelated, Store.relate, List.append_nil]
      · simp only [hrelated, Store.relate, Array.toList_push]
      · intro link hlink hkind
        obtain rfl := List.mem_singleton.1 hlink
        have helement := Name.compoundKind?_element hpart hkind
        exact ⟨target, entity, htarget, rfl, rfl,
          hready.not_isMadeArray hstate.named hdenotes htarget helement⟩
  placeholder {state} name hstate := by
    obtain ⟨base, hready⟩ := hstate.ready
    have hadds := leaving_unknown_adds hready (fun _ => False) name 0
    obtain ⟨-, hsame | ⟨id, hinserted⟩⟩ := leaving_unknown_cases hready.store.sound name
    · exact hstate.same_store hadds.ready hadds.grows hsame
    · refine hstate.inserted hadds.ready hadds.grows hinserted fun harray => ?_
      cases harray
  forgetting {state} name hstate := by
    obtain ⟨base, hready⟩ := hstate.ready
    refine hstate.of_same_entities ⟨base, hready.forgetting name⟩ ?_ fun ref => by cases ref <;> rfl
    intro other slot entity hslot hentity hmade
    simp only [Table.slot?_forget] at hslot
    split at hslot
    · cases hslot
    · exact hstate.named other slot entity hslot hentity hmade
  noting {state} anomaly hstate := by
    obtain ⟨base, hready⟩ := hstate.ready
    exact hstate.of_same_entities ⟨base, { hready with }⟩ hstate.named fun ref => by
      cases ref <;> rfl
  remembering {state} name binding hstate := by
    obtain ⟨base, hready⟩ := hstate.ready
    exact hstate.of_same_entities ⟨base, { hready with }⟩ hstate.named fun ref => by
      cases ref <;> rfl

end Lookup

/-! ## Arrays -/

theorem LookupState.Reached.keepsElements {state : LookupState} (h : state.Reached)
    (question : Question) : KeepsElements state.corpus.store (state.leaving question.ask) := by
  obtain ⟨hready, -⟩ := h.sound
  have hstart : KeepsElements state.corpus.store state :=
    ⟨hready, h.arraysNamed, ⟨[], by simp, by simp⟩, ⟨[], by simp, by simp⟩⟩
  exact (elements_upkeep state.corpus.store).question question hstart

/-- Every array that a question has bound is tied to what its element denotes. -/
theorem LookupState.Reached.leadsToElement {state : LookupState} (h : state.Reached)
    (question : Question) {links : List RelationRow}
    (hlinks : (state.leaving question.ask).corpus.store.relations.toList =
      state.corpus.store.relations.toList ++ links) {whole element : String} {slot : Nat}
    {count : UInt32} (hshape : Name.Shape.ofName whole = .array element count)
    (hfree : state.model.table.slot? whole = none)
    (hbound : (state.leaving question.ask).model.table.slot? whole = some slot) :
    (state.leaving question.ask).LeadsToElement links slot whole element := by
  obtain ⟨⟨_, hready⟩, -⟩ := h.sound
  have hadds := question_adds hready.rebase question
  obtain ⟨-, kind, id, -, hlinked⟩ := hadds.linked whole slot hfree hbound
  have hmem : (RelationKind.hasElementsOf, element) ∈ (Name.Shape.ofName whole).constituents := by
    rw [hshape]
    exact List.mem_singleton_self _
  have hkind : kind = .array := by
    have hmade := hlinked.shape
    rw [Name.compoundKind?, hshape] at hmade
    split at hmade
    · cases hmade
    · cases hmade
      rfl
  subst hkind
  have hparts := hlinked.parts
  rw [hshape, Store.relatedSince, hlinks, ← Array.length_toList, List.drop_left] at hparts
  obtain ⟨link, rest, ⟨ref, target, hdenotes, htarget, rfl⟩, hrest, heq⟩ :=
    List.forall₂_cons_left_iff.1 hparts
  obtain rfl := List.forall₂_nil_left_iff.1 hrest
  have hnamed := (Reached.led h (.asked question .here)).arraysNamed
  exact ⟨id, ref, target, hlinked.entity, hdenotes, htarget,
    hadds.ready.not_isMadeArray hnamed hdenotes htarget (Name.compoundKind?_element hmem rfl), heq⟩

/-- A name of less than 2³² bytes is read as an array exactly if it is an element, which is not
empty, with as many pairs `[]` behind it as there are dimensions. There is one way at most to see a
name like this, and the element is not read as an array. So whatever is asked in whatever state,
the rows of arrays that come to be are those of names that are read as arrays, with their
dimensions, and no relation from an array to an element leads to an array that a lookup has made:
each array that is bound has one, to what its element denotes. -/
theorem arrays_read_exactly (name : String) (hsize : name.utf8ByteSize < 2 ^ 32)
    {state : LookupState} (hstate : state.Reached) (question : Question) :
    (∀ element dimensions, (∃ count : UInt32, Name.Shape.ofName name = .array element count ∧
        count.toNat = dimensions) ↔ Name.ArrayName name element dimensions) ∧
    (∀ element dimensions, Name.ArrayName name element dimensions →
      (∀ other others, Name.ArrayName name other others →
        other = element ∧ others = dimensions) ∧
      ∀ inner count, Name.Shape.ofName element ≠ .array inner count) ∧
    let after := state.leaving question.ask
    ∃ rows links,
      after.corpus.store.entities.toList = state.corpus.store.entities.toList ++ rows ∧
      after.corpus.store.relations.toList = state.corpus.store.relations.toList ++ links ∧
      (∀ row ∈ rows, row.ReadsBack) ∧
      (∀ link ∈ links, link.kind = .hasElementsOf → after.model.LeadsPastArrays link) ∧
      ∀ whole slot element count, Name.Shape.ofName whole = .array element count →
        state.model.table.slot? whole = none → after.model.table.slot? whole = some slot →
        after.LeadsToElement links slot whole element := by
  have hkeeps := hstate.keepsElements question
  obtain ⟨rows, hrows, hback⟩ := hkeeps.entities
  obtain ⟨links, hlinks, hpast⟩ := hkeeps.relations
  refine ⟨fun element dimensions => Name.Shape.exists_count_iff hsize, ?_,
    rows, links, hrows, hlinks, hback, hpast, ?_⟩
  · intro element dimensions hname
    exact ⟨fun other others hother => hname.unique hother, hname.element_not_array⟩
  · exact fun whole slot element count hshape => hstate.leadsToElement question hlinks hshape

/-- A parameterized type with two pairs behind it, and a pair within its brackets. -/
theorem array_of_boxes_leads_past_arrays :
    let name := "a.Box<p.B[]>[][]"
    let state : LookupState :=
      { corpus := { store := ProjectModel.boxStore }, cache := { owner := ⟨9⟩ }
        model := ProjectModel.boxModel }
    let after := state.leaving (Question.plain name).ask
    name.utf8ByteSize < 2 ^ 32 ∧ state.Reached ∧ Name.ArrayName name "a.Box<p.B[]>" 2 ∧
      ∃ link ∈ after.corpus.store.relations.toList,
        link.kind = .hasElementsOf ∧ after.model.LeadsPastArrays link := by
  intro name state after
  have hsize : name.utf8ByteSize < 2 ^ 32 := by decide +kernel
  have hstate : state.Reached := .built _ ProjectModel.boxModel_built (Store.reached_ofRows _)
  have hshape : Name.Shape.ofName name = .array "a.Box<p.B[]>" 2 := by decide +kernel
  have hnew : ∃ link ∈ after.corpus.store.relations.toList, link.kind = .hasElementsOf ∧
      link ∉ state.corpus.store.relations.toList := by
    decide +kernel
  obtain ⟨hread, -, rows, links, -, hlinks, -, hpast, -⟩ :=
    arrays_read_exactly name hsize hstate (.plain name)
  obtain ⟨link, hlink, hkind, hlate⟩ := hnew
  refine ⟨hsize, hstate, (hread _ _).1 ⟨2, hshape, rfl⟩, link, hlink, hkind, ?_⟩
  have hadded : link ∈ state.corpus.store.relations.toList ++ links := by
    rw [← hlinks]
    exact hlink
  exact hpast link ((List.mem_append.1 hadded).resolve_left hlate) hkind

end Referent
