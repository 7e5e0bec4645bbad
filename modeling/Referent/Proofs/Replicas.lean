import Referent.Proofs.Choice
import Referent.Proofs.Copies

/-!
# What copies change for lookups

What a caller can tell of a library model are ids: of the entity that a name denotes, of its
supertypes, and of the declarations that a reference resolves to. A model may hold all entities
of another one in other slots (`Replicated`). Then names denote entities with the same ids
(`Replicated.id?`). Supertypes are those of the copies that edges lead to, so a name shows the
same supertypes, and dispatch finds the same members, as long as the name leads to such a copy
(`Replicated.parentIds`, `Replicated.outcome?`).
-/

namespace Referent

namespace LibraryModel

/-! ## What a caller can tell -/

/-- The id of the entity behind a reference. -/
def idOf? (model : LibraryModel) (ref : EntityRef) : Option EntityId :=
  (model.entity? ref).map (·.id)

/-- The id of the entity that a name denotes. -/
def id? (model : LibraryModel) (name : String) : Option EntityId :=
  (model.find? name).bind model.idOf?

/-- The ids of the direct supertypes of the entity that a name denotes, in order. -/
def parentIds (model : LibraryModel) (name : String) : List (Option EntityId) :=
  ((model.find? name).bind model.entity?).elim [] fun entity => entity.parents.map model.idOf?

/-- What a reference comes to: how it came out and the ids of its targets, if it denotes
anything. -/
def outcome? (model : LibraryModel) (name : String) :
    Option (Status × List (Option EntityId)) :=
  (model.dispatch name).binding.map fun binding =>
    (binding.status, binding.targets.map model.idOf?)

/-- The model looks for a member among the supertypes of a receiver: the reference is no name of
the model, and is read as a member that types inherit, of a receiver that is no array. -/
structure Seeks (model : LibraryModel) (name : String) (ref : Name.MemberRef) : Prop where
  free : model.find? name = none
  read : Name.MemberRef.ofName? name = some ref
  inherited : ref.isConstructorOrInitializer = false
  noArray : Name.isArray ref.receiver = false

theorem Seeks.dispatch {model : LibraryModel} {name : String} {ref : Name.MemberRef}
    {receiver : EntityRef} (h : model.Seeks name ref)
    (hreceiver : model.find? ref.receiver = some receiver) :
    model.dispatch name = model.hierarchy.resolve receiver name ref :=
  dispatch_of_known h.free h.read h.inherited h.noArray hreceiver

/-- What is so of names in two models that bind the same names, and of the members that they
look for, is so of all that they dispatch. -/
theorem dispatch_rel {R : Option Binding → Option Binding → Prop} {one other : LibraryModel}
    {name : String} (hroot : other.rootType = one.rootType) (hnone : R none none)
    (hnames : ∀ name, (other.find? name).isSome = (one.find? name).isSome ∧
      R ((one.find? name).map .resolved) ((other.find? name).map .resolved))
    (hmembers : ∀ ref receiver receiver', one.Seeks name ref →
      one.find? ref.receiver = some receiver → other.find? ref.receiver = some receiver' →
        R (one.hierarchy.resolve receiver name ref).binding
          (other.hierarchy.resolve receiver' name ref).binding) :
    R (one.dispatch name).binding (other.dispatch name).binding := by
  have hsame : ∀ name, one.find? name = none ∧ other.find? name = none ∨
      ∃ found found', one.find? name = some found ∧ other.find? name = some found' := by
    intro name
    have hbound := (hnames name).1
    cases hone : one.find? name <;> cases hother : other.find? name <;> simp_all
  unfold dispatch
  rcases hsame name with ⟨hfree, hfree'⟩ | ⟨found, found', hfound, hfound'⟩
  · cases hread : Name.MemberRef.ofName? name with
    | none => simpa only [hfree, hfree'] using hnone
    | some ref =>
      cases hinit : ref.isConstructorOrInitializer with
      | true => simpa only [hfree, hfree', hinit, if_true] using hnone
      | false =>
        cases harray : Name.isArray ref.receiver with
        | true =>
          simpa only [hfree, hfree', hinit, harray, hroot, Bool.false_eq_true, if_false,
            if_true] using (hnames (Name.memberName one.rootType ref.member)).2
        | false =>
          simp only [hfree, hfree', hinit, harray, Bool.false_eq_true, if_false]
          rcases hsame ref.receiver with ⟨hno, hno'⟩ | ⟨receiver, receiver', hyes, hyes'⟩
          · simpa only [hno, hno'] using hnone
          · simp only [hyes, hyes']
            exact hmembers ref receiver receiver' ⟨hfree, hread, hinit, harray⟩ hyes hyes'
  · have hname := (hnames name).2
    rw [hfound, hfound'] at hname
    simp only [hfound, hfound']
    exact hname

theorem Sound.declared? {model : LibraryModel} (h : model.Sound) (name : String) :
    model.hierarchy.declared? name = model.find? name :=
  congrArg (Option.map EntityRef.library) (h.declaredSlot?_eq name)

/-- Copies have the ids of what they are copies of. -/
theorem idOf?_copied {copy : Nat → Nat} {small large : LibraryModel}
    (h : Table.Copies copy small.draft.table large.draft.table) {ref : EntityRef}
    (href : (small.entity? ref).isSome) : large.idOf? (ref.copied copy) = small.idOf? ref := by
  obtain ⟨entity, hentity⟩ := Option.isSome_iff_exists.1 href
  obtain ⟨slot, rfl, -, hget⟩ := slot_of_entity? hentity
  obtain ⟨copied, hcopied, -, -, hid, -⟩ := h.entity slot entity hget
  simp only [idOf?, EntityRef.copied, entity?, hget, hcopied, Option.map_some, hid]

/-! ## Replicas -/

/-- One library model holds the entities of another in other slots. Supertypes lead to one copy
of each (`wired`) and names to one (`named`), not always the same. -/
structure Replicated (wired named : Nat → Nat) (small large : LibraryModel) : Prop where
  rootType : large.rootType = small.rootType
  sound : small.Sound
  sound' : large.Sound
  copies : Table.Copies wired small.draft.table large.draft.table
  name : ∀ name, large.draft.table.slot? name = (small.draft.table.slot? name).map named
  id : ∀ slot < small.draft.table.size,
    large.idOf? (.library (named slot)) = small.idOf? (.library slot)
  distinct : Set.InjOn named {slot | slot < small.draft.table.size}

namespace Replicated

variable {wired named : Nat → Nat} {small large : LibraryModel}

/-- Of the smaller model only what lookups see counts. -/
theorem congr {other : LibraryModel} (h : Replicated wired named small large)
    (hroot : other.rootType = small.rootType) (hsound : other.Sound)
    (harena : other.draft.table.arena = small.draft.table.arena)
    (hname : ∀ name, other.draft.table.slot? name = small.draft.table.slot? name) :
    Replicated wired named other large where
  rootType := h.rootType.trans hroot.symm
  sound := hsound
  sound' := h.sound'
  copies := by
    constructor
    · rw [Table.size, harena]
      exact h.copies.injective
    · rw [harena]
      exact h.copies.entity
  name name := by rw [hname, h.name]
  id slot := by
    rw [Table.size, idOf?, idOf?, entity?, entity?, harena]
    exact h.id slot
  distinct := by
    rw [Table.size, harena]
    exact h.distinct

theorem find? (h : Replicated wired named small large) (name : String) :
    large.find? name = (small.find? name).map (EntityRef.copied named) := by
  rw [LibraryModel.find?, LibraryModel.find?, h.name]
  cases small.draft.table.slot? name <;> rfl

theorem idOf?_wired (h : Replicated wired named small large) {ref : EntityRef}
    (href : (small.entity? ref).isSome) :
    large.idOf? (ref.copied wired) = small.idOf? ref :=
  idOf?_copied h.copies href

theorem idOf?_named (h : Replicated wired named small large) {ref : EntityRef}
    (href : (small.entity? ref).isSome) :
    large.idOf? (ref.copied named) = small.idOf? ref := by
  obtain ⟨entity, hentity⟩ := Option.isSome_iff_exists.1 href
  obtain ⟨slot, rfl, hlt, -⟩ := slot_of_entity? hentity
  exact h.id slot hlt

/-- Names denote entities with the same ids. -/
theorem id? (h : Replicated wired named small large) (name : String) :
    large.id? name = small.id? name := by
  rw [LibraryModel.id?, LibraryModel.id?, h.find?]
  cases hfind : small.find? name with
  | none => rfl
  | some ref => exact h.idOf?_named (h.sound.isSome_of_find? hfind)

/-- A name that leads to the copy of supertypes shows the same supertypes. -/
theorem parentIds (h : Replicated wired named small large) {name : String}
    (hname : ∀ slot, small.draft.table.slot? name = some slot → named slot = wired slot) :
    large.parentIds name = small.parentIds name := by
  rw [LibraryModel.parentIds, LibraryModel.parentIds, h.find?]
  cases hslot : small.draft.table.slot? name with
  | none => simp only [LibraryModel.find?, hslot, Option.map_none, Option.bind_none, Option.elim]
  | some slot =>
    have hlt := h.sound.slot_lt name slot hslot
    have hget := Array.getElem?_eq_getElem hlt
    obtain ⟨copied, hcopied, -, -, -, hparents⟩ := h.copies.entity slot _ hget
    simp only [LibraryModel.find?, hslot, Option.map_some, Option.bind_some, EntityRef.copied,
      hname slot hslot, LibraryModel.entity?, hget, hcopied, Option.elim, hparents, List.map_map]
    apply List.map_congr_left
    intro parent hparent
    have hentity : small.entity? (.library slot) = some small.draft.table.arena[slot] := hget
    exact h.idOf?_wired (h.sound.parents_shown hentity parent hparent).2

/-- The hierarchy of one model stands inside that of the other. -/
theorem embeds (h : Replicated wired named small large) :
    Hierarchy.Embeds (EntityRef.copied wired) (EntityRef.copied named) small.hierarchy
      large.hierarchy where
  injective := by
    refine (EntityRef.copied_injOn h.copies.injective).mono ?_
    intro ref href
    obtain ⟨entity, hentity⟩ := Option.isSome_iff_exists.1 href
    rw [entity?_hierarchy] at hentity
    obtain ⟨slot, heq, hlt, -⟩ := slot_of_entity? hentity
    exact ⟨slot, heq, hlt⟩
  entity ref entity hentity := by
    rw [entity?_hierarchy] at hentity
    obtain ⟨slot, rfl, -, hget⟩ := slot_of_entity? hentity
    obtain ⟨copied, hcopied, hname, hkind, -, hparents⟩ := h.copies.entity slot entity hget
    exact ⟨copied, hcopied, hname, hkind, hparents⟩
  closed ref entity hentity parent hparent := by
    rw [entity?_hierarchy] at hentity ⊢
    exact (h.sound.parents_shown hentity parent hparent).2
  declared name := by
    rw [h.sound'.declared?, h.sound.declared?, h.find?]
  distinct := by
    refine (EntityRef.copied_injOn h.distinct).mono ?_
    rintro ref ⟨name, hname⟩
    rw [h.sound.declared?] at hname
    obtain ⟨slot, hslot, rfl⟩ := Option.map_eq_some_iff.1 hname
    exact ⟨slot, rfl, h.sound.slot_lt name slot hslot⟩

/-- A binding and its copy come to the same outcome. -/
theorem targets (h : Replicated wired named small large) {binding : Binding}
    (hvisible : ∀ target ∈ binding.targets, (small.entity? target).isSome) :
    (binding.move (EntityRef.copied named)).status = binding.status ∧
      (binding.move (EntityRef.copied named)).targets.map large.idOf? =
        binding.targets.map small.idOf? := by
  have htargets : (binding.move (EntityRef.copied named)).targets =
      binding.targets.map (EntityRef.copied named) := by
    cases binding <;> rfl
  refine ⟨by cases binding <;> rfl, ?_⟩
  rw [htargets, List.map_map]
  apply List.map_congr_left
  intro target htarget
  exact h.idOf?_named (hvisible target htarget)

/-- Dispatch decides for the copies of the same declarations, if the receiver whose members it
looks for leads to the copy of supertypes. -/
theorem dispatch (h : Replicated wired named small large) {name : String}
    (hreceiver : ∀ ref, small.Seeks name ref →
      ∀ slot, small.draft.table.slot? ref.receiver = some slot → named slot = wired slot) :
    (large.dispatch name).binding =
      ((small.dispatch name).binding).map (Binding.move (EntityRef.copied named)) := by
  refine dispatch_rel (R := fun answer copied =>
    copied = answer.map (Binding.move (EntityRef.copied named))) h.rootType rfl ?_ ?_
  · intro other
    rw [h.find?]
    cases small.find? other <;> exact ⟨rfl, rfl⟩
  · intro ref receiver receiver' hseeks hfound hfound'
    obtain ⟨slot, hslot, rfl⟩ := Option.map_eq_some_iff.1 hfound
    rw [h.find?, hfound, Option.map_some, EntityRef.copied, hreceiver ref hseeks slot hslot,
      Option.some.injEq] at hfound'
    have hvisible : (small.hierarchy.entity? (.library slot)).isSome := by
      rw [entity?_hierarchy]
      exact h.sound.isSome_of_find? hfound
    rw [← hfound']
    exact h.embeds.resolve hvisible name ref

theorem outcome? (h : Replicated wired named small large) {name : String}
    (hreceiver : ∀ ref, small.Seeks name ref →
      ∀ slot, small.draft.table.slot? ref.receiver = some slot → named slot = wired slot) :
    large.outcome? name = small.outcome? name := by
  rw [LibraryModel.outcome?, LibraryModel.outcome?, h.dispatch hreceiver]
  cases hbinding : (small.dispatch name).binding with
  | none => rfl
  | some binding =>
    have hvisible : ∀ target ∈ binding.targets, (small.entity? target).isSome := by
      intro target htarget
      obtain ⟨other, hother⟩ := (dispatch_targets hbinding).2 target htarget
      exact h.sound.isSome_of_find? hother
    obtain ⟨hstatus, htargets⟩ := h.targets hvisible
    simp only [Option.map_some, hstatus, htargets]

/-- Both models look for the same members. -/
theorem seeks_iff (h : Replicated wired named small large) {name : String}
    {ref : Name.MemberRef} : large.Seeks name ref ↔ small.Seeks name ref := by
  have hfree : large.find? name = none ↔ small.find? name = none := by
    rw [h.find?, Option.map_eq_none_iff]
  constructor
  · rintro ⟨hfind, hread, hinherited, harray⟩
    exact ⟨hfree.1 hfind, hread, hinherited, harray⟩
  · rintro ⟨hfind, hread, hinherited, harray⟩
    exact ⟨hfree.2 hfind, hread, hinherited, harray⟩

end Replicated

/-! ## Models of the same rows -/

/-- The model that adds rows to a draft and then wires the draft by the inheritance of some
projects, in order. -/
def assembled (mode : Mode) (rootType : String) (start : Draft) (store : Store)
    (rows : List EntityRow) (order : List ProjectId) : LibraryModel where
  mode
  rootType
  draft := order.foldl (Draft.inherit .library (fun _ => none) store)
    (rows.foldl (Draft.addRow .library) start)

/-- The projects by whose inheritance a load wires its draft. -/
def wiringOrder (mode : Mode) (libraries : List ProjectId) : List ProjectId :=
  match mode with
  | .plain => []
  | .virtual => libraries

theorem eq_assembled_of_loaded {libraries : List ProjectId} {model model' : LibraryModel}
    {desk desk' : Desk} (h : model.loaded libraries desk = .ok model' desk') :
    model' = assembled model.mode model.rootType model.draft desk.corpus.store
      (desk.corpus.store.declarationsOf libraries) (wiringOrder model.mode libraries) := by
  rw [(loaded_eq_ok h).1, assembled, ← Draft.declare_foldl]
  cases model.mode <;> rfl

section Rows

variable {mode : Mode} {rootType : String} {start : Draft} {store : Store}
  {rows more : List EntityRow} {order : List ProjectId} {wired : Nat → Nat}

theorem assembled_sound (hstart : start.table.Sound .library fun _ => False)
    (hkinds : ∀ row ∈ rows, row.kind ∈ EntityKind.declared) :
    (assembled mode rootType start store rows order).Sound :=
  inherit_foldl_sound store order (hstart.addRows .library hkinds)

theorem slot?_assembled (name : String) :
    (assembled mode rootType start store rows order).draft.table.slot? name =
      (start.table.slot? name).or (claimSlot? name start.table.size rows) := by
  rw [assembled, Draft.slot?_inherit_foldl, Draft.slot?_addRows]

theorem size_assembled :
    (assembled mode rootType start store rows order).draft.table.size =
      start.table.size + rows.length := by
  rw [assembled, Draft.size_inherit_foldl, Draft.size_addRows]

/-- Wiring aside, a model of rows holds their entities behind those it starts with. -/
theorem idOf?_assembled (slot : Nat) :
    (assembled mode rootType start store rows order).idOf? (.library slot) =
      ((rows.foldl (Draft.addRow .library) start).table.arena[slot]?).map (·.id) :=
  Draft.id_inherit_foldl .library (fun _ => none) store order _ slot

/-- The index by id keeps up with the copying of rows. -/
theorem typeSlot?_copied (hstart : start.table.Sound .library fun _ => False)
    (htracks : start.table.typeSlots.isSome) (hmem : ∀ row, row ∈ rows ↔ row ∈ more)
    (id : EntityId) :
    (more.foldl (Draft.addRow .library) start).table.typeSlot? id =
      ((rows.foldl (Draft.addRow .library) start).table.typeSlot? id).map
        (wiredCopy start.table.size rows more) := by
  rw [Draft.typeSlot?_addRows _ _ _ htracks, Draft.typeSlot?_addRows _ _ _ htracks,
    classSlot?_copied hmem]
  cases classSlot? id start.table.size rows with
  | some slot => rfl
  | none =>
    cases hslot : start.table.typeSlot? id with
    | none => rfl
    | some slot =>
      have hold := hstart.typeSlot_lt id slot hslot
      simp [wiredCopy, hold]

theorem copies_firstCopy (hstart : start.table.Sound .library fun _ => False)
    (hrows : rows.Nodup) (hmem : ∀ row, row ∈ rows ↔ row ∈ more) :
    Table.Copies (firstCopy start.table.size rows more)
      (rows.foldl (Draft.addRow .library) start).table
      (more.foldl (Draft.addRow .library) start).table :=
  (recopies_firstCopy fun row => (hmem row).1).copies hrows hstart

/-- If edges lead from copies to copies, a model of rows has copies in a model of the same rows in
other slots. -/
theorem copies_assembled (hstart : start.table.Sound .library fun _ => False)
    (hkinds : ∀ row ∈ rows, row.kind ∈ EntityKind.declared) (hrows : rows.Nodup)
    (hwired : Recopies start.table.size rows more wired)
    (hindex : order ≠ [] → ∀ id, (more.foldl (Draft.addRow .library) start).table.typeSlot? id =
      ((rows.foldl (Draft.addRow .library) start).table.typeSlot? id).map wired) :
    Table.Copies wired (assembled mode rootType start store rows order).draft.table
      (assembled mode rootType start store more order).draft.table := by
  have hcopies : Table.Copies wired (rows.foldl (Draft.addRow .library) start).table
      (more.foldl (Draft.addRow .library) start).table := hwired.copies hrows hstart
  cases order with
  | nil => exact hcopies
  | cons project order =>
    exact hcopies.inherit_foldl (project :: order) (hstart.addRows .library hkinds)
      (hindex (List.cons_ne_nil _ _))

/-- A model of rows is replicated in a model of the same rows in other slots, if the same rows
claim names first and edges lead from copies to copies. -/
theorem replicated (hstart : start.table.Sound .library fun _ => False)
    (hkinds : ∀ row ∈ rows, row.kind ∈ EntityKind.declared) (hrows : rows.Nodup)
    (hmem : ∀ row, row ∈ rows ↔ row ∈ more)
    (hfirst : ∀ name : String,
      rows.find? (name ∈ ·.claims) = more.find? (name ∈ ·.claims))
    (hwired : Recopies start.table.size rows more wired)
    (hindex : order ≠ [] → ∀ id, (more.foldl (Draft.addRow .library) start).table.typeSlot? id =
      ((rows.foldl (Draft.addRow .library) start).table.typeSlot? id).map wired) :
    Replicated wired (firstCopy start.table.size rows more)
      (assembled mode rootType start store rows order)
      (assembled mode rootType start store more order) where
  rootType := rfl
  sound := assembled_sound hstart hkinds
  sound' := assembled_sound hstart fun row hrow => hkinds row ((hmem row).2 hrow)
  copies := copies_assembled hstart hkinds hrows hwired hindex
  name name := by
    rw [slot?_assembled, slot?_assembled, claimSlot?_copied (hfirst name)]
    cases hslot : start.table.slot? name with
    | none => rfl
    | some slot =>
      have hold := hstart.slot_lt name slot hslot
      simp [firstCopy, hold]
  id slot hslot := by
    rw [idOf?_assembled, idOf?_assembled]
    rw [size_assembled, ← Draft.size_addRows .library] at hslot
    have hget := Array.getElem?_eq_getElem hslot
    obtain ⟨copied, hcopied, -, -, hid, -⟩ :=
      (copies_firstCopy hstart hrows hmem).entity slot _ hget
    rw [hget, hcopied, Option.map_some, Option.map_some, hid]
  distinct := by
    rw [size_assembled, ← Draft.size_addRows .library]
    exact (copies_firstCopy hstart hrows hmem).injective

end Rows

end LibraryModel

end Referent
