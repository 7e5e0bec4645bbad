import Referent.Proofs.Flaws
import Referent.Proofs.Replicas

/-!
# The order of libraries

Libraries that are loaded in one go are all declared before any is wired, so their order decides
about slots and about the order of supertypes only. That is two steps apart: the same rows wired
in another order give hierarchies that differ in the order of supertypes
(`LibraryModel.reordered_of_perm`), and rows in another order, wired alike, give copies
(`LibraryModel.replicated_of_perm`). Neither changes which unshadowed declarations there are above
a receiver, so ids, supertypes, anomalies of wiring and outcomes are the same but for their order
(`library_order_is_immaterial`).
-/

namespace Referent

/-! ## The order of supertypes -/

/-- Two entities differ in the order of their supertypes at most. -/
structure Entity.Reordered (entity other : Entity) : Prop where
  name : entity.name = other.name
  kind : entity.kind = other.kind
  id : entity.id = other.id
  parents : ∀ ref, ref ∈ entity.parents ↔ ref ∈ other.parents

/-- Two bindings come out alike, with the same targets in some order. -/
def Binding.Reordered (binding other : Binding) : Prop :=
  binding.status = other.status ∧ binding.targets.Perm other.targets

theorem Binding.ofCandidates_perm {refs others : List EntityRef} (h : refs.Perm others) :
    Option.Rel Reordered (ofCandidates refs) (ofCandidates others) := by
  have hlength := h.length_eq
  match refs, others with
  | [], [] => exact .none
  | [_], [_] => exact .some ⟨rfl, h⟩
  | _ :: _ :: _, _ :: _ :: _ => exact .some ⟨rfl, h⟩
  | [], _ :: _ | _ :: _, [] => simp at hlength
  | [_], _ :: _ :: _ | _ :: _ :: _, [_] => simp at hlength

namespace Hierarchy

/-- Two hierarchies differ in the order of supertypes at most. -/
structure Reordered (hierarchy other : Hierarchy) : Prop where
  entity : ∀ ref, Option.Rel Entity.Reordered (hierarchy.entity? ref) (other.entity? ref)
  declared : ∀ name, hierarchy.declared? name = other.declared? name

variable {hierarchy other : Hierarchy} {member : String} {receiver child parent top : EntityRef}

theorem Reordered.symm (h : hierarchy.Reordered other) : other.Reordered hierarchy where
  entity ref := by
    have hsame := h.entity ref
    generalize hierarchy.entity? ref = found at hsame ⊢
    generalize other.entity? ref = found' at hsame ⊢
    cases hsame with
    | none => exact .none
    | some hsame =>
      exact .some ⟨hsame.name.symm, hsame.kind.symm, hsame.id.symm,
        fun ref => (hsame.parents ref).symm⟩
  declared name := (h.declared name).symm

theorem Reordered.exists_same (h : hierarchy.Reordered other) {ref : EntityRef} {entity : Entity}
    (hentity : hierarchy.entity? ref = some entity) :
    ∃ same, other.entity? ref = some same ∧ entity.Reordered same := by
  have hsame := h.entity ref
  rw [hentity] at hsame
  generalize other.entity? ref = found at hsame ⊢
  cases hsame with
  | some hsame => exact ⟨_, rfl, hsame⟩

theorem Reordered.above (h : hierarchy.Reordered other) (habove : hierarchy.Above child parent) :
    other.Above child parent := by
  obtain ⟨entity, hentity, hparent, hshown⟩ := habove
  obtain ⟨up, hup⟩ := Option.isSome_iff_exists.1 hshown
  obtain ⟨same, hsame, hreordered⟩ := h.exists_same hentity
  obtain ⟨up', hup', -⟩ := h.exists_same hup
  exact ⟨same, hsame, (hreordered.parents parent).1 hparent,
    Option.isSome_iff_exists.2 ⟨up', hup'⟩⟩

theorem Reordered.finding? (h : hierarchy.Reordered other) (ref : EntityRef) :
    hierarchy.finding? member ref = other.finding? member ref := by
  have hsame := h.entity ref
  rw [Hierarchy.finding?, Hierarchy.finding?]
  generalize hierarchy.entity? ref = found at hsame ⊢
  generalize other.entity? ref = found' at hsame ⊢
  cases hsame with
  | none => rfl
  | some hsame => simp only [Option.bind_some, hsame.name, hsame.kind, h.declared]

/-- Chains lead up to the same entities. -/
theorem Reordered.ascent (h : hierarchy.Reordered other)
    (hascent : hierarchy.Ascent member receiver top) : other.Ascent member receiver top := by
  induction hascent with
  | first habove => exact .first (h.above habove)
  | next _ hsilent habove ih => exact .next ih (h.finding? _ ▸ hsilent) (h.above habove)

theorem Reordered.inherits (h : hierarchy.Reordered other) {finding : Finding}
    (hinherits : hierarchy.Inherits member receiver finding) :
    other.Inherits member receiver finding where
  ne_receiver := hinherits.ne_receiver
  ascent := h.ascent hinherits.ascent
  declares := h.finding? _ ▸ hinherits.declares

theorem Reordered.candidates (h : hierarchy.Reordered other) {ofKind : EntityKind → Prop}
    {refs : List EntityRef} (hrefs : hierarchy.Candidates member receiver ofKind refs) :
    other.Candidates member receiver ofKind refs where
  nodup := hrefs.nodup
  mem_iff ref := by
    rw [hrefs.mem_iff]
    constructor
    · rintro ⟨finding, hinherits, hkind, hdeclares⟩
      exact ⟨finding, h.inherits hinherits, hkind, hdeclares⟩
    · rintro ⟨finding, hinherits, hkind, hdeclares⟩
      exact ⟨finding, h.symm.inherits hinherits, hkind, hdeclares⟩

/-- The order of supertypes decides about the order of candidates only. -/
theorem Reordered.resolve (h : hierarchy.Reordered other) (receiver : EntityRef) (name : String)
    (ref : Name.MemberRef) :
    Option.Rel Binding.Reordered (hierarchy.resolve receiver name ref).binding
      (other.resolve receiver name ref).binding := by
  cases href : ref.isMethod with
  | true =>
    obtain ⟨classes, interfaces, hclasses, hinterfaces, heq⟩ :=
      hierarchy.resolve_method receiver name href
    obtain ⟨classes', interfaces', hclasses', hinterfaces', heq'⟩ :=
      other.resolve_method receiver name href
    have hperm := (h.candidates hclasses).perm hclasses'
    rw [heq, heq', binding_chosenMethod, binding_chosenMethod, hperm.isEmpty_eq]
    apply Binding.ofCandidates_perm
    split
    · exact (h.candidates hinterfaces).perm hinterfaces'
    · exact hperm
  | false =>
    obtain ⟨fields, hfields, heq⟩ := hierarchy.resolve_field receiver name href
    obtain ⟨fields', hfields', heq'⟩ := other.resolve_field receiver name href
    rw [heq, heq', binding_chosenField, binding_chosenField]
    exact Binding.ofCandidates_perm ((h.candidates hfields).perm hfields')

end Hierarchy

/-! ## Missing ends -/

/-- Whether an anomaly says that an end of an inheritance edge is missing. -/
def Anomaly.isMissingEnd : Anomaly → Bool
  | missingChild _ | missingParent _ => true
  | _ => false

/-- An edge that is an anomaly misses an end. -/
theorem isMissingEnd_of_mem {table : Table} {toRef : Nat → EntityRef}
    {elsewhere : EntityId → Option EntityRef} {store : Store} {project : ProjectId}
    {anomaly : Anomaly} (h : anomaly ∈ missingIn (table.edges toRef elsewhere store project)) :
    anomaly.isMissingEnd = true := by
  obtain ⟨edge, hedge, heq⟩ := List.mem_filterMap.1 h
  obtain ⟨row, -, rfl⟩ := List.mem_map.1 hedge
  unfold Table.edge at heq
  simp only at heq
  split at heq
  · cases heq
  · rename_i missing hmissing
    cases heq
    split at hmissing
    · cases hmissing
      rfl
    · split at hmissing
      · cases hmissing
        rfl
      · cases hmissing

namespace Draft

/-- Declarations miss no ends. -/
theorem missing_addRows (origin : Origin) (draft : Draft) (rows : List EntityRow) :
    (rows.foldl (addRow origin) draft).diagnostics.toList.filter Anomaly.isMissingEnd =
      draft.diagnostics.toList.filter Anomaly.isMissingEnd := by
  have hclashes (names : List String) (taken : String → Bool) :
      (clashes taken names).filter Anomaly.isMissingEnd = [] := by
    induction names generalizing taken with
    | nil => rfl
    | cons name names ih =>
      rw [clashes, List.filter_append, ih, List.append_nil]
      split <;> rfl
  rw [toList_addRows, List.filter_append, hclashes, List.append_nil]

end Draft

/-! ## Models of the same libraries -/

namespace LibraryModel

/-- The entity with one id has the entity with another one as a direct supertype. -/
def HasParent (model : LibraryModel) (child parent : EntityId) : Prop :=
  ∃ ref entity up, model.entity? ref = some entity ∧ entity.id = child ∧
    up ∈ entity.parents ∧ model.idOf? up = some parent

/-- Two references come out alike: both denote nothing, or they have the same status and targets
with the same ids in some order. -/
def SameOutcome : (outcome other : Option (Status × List (Option EntityId))) → Prop :=
  Option.Rel fun outcome other => outcome.1 = other.1 ∧ outcome.2.Perm other.2

/-- No name is claimed by two of the rows. -/
def ClaimedOnce (rows : List EntityRow) : Prop :=
  ∀ row ∈ rows, ∀ other ∈ rows, ∀ name ∈ row.claims, name ∈ other.claims → row = other

instance (rows : List EntityRow) : Decidable (ClaimedOnce rows) :=
  inferInstanceAs (Decidable
    (∀ row ∈ rows, ∀ other ∈ rows, ∀ name ∈ row.claims, name ∈ other.claims → row = other))

/-- Copies have the copies of their supertypes, hence supertypes with the same ids. -/
theorem HasParent.copied {copy : Nat → Nat} {small large : LibraryModel}
    {child parent : EntityId} (hsound : small.Sound)
    (hcopies : Table.Copies copy small.draft.table large.draft.table)
    (h : small.HasParent child parent) : large.HasParent child parent := by
  obtain ⟨ref, entity, up, hentity, hid, hup, hparent⟩ := h
  have hshown := (hsound.parents_shown hentity up hup).2
  obtain ⟨slot, rfl, -, hget⟩ := slot_of_entity? hentity
  obtain ⟨copied, hcopied, -, -, hsame, hparents⟩ := hcopies.entity slot entity hget
  refine ⟨.library (copy slot), copied, up.copied copy, hcopied, hsame.trans hid, ?_, ?_⟩
  · rw [hparents]
    exact List.mem_map_of_mem hup
  · rw [idOf?_copied hcopies hshown, hparent]

section Reordered

variable {model other : LibraryModel}

theorem idOf?_reordered (h : model.hierarchy.Reordered other.hierarchy) (ref : EntityRef) :
    model.idOf? ref = other.idOf? ref := by
  have hsame := h.entity ref
  rw [entity?_hierarchy, entity?_hierarchy] at hsame
  rw [idOf?, idOf?]
  generalize model.entity? ref = found at hsame ⊢
  generalize other.entity? ref = found' at hsame ⊢
  cases hsame with
  | none => rfl
  | some hsame => simp only [Option.map_some, hsame.id]

theorem HasParent.reordered {child parent : EntityId}
    (h : model.hierarchy.Reordered other.hierarchy) (hparent : model.HasParent child parent) :
    other.HasParent child parent := by
  obtain ⟨ref, entity, up, hentity, hid, hup, hparent⟩ := hparent
  rw [← entity?_hierarchy] at hentity
  obtain ⟨same, hsame, hreordered⟩ := h.exists_same hentity
  rw [entity?_hierarchy] at hsame
  exact ⟨ref, same, up, hsame, hreordered.id.symm.trans hid, (hreordered.parents up).1 hup,
    idOf?_reordered h up ▸ hparent⟩

theorem id?_reordered (h : model.hierarchy.Reordered other.hierarchy)
    (hfind : ∀ name, other.find? name = model.find? name) (name : String) :
    model.id? name = other.id? name := by
  rw [id?, id?, hfind, funext (idOf?_reordered h)]

/-- References come out alike, with the same targets in some order. -/
theorem outcome?_reordered (h : model.hierarchy.Reordered other.hierarchy)
    (hfind : ∀ name, other.find? name = model.find? name) (hroot : other.rootType = model.rootType)
    (name : String) :
    SameOutcome (model.outcome? name) (other.outcome? name) := by
  have hdispatch : Option.Rel Binding.Reordered (model.dispatch name).binding
      (other.dispatch name).binding := by
    refine dispatch_rel hroot .none ?_ ?_
    · intro name
      rw [hfind]
      cases model.find? name with
      | none => exact ⟨rfl, .none⟩
      | some found => exact ⟨rfl, .some ⟨rfl, .refl _⟩⟩
    · intro ref receiver receiver' _ hreceiver hreceiver'
      rw [hfind, hreceiver, Option.some.injEq] at hreceiver'
      rw [← hreceiver']
      exact h.resolve receiver name ref
  have hids : other.idOf? = model.idOf? := funext fun ref => (idOf?_reordered h ref).symm
  rw [outcome?, outcome?, hids]
  generalize (model.dispatch name).binding = answer at hdispatch ⊢
  generalize (other.dispatch name).binding = answer' at hdispatch ⊢
  cases hdispatch with
  | none => exact .none
  | some hsame => exact .some ⟨hsame.1, hsame.2.map _⟩

end Reordered

section Permutation

variable {rootType : String} {start : Draft} {store : Store}
  {libraries others order order' : List ProjectId}

/-- The same rows wired in another order. -/
theorem reordered_of_perm {rows : List EntityRow}
    (hstart : start.table.Sound .library fun _ => False)
    (hkinds : ∀ row ∈ rows, row.kind ∈ EntityKind.declared) (hperm : order.Perm order') :
    (assembled .virtual rootType start store rows order).hierarchy.Reordered
      (assembled .virtual rootType start store rows order').hierarchy where
  entity ref := by
    rw [entity?_hierarchy, entity?_hierarchy]
    cases ref with
    | project slot => exact .none
    | library slot =>
      simp only [entity?, assembled, Draft.getElem?_inherit_foldl]
      cases (rows.foldl (Draft.addRow .library) start).table.arena[slot]? with
      | none => exact .none
      | some entity =>
        simp only [Option.map_some]
        refine .some ?_
        generalize hlinks : (fun project => parentsIn slot
          ((rows.foldl (Draft.addRow .library) start).table.edges .library (fun _ => none) store
            project)) = links
        obtain ⟨hname, hkind, hid⟩ := entity.addParents_fields (order.flatMap links)
        obtain ⟨hname', hkind', hid'⟩ := entity.addParents_fields (order'.flatMap links)
        refine ⟨hname.trans hname'.symm, hkind.trans hkind'.symm, hid.trans hid'.symm, ?_⟩
        intro parent
        rw [Entity.mem_addParents, Entity.mem_addParents, (hperm.flatMap_right links).mem_iff]
  declared name := by
    have hsame : (assembled .virtual rootType start store rows order).find? name =
        (assembled .virtual rootType start store rows order').find? name := by
      rw [find?, find?, slot?_assembled, slot?_assembled]
    rw [(assembled_sound hstart hkinds).declared?, (assembled_sound hstart hkinds).declared?,
      hsame]

/-- The rows of the same libraries, in another order. -/
theorem mem_declarationsOf_perm (store : Store) (hperm : libraries.Perm others) (row : EntityRow) :
    row ∈ store.declarationsOf libraries ↔ row ∈ store.declarationsOf others :=
  (hperm.flatMap_right _).mem_iff

/-- If no name is claimed twice, the order of the rows does not matter for names. -/
theorem find?_declarationsOf_perm (hperm : libraries.Perm others)
    (hclaims : ClaimedOnce (store.declarationsOf libraries)) (name : String) :
    (store.declarationsOf libraries).find? (name ∈ ·.claims) =
      (store.declarationsOf others).find? (name ∈ ·.claims) := by
  cases hfound : (store.declarationsOf libraries).find? (name ∈ ·.claims) with
  | none =>
    rw [eq_comm, List.find?_eq_none]
    intro row hrow
    exact List.find?_eq_none.1 hfound row ((mem_declarationsOf_perm store hperm row).2 hrow)
  | some row =>
    have hmem := List.mem_of_find?_eq_some hfound
    have hclaim := List.find?_some hfound
    have hsome : ((store.declarationsOf others).find? (name ∈ ·.claims)).isSome :=
      List.find?_isSome.2 ⟨row, (mem_declarationsOf_perm store hperm row).1 hmem, hclaim⟩
    obtain ⟨found, hother⟩ := Option.isSome_iff_exists.1 hsome
    have hmem' := (mem_declarationsOf_perm store hperm found).2 (List.mem_of_find?_eq_some hother)
    have hclaim' := List.find?_some hother
    rw [hother, hclaims row hmem found hmem' name (of_decide_eq_true hclaim)
      (of_decide_eq_true hclaim')]

/-- The rows in another order, wired alike: edges lead from copies to copies. -/
theorem copies_of_perm (hstore : store.Sound)
    (hstart : start.table.Sound .library fun _ => False)
    (htracks : start.table.typeSlots.isSome) (hperm : libraries.Perm others)
    (hnodup : libraries.Nodup) :
    Table.Copies (wiredCopy start.table.size (store.declarationsOf libraries)
        (store.declarationsOf others))
      (assembled .virtual rootType start store (store.declarationsOf libraries)
        order).draft.table
      (assembled .virtual rootType start store (store.declarationsOf others)
        order).draft.table :=
  copies_assembled hstart (kind_of_mem_declarationsOf hstore)
    (nodup_declarationsOf hstore hnodup)
    (recopies_wiredCopy (fun row => (mem_declarationsOf_perm store hperm row).1)
      (idsApart_declarationsOf hstore others))
    fun _ => typeSlot?_copied hstart htracks (mem_declarationsOf_perm store hperm)

/-- Supertypes by id do not depend on the order of the libraries. -/
theorem HasParent.perm (hstore : store.Sound)
    (hstart : start.table.Sound .library fun _ => False)
    (htracks : start.table.typeSlots.isSome) (hperm : libraries.Perm others)
    (hnodup : libraries.Nodup) {child parent : EntityId}
    (h : (assembled .virtual rootType start store (store.declarationsOf libraries)
      libraries).HasParent child parent) :
    (assembled .virtual rootType start store (store.declarationsOf others) others).HasParent
      child parent := by
  have hkinds : ∀ row ∈ store.declarationsOf libraries, row.kind ∈ EntityKind.declared :=
    kind_of_mem_declarationsOf hstore
  have hreordered := h.reordered (reordered_of_perm hstart hkinds hperm)
  exact hreordered.copied (assembled_sound hstart hkinds)
    (copies_of_perm hstore hstart htracks hperm hnodup)

/-- The same ends are missing, in an order of the libraries. -/
theorem missing_perm (hstart : start.table.Sound .library fun _ => False)
    (htracks : start.table.typeSlots.isSome) (hperm : libraries.Perm others) :
    ((assembled .virtual rootType start store (store.declarationsOf libraries)
        libraries).anomalies.filter Anomaly.isMissingEnd).Perm
      ((assembled .virtual rootType start store (store.declarationsOf others)
        others).anomalies.filter Anomaly.isMissingEnd) := by
  have hindex := typeSlot?_copied hstart htracks
    (mem_declarationsOf_perm store hperm)
  have hmissing (rows : List EntityRow) (order : List ProjectId) :
      (assembled .virtual rootType start store rows order).anomalies.filter
          Anomaly.isMissingEnd =
        start.diagnostics.toList.filter Anomaly.isMissingEnd ++ order.flatMap fun project =>
          missingIn ((rows.foldl (Draft.addRow .library) start).table.edges .library
            (fun _ => none) store project) := by
    rw [anomalies, assembled, Draft.toList_inherit_foldl, List.filter_append,
      Draft.missing_addRows]
    congr 1
    rw [List.filter_eq_self]
    intro anomaly hanomaly
    obtain ⟨project, -, hmem⟩ := List.mem_flatMap.1 hanomaly
    exact isMissingEnd_of_mem hmem
  rw [hmissing, hmissing]
  simp only [edges_copied hindex, missingIn_map]
  exact (hperm.flatMap_right _).append_left _

/-- If no name is claimed twice, libraries in another order, wired alike, make a replica, in which
names lead to the copies that edges lead to. -/
theorem replicated_of_perm (rootType : String) (order : List ProjectId) (hstore : store.Sound)
    (hstart : start.table.Sound .library fun _ => False)
    (htracks : start.table.typeSlots.isSome) (hperm : libraries.Perm others)
    (hnodup : libraries.Nodup) (hclaims : ClaimedOnce (store.declarationsOf libraries)) :
    Replicated
        (wiredCopy start.table.size (store.declarationsOf libraries)
          (store.declarationsOf others))
        (firstCopy start.table.size (store.declarationsOf libraries)
          (store.declarationsOf others))
        (assembled .virtual rootType start store (store.declarationsOf libraries) order)
        (assembled .virtual rootType start store (store.declarationsOf others) order) ∧
      ∀ slot < start.table.size + (store.declarationsOf libraries).length,
        firstCopy start.table.size (store.declarationsOf libraries)
            (store.declarationsOf others) slot =
          wiredCopy start.table.size (store.declarationsOf libraries)
            (store.declarationsOf others) slot := by
  have hforward : ∀ row ∈ store.declarationsOf libraries, row ∈ store.declarationsOf others :=
    fun row => (mem_declarationsOf_perm store hperm row).1
  have hids := idsApart_declarationsOf hstore others
  refine ⟨?_, ?_⟩
  · exact replicated hstart (kind_of_mem_declarationsOf hstore)
      (nodup_declarationsOf hstore hnodup) (mem_declarationsOf_perm store hperm)
      (find?_declarationsOf_perm hperm hclaims) (recopies_wiredCopy hforward hids)
      fun _ => typeSlot?_copied hstart htracks (mem_declarationsOf_perm store hperm)
  · intro slot hslot
    by_cases hold : slot < start.table.size
    · rw [firstCopy, wiredCopy, if_pos hold, if_pos hold]
    · obtain ⟨i, rfl⟩ := Nat.exists_eq_add_of_le (Nat.le_of_not_lt hold)
      have hrow := List.getElem?_eq_getElem (Nat.lt_of_add_lt_add_left hslot)
      apply firstCopy_eq_wiredCopy hrow hforward hids
      intro _
      exact List.nodup_iff_count_le_one.1
        (nodup_declarationsOf hstore (hperm.nodup hnodup)) _

/-- If no name is claimed twice, the order of the libraries does not matter for lookups. -/
theorem lookups_perm (hstore : store.Sound)
    (hstart : start.table.Sound .library fun _ => False)
    (htracks : start.table.typeSlots.isSome) (hperm : libraries.Perm others)
    (hnodup : libraries.Nodup) (hclaims : ClaimedOnce (store.declarationsOf libraries))
    (name : String) :
    let first := assembled .virtual rootType start store (store.declarationsOf libraries) libraries
    let second := assembled .virtual rootType start store (store.declarationsOf others) others
    first.id? name = second.id? name ∧
      SameOutcome (first.outcome? name) (second.outcome? name) := by
  intro first second
  -- Between the two models stands the one with the rows of the first, wired like the second.
  let between := assembled .virtual rootType start store (store.declarationsOf libraries) others
  have hreordered : first.hierarchy.Reordered between.hierarchy :=
    reordered_of_perm hstart (kind_of_mem_declarationsOf hstore) hperm
  have hfind (name : String) : between.find? name = first.find? name := by
    rw [find?, find?, slot?_assembled, slot?_assembled]
  obtain ⟨hreplicated, hcopy⟩ := replicated_of_perm rootType others
    hstore hstart htracks hperm hnodup hclaims
  have hsame : second.outcome? name = between.outcome? name := by
    apply hreplicated.outcome?
    intro ref _ slot hslot
    apply hcopy slot
    rw [← size_assembled]
    exact hreplicated.sound.slot_lt _ slot hslot
  refine ⟨(id?_reordered hreordered hfind name).trans (hreplicated.id? name).symm, ?_⟩
  rw [hsame]
  exact outcome?_reordered hreordered hfind rfl name

end Permutation

/-- Loading libraries in another order, in one go on top of nothing, leaves every entity its
supertypes by id, and the same ends of inheritance are missing as often. If no name is claimed by
two declarations, names denote the same entities by id, and references come out alike with the
same targets. -/
theorem library_order_is_immaterial {store : Store} (hstore : store.Reached) {rootType : String}
    {libraries others : List ProjectId} (hperm : libraries.Perm others)
    (hnodup : libraries.Nodup) {first second : LibraryModel} {desk₁ desk₂ desk₁' desk₂' : Desk}
    (hdesk₁ : desk₁.corpus.store = store) (hdesk₂ : desk₂.corpus.store = store)
    (hfirst : ((empty .virtual).withRootType rootType).loaded libraries desk₁ =
      .ok first desk₁')
    (hsecond : ((empty .virtual).withRootType rootType).loaded others desk₂ =
      .ok second desk₂') :
    (∀ child parent, first.HasParent child parent ↔ second.HasParent child parent) ∧
    (first.anomalies.filter Anomaly.isMissingEnd).Perm
      (second.anomalies.filter Anomaly.isMissingEnd) ∧
    (ClaimedOnce (store.declarationsOf libraries) → ∀ name,
      first.id? name = second.id? name ∧
        SameOutcome (first.outcome? name) (second.outcome? name)) := by
  have hsound := hstore.sound
  have hstart : ((empty .virtual).withRootType rootType).draft.table.Sound .library
      fun _ => False := prepare_sound .empty .virtual
  have htracks : ((empty .virtual).withRootType rootType).draft.table.typeSlots.isSome := rfl
  have hfirst := eq_assembled_of_loaded hfirst
  have hsecond := eq_assembled_of_loaded hsecond
  rw [hdesk₁] at hfirst
  rw [hdesk₂] at hsecond
  rw [hfirst, hsecond]
  refine ⟨?_, missing_perm hstart htracks hperm, ?_⟩
  · intro child parent
    constructor
    · exact HasParent.perm hsound hstart htracks hperm hnodup
    · exact HasParent.perm hsound hstart htracks hperm.symm (hperm.nodup hnodup)
  · exact lookups_perm hsound hstart htracks hperm hnodup

/-- The class `b.Sub` of one library implements two interfaces that declare the same method. One
of them is another library's, which has the row that says so. Each library also has an edge with
an end that is nowhere. -/
def crossedStore : Store :=
  ((((Store.ofRows
    [{ project := ⟨10⟩, name := "a.I", kind := .interface, id := ⟨1⟩ },
     { project := ⟨10⟩, name := "a.I.m", kind := .method, params := some "()", id := ⟨2⟩ },
     { project := ⟨20⟩, name := "b.J", kind := .interface, id := ⟨3⟩ },
     { project := ⟨20⟩, name := "b.J.m", kind := .method, params := some "()", id := ⟨4⟩ },
     { project := ⟨20⟩, name := "b.Sub", kind := .class, id := ⟨5⟩ }]).relate
    { kind := .implements, left := ⟨5⟩, right := ⟨1⟩, project := ⟨10⟩ }).relate
    { kind := .extends, left := ⟨98⟩, right := ⟨1⟩, project := ⟨10⟩ }).relate
    { kind := .implements, left := ⟨5⟩, right := ⟨3⟩, project := ⟨20⟩ }).relate
    { kind := .extends, left := ⟨5⟩, right := ⟨99⟩, project := ⟨20⟩ }

/-- Supertypes, missing ends and candidates come in another order, and are the same. -/
theorem crossed_libraries_in_both_orders :
    let desk : Desk := { corpus := { store := crossedStore } }
    crossedStore.Reached ∧ List.Perm [(⟨10⟩ : ProjectId), ⟨20⟩] [⟨20⟩, ⟨10⟩] ∧
      [(⟨10⟩ : ProjectId), ⟨20⟩].Nodup ∧
      ClaimedOnce (crossedStore.declarationsOf [⟨10⟩, ⟨20⟩]) ∧ ∃ first second desk₁ desk₂,
        ((empty .virtual).withRootType "Root").loaded [⟨10⟩, ⟨20⟩] desk = .ok first desk₁ ∧
        ((empty .virtual).withRootType "Root").loaded [⟨20⟩, ⟨10⟩] desk = .ok second desk₂ ∧
        first.parentIds "b.Sub" = [some ⟨1⟩, some ⟨3⟩] ∧
        second.parentIds "b.Sub" = [some ⟨3⟩, some ⟨1⟩] ∧
        (first.HasParent ⟨5⟩ ⟨1⟩ ↔ second.HasParent ⟨5⟩ ⟨1⟩) ∧
        first.anomalies = [.missingChild ⟨98⟩, .missingParent ⟨99⟩] ∧
        second.anomalies = [.missingParent ⟨99⟩, .missingChild ⟨98⟩] ∧
        (first.anomalies.filter Anomaly.isMissingEnd).Perm
          (second.anomalies.filter Anomaly.isMissingEnd) ∧
        first.outcome? "b.Sub.m()" = some (.ambiguous, [some ⟨2⟩, some ⟨4⟩]) ∧
        second.outcome? "b.Sub.m()" = some (.ambiguous, [some ⟨4⟩, some ⟨2⟩]) ∧
        SameOutcome (first.outcome? "b.Sub.m()") (second.outcome? "b.Sub.m()") := by
  intro desk
  have hreached : crossedStore.Reached :=
    .relate _ (.relate _ (.relate _ (.relate _ (Store.reached_ofRows _))))
  have hperm : List.Perm [(⟨10⟩ : ProjectId), ⟨20⟩] [⟨20⟩, ⟨10⟩] := .swap _ _ _
  have hnodup : [(⟨10⟩ : ProjectId), ⟨20⟩].Nodup := by decide
  have hclaims : ClaimedOnce (crossedStore.declarationsOf [⟨10⟩, ⟨20⟩]) := by decide +kernel
  have hfirst : succeeds (((empty .virtual).withRootType "Root").loaded [⟨10⟩, ⟨20⟩] desk) =
      true := by decide +kernel
  have hsecond : succeeds (((empty .virtual).withRootType "Root").loaded [⟨20⟩, ⟨10⟩] desk) =
      true := by decide +kernel
  obtain ⟨first, desk₁, hfirst⟩ := exists_ok_of_succeeds hfirst
  obtain ⟨second, desk₂, hsecond⟩ := exists_ok_of_succeeds hsecond
  have hshown : first.parentIds "b.Sub" = [some ⟨1⟩, some ⟨3⟩] ∧
      first.anomalies = [.missingChild ⟨98⟩, .missingParent ⟨99⟩] ∧
        first.outcome? "b.Sub.m()" = some (.ambiguous, [some ⟨2⟩, some ⟨4⟩]) := by
    rw [eq_assembled_of_loaded hfirst]
    decide +kernel
  have hshown' : second.parentIds "b.Sub" = [some ⟨3⟩, some ⟨1⟩] ∧
      second.anomalies = [.missingParent ⟨99⟩, .missingChild ⟨98⟩] ∧
        second.outcome? "b.Sub.m()" = some (.ambiguous, [some ⟨4⟩, some ⟨2⟩]) := by
    rw [eq_assembled_of_loaded hsecond]
    decide +kernel
  obtain ⟨hparents, hanomalies, houtcome⟩ := hshown
  obtain ⟨hparents', hanomalies', houtcome'⟩ := hshown'
  have hdesk : desk.corpus.store = crossedStore := by with_reducible rfl
  obtain ⟨hsame, hmissing, hlookups⟩ := library_order_is_immaterial hreached hperm hnodup hdesk
    hdesk hfirst hsecond
  exact ⟨hreached, hperm, hnodup, hclaims, first, second, desk₁, desk₂, hfirst, hsecond, hparents,
    hparents', hsame ⟨5⟩ ⟨1⟩, hanomalies, hanomalies', hmissing, houtcome, houtcome',
    (hlookups hclaims "b.Sub.m()").2⟩

end LibraryModel

end Referent
