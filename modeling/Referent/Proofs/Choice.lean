import Referent.Proofs.Dispatch

/-!
# How the choice among inherited declarations comes out

Which declarations a receiver inherits says what a member of it resolves to. It resolves to the
one declaration that counts (`Sole`), and several candidates are an anomaly exactly if they are
methods of classes or fields (`Contested`). Lists of candidates differ in order only, so neither
depends on the list that the walk happens to give (`Candidates.perm`).

A project looks for the members of a receiver among all types if it has the receiver itself, and
otherwise among the library's (`ProjectModel.Sees`). Dispatch comes to a choice or else to at
most one declaration and no anomaly (`ProjectModel.dispatch_cases`).
-/

namespace Referent

/-- Where nothing is missing, `filterMap` loses nothing. -/
theorem map_some_filterMap {f : α → Option β} {as : List α} (h : ∀ a ∈ as, (f a).isSome) :
    (as.filterMap f).map some = as.map f := by
  rw [List.map_filterMap_some_eq_filter_map_isSome, List.filter_eq_self]
  intro b hb
  obtain ⟨a, ha, rfl⟩ := List.mem_map.1 hb
  exact h a ha

namespace Hierarchy

variable {hierarchy : Hierarchy} {member name : String} {receiver target : EntityRef}
  {ofKind : EntityKind → Prop} {refs others targets : List EntityRef} {ref : Name.MemberRef}

/-- What can be seen is named without gaps. -/
theorem namesOf_of_visible (h : ∀ target ∈ targets, (hierarchy.entity? target).isSome) :
    (hierarchy.namesOf targets).map some =
      targets.map fun target => (hierarchy.entity? target).map (·.name) := by
  apply map_some_filterMap
  intro target htarget
  rw [Option.isSome_map]
  exact h target htarget

/-! ## Candidates -/

/-- Candidates are the same in any list, up to order. -/
theorem Candidates.perm (h : hierarchy.Candidates member receiver ofKind refs)
    (h' : hierarchy.Candidates member receiver ofKind others) : refs.Perm others := by
  rw [List.perm_ext_iff_of_nodup h.nodup h'.nodup]
  intro ref
  rw [h.mem_iff, h'.mem_iff]

theorem Candidates.eq_nil (h : hierarchy.Candidates member receiver ofKind refs)
    (h' : hierarchy.Candidates member receiver ofKind []) : refs = [] :=
  List.perm_nil.1 (h.perm h')

theorem Candidates.eq_singleton (h : hierarchy.Candidates member receiver ofKind refs)
    (h' : hierarchy.Candidates member receiver ofKind [target]) : refs = [target] :=
  List.perm_singleton.1 (h.perm h')

theorem Candidates.length_eq (h : hierarchy.Candidates member receiver ofKind refs)
    (h' : hierarchy.Candidates member receiver ofKind others) : refs.length = others.length :=
  (h.perm h').length_eq

theorem Candidates.eq_nil_iff (h : hierarchy.Candidates member receiver ofKind refs) :
    refs = [] ↔ ∀ finding, hierarchy.Inherits member receiver finding → ¬ ofKind finding.kind := by
  rw [List.eq_nil_iff_forall_not_mem]
  constructor
  · intro hnone finding hinherits hkind
    exact hnone _ ((h.mem_iff _).2 ⟨finding, hinherits, hkind, rfl⟩)
  · intro hnone target htarget
    obtain ⟨finding, hinherits, hkind, -⟩ := (h.mem_iff target).1 htarget
    exact hnone finding hinherits hkind

/-- A method is chosen among candidates in classes and in interfaces. -/
theorem resolveMethod_candidates (hierarchy : Hierarchy) (receiver : EntityRef)
    (name member : String) : ∃ classes interfaces,
      hierarchy.Candidates member receiver (· ≠ .interface) classes ∧
      hierarchy.Candidates member receiver (· = .interface) interfaces ∧
      hierarchy.resolveMethod receiver name member =
        hierarchy.chosenMethod name classes interfaces := by
  have hclasses := hierarchy.candidates_declarations member receiver (· != .interface)
  have hinterfaces := hierarchy.candidates_declarations member receiver (· == .interface)
  exact ⟨_, _, by simpa using hclasses, by simpa using hinterfaces, resolveMethod_eq ..⟩

/-- A field is chosen among all candidates. -/
theorem resolveField_candidates (hierarchy : Hierarchy) (receiver : EntityRef)
    (name member : String) : ∃ fields,
      hierarchy.Candidates member receiver (fun _ => True) fields ∧
      hierarchy.resolveField receiver name member = hierarchy.chosenField name fields := by
  have hfields := hierarchy.candidates_declarations member receiver (fun _ => true)
  refine ⟨_, ?_, resolveField_eq ..⟩
  simpa using hfields

theorem resolve_method (hierarchy : Hierarchy) (receiver : EntityRef) (name : String)
    (href : ref.isMethod = true) : ∃ classes interfaces,
      hierarchy.Candidates ref.member receiver (· ≠ .interface) classes ∧
      hierarchy.Candidates ref.member receiver (· = .interface) interfaces ∧
      hierarchy.resolve receiver name ref = hierarchy.chosenMethod name classes interfaces := by
  rw [resolve, if_pos href]
  exact hierarchy.resolveMethod_candidates receiver name ref.member

theorem resolve_field (hierarchy : Hierarchy) (receiver : EntityRef) (name : String)
    (href : ref.isMethod = false) : ∃ fields,
      hierarchy.Candidates ref.member receiver (fun _ => True) fields ∧
      hierarchy.resolve receiver name ref = hierarchy.chosenField name fields := by
  rw [resolve, if_neg (by simp [href])]
  exact hierarchy.resolveField_candidates receiver name ref.member

/-! ## The one declaration that counts -/

/-- Of the declarations that the receiver inherits, this is the one that counts: for a method
those in classes come before those in interfaces, and there must be no other. -/
inductive Sole (hierarchy : Hierarchy) (ref : Name.MemberRef) (receiver target : EntityRef) :
    Prop
  | inClass : ref.isMethod = true →
      hierarchy.Candidates ref.member receiver (· ≠ .interface) [target] →
      Sole hierarchy ref receiver target
  | inInterface : ref.isMethod = true →
      hierarchy.Candidates ref.member receiver (· ≠ .interface) [] →
      hierarchy.Candidates ref.member receiver (· = .interface) [target] →
      Sole hierarchy ref receiver target
  | field : ref.isMethod = false →
      hierarchy.Candidates ref.member receiver (fun _ => True) [target] →
      Sole hierarchy ref receiver target

theorem chosenMethod_eq_resolved {classes interfaces : List EntityRef} :
    (hierarchy.chosenMethod name classes interfaces).binding = some (.resolved target) ↔
      classes = [target] ∨ classes = [] ∧ interfaces = [target] := by
  match classes, interfaces with
  | [], [] => simp [chosenMethod]
  | [], [_] => simp [chosenMethod]
  | [], _ :: _ :: _ => simp [chosenMethod]
  | [_], _ => simp [chosenMethod]
  | _ :: _ :: _, _ => simp [chosenMethod]

theorem chosenField_eq_resolved {fields : List EntityRef} :
    (hierarchy.chosenField name fields).binding = some (.resolved target) ↔
      fields = [target] := by
  match fields with
  | [] => simp [chosenField]
  | [_] => simp [chosenField]
  | _ :: _ :: _ => simp [chosenField]

/-- A member resolves to the one declaration that counts, and to nothing else. -/
theorem resolve_eq_resolved_iff :
    (hierarchy.resolve receiver name ref).binding = some (.resolved target) ↔
      hierarchy.Sole ref receiver target := by
  cases href : ref.isMethod with
  | true =>
    obtain ⟨classes, interfaces, hclasses, hinterfaces, heq⟩ :=
      hierarchy.resolve_method receiver name href
    rw [heq, chosenMethod_eq_resolved]
    constructor
    · rintro (rfl | ⟨rfl, rfl⟩)
      · exact .inClass href hclasses
      · exact .inInterface href hclasses hinterfaces
    · intro hsole
      cases hsole with
      | inClass _ hone => exact .inl (hclasses.eq_singleton hone)
      | inInterface _ hnone hone =>
        exact .inr ⟨hclasses.eq_nil hnone, hinterfaces.eq_singleton hone⟩
      | field hfield _ =>
        rw [href] at hfield
        cases hfield
  | false =>
    obtain ⟨fields, hfields, heq⟩ := hierarchy.resolve_field receiver name href
    rw [heq, chosenField_eq_resolved]
    constructor
    · rintro rfl
      exact .field href hfields
    · intro hsole
      cases hsole with
      | inClass hmethod _ =>
        rw [href] at hmethod
        cases hmethod
      | inInterface hmethod _ _ =>
        rw [href] at hmethod
        cases hmethod
      | field _ hone => exact hfields.eq_singleton hone

/-! ## Whether anything is inherited -/

/-- The receiver inherits the member from one type or more. -/
def HasInherited (hierarchy : Hierarchy) (member : String) (receiver : EntityRef) : Prop :=
  ∃ finding, hierarchy.Inherits member receiver finding

theorem chosenMethod_eq_none {classes interfaces : List EntityRef} :
    (hierarchy.chosenMethod name classes interfaces).binding = none ↔
      classes = [] ∧ interfaces = [] := by
  match classes, interfaces with
  | [], [] => simp [chosenMethod]
  | [], [_] => simp [chosenMethod]
  | [], _ :: _ :: _ => simp [chosenMethod]
  | [_], _ => simp [chosenMethod]
  | _ :: _ :: _, _ => simp [chosenMethod]

theorem chosenField_eq_none {fields : List EntityRef} :
    (hierarchy.chosenField name fields).binding = none ↔ fields = [] := by
  match fields with
  | [] => simp [chosenField]
  | [_] => simp [chosenField]
  | _ :: _ :: _ => simp [chosenField]

/-- A member resolves to nothing exactly if none is inherited. -/
theorem resolve_eq_none_iff :
    (hierarchy.resolve receiver name ref).binding = none ↔
      ¬ hierarchy.HasInherited ref.member receiver := by
  cases href : ref.isMethod with
  | true =>
    obtain ⟨classes, interfaces, hclasses, hinterfaces, heq⟩ :=
      hierarchy.resolve_method receiver name href
    rw [heq, chosenMethod_eq_none, hclasses.eq_nil_iff, hinterfaces.eq_nil_iff]
    constructor
    · rintro ⟨hnoClass, hnoInterface⟩ ⟨finding, hinherits⟩
      exact hnoClass finding hinherits (hnoInterface finding hinherits)
    · intro hnone
      exact ⟨fun finding hinherits => absurd ⟨finding, hinherits⟩ hnone,
        fun finding hinherits => absurd ⟨finding, hinherits⟩ hnone⟩
  | false =>
    obtain ⟨fields, hfields, heq⟩ := hierarchy.resolve_field receiver name href
    rw [heq, chosenField_eq_none, hfields.eq_nil_iff]
    simp only [not_true_eq_false, imp_false, HasInherited, not_exists]

/-- Without supertypes nothing is inherited. -/
theorem not_hasInherited_of_no_parents {entity : Entity}
    (hentity : hierarchy.entity? receiver = some entity) (hparents : entity.parents = []) :
    ¬ hierarchy.HasInherited ref.member receiver :=
  resolve_eq_none_iff.1 (resolve_of_no_parents hentity hparents "" ref)

/-! ## Several declarations -/

/-- Several declarations of which the language would have one: methods in classes, or fields.
The last argument is the anomaly that says so, given the names of the candidates. -/
inductive Contested (hierarchy : Hierarchy) (name : String) (ref : Name.MemberRef)
    (receiver : EntityRef) (targets : List EntityRef) : (List String → Anomaly) → Prop
  | methods : ref.isMethod = true → 2 ≤ targets.length →
      hierarchy.Candidates ref.member receiver (· ≠ .interface) targets →
      Contested hierarchy name ref receiver targets (.multipleClassCandidates name)
  | fields : ref.isMethod = false → 2 ≤ targets.length →
      hierarchy.Candidates ref.member receiver (fun _ => True) targets →
      Contested hierarchy name ref receiver targets (.ambiguousField name)

/-- Several candidates are distinct. -/
theorem resolve_ambiguous
    (h : (hierarchy.resolve receiver name ref).binding = some (.ambiguous targets)) :
    2 ≤ targets.length ∧ targets.Nodup := by
  cases href : ref.isMethod with
  | true =>
    obtain ⟨classes, interfaces, hclasses, hinterfaces, heq⟩ :=
      hierarchy.resolve_method receiver name href
    rw [heq] at h
    match classes, interfaces with
    | [], [] => cases h
    | [], [_] => cases h
    | [], _ :: _ :: _ =>
      cases h
      exact ⟨by simp, hinterfaces.nodup⟩
    | [_], _ => cases h
    | _ :: _ :: _, _ =>
      cases h
      exact ⟨by simp, hclasses.nodup⟩
  | false =>
    obtain ⟨fields, hfields, heq⟩ := hierarchy.resolve_field receiver name href
    rw [heq] at h
    match fields with
    | [] => cases h
    | [_] => cases h
    | _ :: _ :: _ =>
      cases h
      exact ⟨by simp, hfields.nodup⟩

/-- An anomaly comes with the candidates it is about. -/
theorem contested_of_anomaly {anomaly : Anomaly}
    (h : (hierarchy.resolve receiver name ref).anomaly = some anomaly) :
    ∃ targets about, (hierarchy.resolve receiver name ref).binding = some (.ambiguous targets) ∧
      hierarchy.Contested name ref receiver targets about ∧
      anomaly = about (hierarchy.namesOf targets) := by
  cases href : ref.isMethod with
  | true =>
    obtain ⟨classes, interfaces, hclasses, -, heq⟩ := hierarchy.resolve_method receiver name href
    rw [heq] at h ⊢
    match classes, interfaces with
    | [], [] => cases h
    | [], [_] => cases h
    | [], _ :: _ :: _ => cases h
    | [_], _ => cases h
    | first :: second :: rest, _ =>
      cases h
      exact ⟨first :: second :: rest, _, rfl, .methods href (by simp) hclasses, rfl⟩
  | false =>
    obtain ⟨fields, hfields, heq⟩ := hierarchy.resolve_field receiver name href
    rw [heq] at h ⊢
    match fields with
    | [] => cases h
    | [_] => cases h
    | first :: second :: rest =>
      cases h
      exact ⟨first :: second :: rest, _, rfl, .fields href (by simp) hfields, rfl⟩

/-- Contested candidates come with an anomaly. -/
theorem Contested.anomaly {about : List String → Anomaly}
    (h : hierarchy.Contested name ref receiver targets about) :
    ((hierarchy.resolve receiver name ref).anomaly).isSome = true := by
  cases h with
  | methods href hseveral hcandidates =>
    obtain ⟨classes, interfaces, hclasses, -, heq⟩ := hierarchy.resolve_method receiver name href
    have hlength := hclasses.length_eq hcandidates
    rw [heq]
    match classes, interfaces with
    | [], _ | [_], _ =>
      simp only [List.length_nil, List.length_singleton] at hlength
      omega
    | _ :: _ :: _, _ => rfl
  | fields href hseveral hcandidates =>
    obtain ⟨fields, hfields, heq⟩ := hierarchy.resolve_field receiver name href
    have hlength := hfields.length_eq hcandidates
    rw [heq]
    match fields with
    | [] | [_] =>
      simp only [List.length_nil, List.length_singleton] at hlength
      omega
    | _ :: _ :: _ => rfl

/-- Where nothing is found, nothing is noted. -/
theorem anomaly_of_no_binding (h : (hierarchy.resolve receiver name ref).binding = none) :
    (hierarchy.resolve receiver name ref).anomaly = none := by
  cases hanomaly : (hierarchy.resolve receiver name ref).anomaly with
  | none => rfl
  | some anomaly =>
    obtain ⟨targets, about, hbinding, -⟩ := contested_of_anomaly hanomaly
    rw [h] at hbinding
    cases hbinding

end Hierarchy

/-! ## Where a project looks -/

namespace ProjectModel

/-- The types among which the members of a receiver are looked for, and the receiver: all types
if the project has the receiver, and otherwise the library's. -/
inductive Sees (model : ProjectModel) (receiver : String) : Hierarchy → EntityRef → Prop
  | own {ref} : model.find? receiver = some ref → Sees model receiver model.hierarchy ref
  | shared {ref} : model.find? receiver = none → model.library.find? receiver = some ref →
      Sees model receiver model.library.hierarchy ref

variable {model : ProjectModel} {name receiver : String} {ref : Name.MemberRef}
  {view : Hierarchy} {found : EntityRef}

theorem Sees.unique {view' : Hierarchy} {found' : EntityRef} (h : model.Sees receiver view found)
    (h' : model.Sees receiver view' found') : view = view' ∧ found = found' := by
  cases h with
  | own hfind =>
    cases h' with
    | own hfind' =>
      rw [hfind] at hfind'
      cases hfind'
      exact ⟨rfl, rfl⟩
    | shared hfree _ =>
      rw [hfind] at hfree
      cases hfree
  | shared hfree hfind =>
    cases h' with
    | own hfind' =>
      rw [hfree] at hfind'
      cases hfind'
    | shared _ hfind' =>
      rw [hfind] at hfind'
      cases hfind'
      exact ⟨rfl, rfl⟩

end ProjectModel

theorem LibraryModel.dispatch_of_known {model : LibraryModel} {name : String}
    {ref : Name.MemberRef} {receiver : EntityRef} (hfree : model.find? name = none)
    (href : Name.MemberRef.ofName? name = some ref)
    (hinit : ref.isConstructorOrInitializer = false) (harray : Name.isArray ref.receiver = false)
    (hreceiver : model.find? ref.receiver = some receiver) :
    model.dispatch name = model.hierarchy.resolve receiver name ref := by
  simp only [dispatch, hfree, href, hinit, harray, hreceiver, Bool.false_eq_true, if_false]

/-- Dispatch over a library comes to a choice, or to at most one declaration and no anomaly. -/
theorem LibraryModel.dispatch_cases (model : LibraryModel) (name : String) :
    (∃ ref receiver, Name.MemberRef.ofName? name = some ref ∧
        ref.isConstructorOrInitializer = false ∧ Name.isArray ref.receiver = false ∧
        model.find? ref.receiver = some receiver ∧
        model.dispatch name = model.hierarchy.resolve receiver name ref) ∨
      ∃ target : Option EntityRef,
        model.dispatch name = { binding := target.map Binding.resolved } := by
  cases hfind : model.find? name with
  | some found =>
    right
    exact ⟨some found, by simp only [dispatch, hfind, Option.map_some]⟩
  | none =>
    cases href : Name.MemberRef.ofName? name with
    | none =>
      right
      exact ⟨none, by simp only [dispatch, hfind, href, Option.map_none]⟩
    | some ref =>
      cases hinit : ref.isConstructorOrInitializer with
      | true =>
        right
        exact ⟨none, by simp only [dispatch, hfind, href, hinit, if_true, Option.map_none]⟩
      | false =>
        cases harray : Name.isArray ref.receiver with
        | true =>
          right
          refine ⟨model.find? (Name.memberName model.rootType ref.member), ?_⟩
          simp only [dispatch, hfind, href, hinit, harray, Bool.false_eq_true, if_false, if_true]
        | false =>
          cases hreceiver : model.find? ref.receiver with
          | none =>
            right
            exact ⟨none, by simp only [dispatch, hfind, href, hinit, harray, hreceiver,
              Bool.false_eq_true, if_false, Option.map_none]⟩
          | some receiver =>
            left
            exact ⟨ref, receiver, rfl, hinit, harray, hreceiver,
              dispatch_of_known hfind href hinit harray hreceiver⟩

namespace ProjectModel

variable {model : ProjectModel} {name receiver : String} {ref : Name.MemberRef}
  {view : Hierarchy} {found : EntityRef}

theorem dispatch_of_sees (hlibrary : model.library.find? name = none)
    (href : Name.MemberRef.ofName? name = some ref)
    (hinit : ref.isConstructorOrInitializer = false) (harray : Name.isArray ref.receiver = false)
    (hsees : model.Sees ref.receiver view found) :
    model.dispatch name = view.resolve found name ref := by
  cases hsees with
  | own hfind => exact dispatch_of_known href hinit harray hfind
  | shared hfree hfind =>
    rw [dispatch_of_unknown href hinit harray hfree]
    exact LibraryModel.dispatch_of_known hlibrary href hinit harray hfind

/-- Dispatch comes to a choice, or to at most one declaration and no anomaly. -/
theorem dispatch_cases (model : ProjectModel) (name : String) :
    (∃ ref view found, Name.MemberRef.ofName? name = some ref ∧
        ref.isConstructorOrInitializer = false ∧ Name.isArray ref.receiver = false ∧
        model.Sees ref.receiver view found ∧
        model.dispatch name = view.resolve found name ref) ∨
      ∃ target : Option EntityRef,
        model.dispatch name = { binding := target.map Binding.resolved } := by
  cases href : Name.MemberRef.ofName? name with
  | none =>
    right
    exact ⟨none, by simp only [dispatch, href, Option.map_none]⟩
  | some ref =>
    cases hinit : ref.isConstructorOrInitializer with
    | true =>
      right
      exact ⟨none, by simp only [dispatch, href, hinit, if_true, Option.map_none]⟩
    | false =>
      cases harray : Name.isArray ref.receiver with
      | true =>
        right
        refine ⟨model.declared? (Name.memberName model.library.rootType ref.member), ?_⟩
        simp only [dispatch, href, hinit, harray, Bool.false_eq_true, if_false, if_true]
      | false =>
        cases hreceiver : model.find? ref.receiver with
        | some found =>
          left
          exact ⟨ref, _, found, rfl, hinit, harray, .own hreceiver,
            dispatch_of_known href hinit harray hreceiver⟩
        | none =>
          rw [dispatch_of_unknown href hinit harray hreceiver]
          rcases model.library.dispatch_cases name with
            ⟨ref', found, href', hinit', harray', hfind, heq⟩ | hone
          · left
            rw [href] at href'
            cases href'
            exact ⟨ref, _, found, rfl, hinit, harray, .shared hreceiver hfind, heq⟩
          · exact .inr hone

end ProjectModel

end Referent
