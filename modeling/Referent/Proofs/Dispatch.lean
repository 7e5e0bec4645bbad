import Referent.Proofs.Models
import Referent.Proofs.Walk

/-!
# What dispatch decides

Dispatch decides for declarations: whatever branch it takes, its targets are what some name
denotes in the project or in the library, and it never answers with a placeholder. Which branch
it takes on a member of a type depends on whether the project has a type under the receiver's
name (`dispatch_of_known`, `dispatch_of_unknown`).
-/

namespace Referent

/-! ## Targets of dispatch -/

theorem Binding.ofCandidates_eq_some {refs : List EntityRef} {binding : Binding}
    (h : ofCandidates refs = some binding) :
    binding.status ≠ .unresolved ∧ binding.targets = refs := by
  match refs with
  | [] => cases h
  | [ref] =>
    cases h
    exact ⟨by simp [status], rfl⟩
  | first :: second :: rest =>
    cases h
    exact ⟨by simp [status], rfl⟩

/-- Candidates are declarations. -/
theorem Hierarchy.Candidates.declared {hierarchy : Hierarchy} {member : String}
    {receiver : EntityRef} {ofKind : EntityKind → Prop} {refs : List EntityRef}
    (h : hierarchy.Candidates member receiver ofKind refs) :
    ∀ target ∈ refs, ∃ other, hierarchy.declared? other = some target := by
  intro target htarget
  obtain ⟨finding, hinherits, -, rfl⟩ := (h.mem_iff target).1 htarget
  have hfinding := hinherits.declares
  simp only [finding?, Option.bind_eq_some_iff, Option.map_eq_some_iff] at hfinding
  obtain ⟨entity, -, declaration, hdeclaration, heq⟩ := hfinding
  exact ⟨_, by rw [hdeclaration, ← heq]⟩

/-- Dispatch decides for declarations. -/
theorem Hierarchy.resolve_targets {hierarchy : Hierarchy} {receiver : EntityRef} {name : String}
    {ref : Name.MemberRef} {binding : Binding}
    (h : (hierarchy.resolve receiver name ref).binding = some binding) :
    binding.status ≠ .unresolved ∧
      ∀ target ∈ binding.targets, ∃ other, hierarchy.declared? other = some target := by
  have hcandidates := hierarchy.candidates_declarations ref.member receiver
  unfold resolve at h
  split at h
  · rw [resolveMethod, List.partition_eq_filter_filter] at h
    simp only at h
    obtain ⟨hstatus, htargets⟩ := Binding.ofCandidates_eq_some h
    refine ⟨hstatus, ?_⟩
    rw [htargets]
    split
    · exact (hcandidates (· == .interface)).declared
    · exact (hcandidates fun kind => !(kind == .interface)).declared
  · rw [resolveField] at h
    simp only at h
    obtain ⟨hstatus, htargets⟩ := Binding.ofCandidates_eq_some h
    refine ⟨hstatus, ?_⟩
    rw [htargets]
    have := (hcandidates fun _ => true).declared
    simpa using this

theorem LibraryModel.dispatch_targets {model : LibraryModel} {name : String} {binding : Binding}
    (h : (model.dispatch name).binding = some binding) :
    binding.status ≠ .unresolved ∧
      ∀ target ∈ binding.targets, ∃ other, model.find? other = some target := by
  have hone : ∀ {other : String},
      (model.find? other).map Binding.resolved = some binding →
        binding.status ≠ .unresolved ∧
          ∀ target ∈ binding.targets, ∃ other, model.find? other = some target := by
    intro other hother
    obtain ⟨ref, href, rfl⟩ := Option.map_eq_some_iff.1 hother
    refine ⟨by simp [Binding.status], ?_⟩
    intro target htarget
    rw [List.mem_singleton.1 htarget]
    exact ⟨other, href⟩
  unfold dispatch at h
  split at h
  · rename_i ref href
    refine @hone name ?_
    rw [href]
    exact h
  · split at h
    · cases h
    · split at h
      · cases h
      · split at h
        · exact hone h
        · split at h
          · cases h
          · obtain ⟨hstatus, htargets⟩ := Hierarchy.resolve_targets h
            refine ⟨hstatus, ?_⟩
            intro target htarget
            obtain ⟨other, hother⟩ := htargets target htarget
            obtain ⟨slot, hslot, rfl⟩ := Option.map_eq_some_iff.1 hother
            refine ⟨other, ?_⟩
            rw [find?, (Option.filter_eq_some_iff.1 hslot).1, Option.map_some]

namespace ProjectModel

theorem declared?_cases {model : ProjectModel} {name : String} {ref : EntityRef}
    (h : model.declared? name = some ref) :
    model.find? name = some ref ∨ model.library.find? name = some ref := by
  rw [declared?, Option.orElse_eq_orElse, Option.orElse_eq_or, Option.or_eq_some_iff] at h
  rcases h with h | ⟨-, h⟩
  · left
    obtain ⟨slot, hslot, rfl⟩ := Option.map_eq_some_iff.1 h
    rw [find?, (Option.filter_eq_some_iff.1 hslot).1, Option.map_some]
  · exact .inr h

theorem dispatch_targets {model : ProjectModel} {name : String} {binding : Binding}
    (h : (model.dispatch name).binding = some binding) :
    binding.status ≠ .unresolved ∧ ∀ target ∈ binding.targets, ∃ other,
      model.find? other = some target ∨ model.library.find? other = some target := by
  unfold dispatch at h
  split at h
  · cases h
  · split at h
    · cases h
    · split at h
      · obtain ⟨target, htarget, rfl⟩ := Option.map_eq_some_iff.1 h
        refine ⟨by simp [Binding.status], ?_⟩
        intro other hother
        rw [List.mem_singleton.1 hother]
        exact ⟨_, declared?_cases htarget⟩
      · split at h
        · obtain ⟨hstatus, htargets⟩ := LibraryModel.dispatch_targets h
          refine ⟨hstatus, ?_⟩
          intro target htarget
          obtain ⟨other, hother⟩ := htargets target htarget
          exact ⟨other, .inr hother⟩
        · obtain ⟨hstatus, htargets⟩ := Hierarchy.resolve_targets h
          refine ⟨hstatus, ?_⟩
          intro target htarget
          obtain ⟨other, hother⟩ := htargets target htarget
          exact ⟨other, declared?_cases hother⟩

end ProjectModel

namespace ProjectModel

variable {model : ProjectModel} {name : String} {ref : Name.MemberRef}

/-- The member of a receiver that the project has. -/
theorem dispatch_of_known {receiver : EntityRef} (href : Name.MemberRef.ofName? name = some ref)
    (hinit : ref.isConstructorOrInitializer = false) (harray : Name.isArray ref.receiver = false)
    (hreceiver : model.find? ref.receiver = some receiver) :
    model.dispatch name = model.hierarchy.resolve receiver name ref := by
  simp only [dispatch, href, hinit, harray, hreceiver, Bool.false_eq_true, if_false]

/-- The member of a receiver that the project does not have. -/
theorem dispatch_of_unknown (href : Name.MemberRef.ofName? name = some ref)
    (hinit : ref.isConstructorOrInitializer = false) (harray : Name.isArray ref.receiver = false)
    (hreceiver : model.find? ref.receiver = none) :
    model.dispatch name = model.library.dispatch name := by
  simp only [dispatch, href, hinit, harray, hreceiver, Bool.false_eq_true, if_false]

end ProjectModel

theorem Hierarchy.resolve_of_no_parents {hierarchy : Hierarchy} {receiver : EntityRef}
    {entity : Entity} (hentity : hierarchy.entity? receiver = some entity)
    (hparents : entity.parents = []) (name : String) (ref : Name.MemberRef) :
    (hierarchy.resolve receiver name ref).binding = none := by
  have hfindings : hierarchy.findings receiver ref.member = [] := by
    rw [findings, walk_cons_some hentity, hparents]
    simp [scan, walk_nil]
  unfold resolve
  split
  · rw [resolveMethod_eq, hfindings]
    rfl
  · rw [resolveField_eq, hfindings]
    rfl

end Referent
