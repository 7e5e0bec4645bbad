import Mathlib.Data.List.Nodup
import Mathlib.Data.List.Dedup
import Referent.Model.Dispatch

/-!
# The walk finds exactly the unshadowed declarations

A declaration above a receiver is unshadowed if some chain of supertypes leads up to it and
nothing strictly in between declares the member. The walk is sound and complete for this:

* **soundness** — whatever is in the queue is the receiver or lies at the end of such a chain
  and declares nothing itself, so its parents end chains too (`Hierarchy.Searched`);
* **completeness** — every searched reference that has been seen is still in the queue or has
  all its parents among the seen (`Hierarchy.Covered`); once the queue is empty the seen are
  closed under going up, hence hold every chain;
* **no repetition** — a finding is made when its supertype is first seen (`nodup_walk`).

Nothing is asked of the hierarchy: it may have cycles, and parents that lead nowhere.
-/

namespace Referent

namespace Hierarchy

variable {hierarchy : Hierarchy} {member : String} {receiver : EntityRef}

/-! ## Chains of supertypes -/

/-- What there is to find at a reference: the declaration of the member that the entity behind
it has under its own name. -/
def finding? (hierarchy : Hierarchy) (member : String) (ref : EntityRef) : Option Finding :=
  (hierarchy.entity? ref).bind fun entity =>
    (hierarchy.declared? (Name.memberName entity.name member)).map (⟨ref, entity.kind, ·⟩)

/-- One visible entity is a direct supertype of another. -/
def Above (hierarchy : Hierarchy) (child parent : EntityRef) : Prop :=
  ∃ entity, hierarchy.entity? child = some entity ∧ parent ∈ entity.parents ∧
    (hierarchy.entity? parent).isSome

/-- `Ascent hierarchy member receiver top` — a chain of one or more steps leads from the
receiver up to `top` through visible entities, and none strictly between the ends declares the
member. -/
inductive Ascent (hierarchy : Hierarchy) (member : String) (receiver : EntityRef) :
    EntityRef → Prop
  | first {parent} : hierarchy.Above receiver parent → Ascent hierarchy member receiver parent
  | next {ref parent} : Ascent hierarchy member receiver ref →
      hierarchy.finding? member ref = none → hierarchy.Above ref parent →
      Ascent hierarchy member receiver parent

/-- The receiver inherits a declaration that no nearer one shadows. -/
structure Inherits (hierarchy : Hierarchy) (member : String) (receiver : EntityRef)
    (finding : Finding) : Prop where
  ne_receiver : finding.ancestor ≠ receiver
  ascent : hierarchy.Ascent member receiver finding.ancestor
  declares : hierarchy.finding? member finding.ancestor = some finding

/-- What may stand in the queue of a walk: the receiver, and what a chain leads to without
declaring the member. -/
def Searched (hierarchy : Hierarchy) (member : String) (receiver ref : EntityRef) : Prop :=
  ref = receiver ∨
    hierarchy.Ascent member receiver ref ∧ hierarchy.finding? member ref = none

/-- Of the searched references that have been seen, each is in the queue or has all its
parents among the seen. -/
def Covered (hierarchy : Hierarchy) (member : String) (receiver : EntityRef)
    (seen queue : List EntityRef) : Prop :=
  ∀ ref ∈ seen, hierarchy.Searched member receiver ref →
    ref ∈ queue ∨ ∀ parent, hierarchy.Above ref parent → parent ∈ seen

theorem ancestor_of_finding? {ref : EntityRef} {finding : Finding}
    (h : hierarchy.finding? member ref = some finding) : finding.ancestor = ref := by
  simp only [finding?, Option.bind_eq_some_iff, Option.map_eq_some_iff] at h
  obtain ⟨entity, -, declaration, -, rfl⟩ := h
  rfl

theorem Searched.ascent {ref parent : EntityRef}
    (hsearched : hierarchy.Searched member receiver ref) (habove : hierarchy.Above ref parent) :
    hierarchy.Ascent member receiver parent := by
  rcases hsearched with rfl | ⟨hascent, hnone⟩
  · exact .first habove
  · exact .next hascent hnone habove

/-! ## Looking at the parents of one entity -/

/-- The references that have not been seen, each once. -/
def news (seen : List EntityRef) : List EntityRef → List EntityRef
  | [] => []
  | ref :: refs => if ref ∈ seen then news seen refs else ref :: news (ref :: seen) refs

theorem mem_news {seen refs : List EntityRef} {ref : EntityRef} :
    ref ∈ news seen refs ↔ ref ∈ refs ∧ ref ∉ seen := by
  induction refs generalizing seen with
  | nil => simp [news]
  | cons r refs ih =>
    rw [news]
    split
    · rename_i hseen
      rw [ih, List.mem_cons]
      constructor
      · rintro ⟨hmem, hnew⟩
        exact ⟨.inr hmem, hnew⟩
      · rintro ⟨rfl | hmem, hnew⟩
        · exact absurd hseen hnew
        · exact ⟨hmem, hnew⟩
    · rename_i hnew
      rw [List.mem_cons, ih, List.mem_cons, List.mem_cons, not_or]
      constructor
      · rintro (rfl | ⟨hmem, -, hunseen⟩)
        · exact ⟨.inl rfl, hnew⟩
        · exact ⟨.inr hmem, hunseen⟩
      · rintro ⟨hmem, hunseen⟩
        by_cases heq : ref = r
        · exact .inl heq
        · exact .inr ⟨hmem.resolve_left heq, heq, hunseen⟩

theorem nodup_news (seen refs : List EntityRef) : (news seen refs).Nodup := by
  induction refs generalizing seen with
  | nil => exact List.nodup_nil
  | cons r refs ih =>
    rw [news]
    split
    · exact ih seen
    · refine List.nodup_cons.2 ⟨fun hmem => ?_, ih _⟩
      exact (mem_news.1 hmem).2 List.mem_cons_self

/-- Whether an entity is searched further up: it can be seen and does not declare the member. -/
def isSilent (hierarchy : Hierarchy) (member : String) (ref : EntityRef) : Bool :=
  (hierarchy.entity? ref).isSome && (hierarchy.finding? member ref).isNone

/-- A scan sorts the new references into findings and those to be searched. -/
theorem scan_eq (hierarchy : Hierarchy) (member : String) (seen refs : List EntityRef) :
    hierarchy.scan member seen refs =
      { seen := (news seen refs).reverse ++ seen
        found := (news seen refs).filterMap (hierarchy.finding? member)
        next := (news seen refs).filter (hierarchy.isSilent member) } := by
  induction refs generalizing seen with
  | nil => rfl
  | cons r refs ih =>
    rw [scan, news]
    split
    · exact ih seen
    · rw [ih (r :: seen)]
      cases hentity : hierarchy.entity? r with
      | none => simp [finding?, isSilent, hentity]
      | some ancestor =>
        cases hdeclared : hierarchy.declared? (Name.memberName ancestor.name member) with
        | none => simp [finding?, isSilent, hentity, hdeclared]
        | some declaration =>
          simp [finding?, isSilent, hentity, hdeclared]

theorem mem_seen_scan {seen refs : List EntityRef} {ref : EntityRef} :
    ref ∈ (hierarchy.scan member seen refs).seen ↔ ref ∈ seen ∨ ref ∈ refs := by
  simp only [scan_eq, List.mem_append, List.mem_reverse, mem_news]
  tauto

theorem mem_found_scan {seen refs : List EntityRef} {finding : Finding} :
    finding ∈ (hierarchy.scan member seen refs).found ↔
      finding.ancestor ∈ refs ∧ finding.ancestor ∉ seen ∧
        hierarchy.finding? member finding.ancestor = some finding := by
  simp only [scan_eq, List.mem_filterMap, mem_news]
  constructor
  · rintro ⟨ref, ⟨hmem, hnew⟩, hfinding⟩
    obtain rfl := ancestor_of_finding? hfinding
    exact ⟨hmem, hnew, hfinding⟩
  · rintro ⟨hmem, hnew, hfinding⟩
    exact ⟨finding.ancestor, ⟨hmem, hnew⟩, hfinding⟩

theorem mem_next_scan {seen refs : List EntityRef} {ref : EntityRef} :
    ref ∈ (hierarchy.scan member seen refs).next ↔
      ref ∈ refs ∧ ref ∉ seen ∧ (hierarchy.entity? ref).isSome ∧
        hierarchy.finding? member ref = none := by
  simp only [scan_eq, List.mem_filter, mem_news, isSilent, Bool.and_eq_true,
    Option.isNone_iff_eq_none]
  tauto

theorem nodup_found_scan (seen refs : List EntityRef) :
    ((hierarchy.scan member seen refs).found.map (·.ancestor)).Nodup := by
  -- Findings keep the order of the references they were made at.
  have hsub : ((hierarchy.scan member seen refs).found.map (·.ancestor)).Sublist
      (news seen refs) := by
    rw [scan_eq]
    induction news seen refs with
    | nil => simp
    | cons r refs ih =>
      cases hfinding : hierarchy.finding? member r with
      | none =>
        rw [List.filterMap_cons_none hfinding]
        exact ih.cons r
      | some finding =>
        rw [List.filterMap_cons_some hfinding, List.map_cons, ancestor_of_finding? hfinding]
        exact ih.cons_cons r
  exact hsub.nodup (nodup_news seen refs)

/-! ## The walk -/

theorem walk_nil (seen : List EntityRef) : hierarchy.walk member seen [] = [] := by
  rw [walk]

theorem walk_cons_none {current : EntityRef} (h : hierarchy.entity? current = none)
    (seen queue : List EntityRef) :
    hierarchy.walk member seen (current :: queue) = hierarchy.walk member seen queue := by
  rw [walk]
  split
  · rfl
  · simp_all

theorem walk_cons_some {current : EntityRef} {entity : Entity}
    (h : hierarchy.entity? current = some entity) (seen queue : List EntityRef) :
    hierarchy.walk member seen (current :: queue) =
      (hierarchy.scan member seen entity.parents).found ++
        hierarchy.walk member (hierarchy.scan member seen entity.parents).seen
          (queue ++ (hierarchy.scan member seen entity.parents).next) := by
  rw [walk]
  split
  · simp_all
  · rename_i entity' hentity
    obtain rfl : entity = entity' := Option.some.inj (h.symm.trans hentity)
    rfl

/-- Induction along a walk: the queue runs dry, its head leads nowhere, or the parents of its
head are looked at. -/
theorem walk_induction (hierarchy : Hierarchy) (member : String)
    {motive : List EntityRef → List EntityRef → Prop}
    (nil : ∀ seen, motive seen [])
    (hidden : ∀ seen current queue, hierarchy.entity? current = none → motive seen queue →
      motive seen (current :: queue))
    (visible : ∀ seen current queue entity, hierarchy.entity? current = some entity →
      motive (hierarchy.scan member seen entity.parents).seen
        (queue ++ (hierarchy.scan member seen entity.parents).next) →
      motive seen (current :: queue))
    (seen queue : List EntityRef) : motive seen queue := by
  induction seen, queue using walk.induct hierarchy member with
  | case1 seen => exact nil seen
  | case2 seen current queue hentity ih => exact hidden seen current queue hentity ih
  | case3 seen current queue entity hentity scanned ih =>
    exact visible seen current queue entity hentity ih

/-- The queue holds searched references throughout. -/
theorem searched_of_mem_next (seen : List EntityRef) {queue : List EntityRef}
    {current : EntityRef} {entity : Entity}
    (hqueue : ∀ ref ∈ current :: queue, hierarchy.Searched member receiver ref)
    (hentity : hierarchy.entity? current = some entity) :
    ∀ ref ∈ queue ++ (hierarchy.scan member seen entity.parents).next,
      hierarchy.Searched member receiver ref := by
  intro ref href
  rcases List.mem_append.1 href with href | href
  · exact hqueue ref (List.mem_cons_of_mem _ href)
  · obtain ⟨hparent, -, hsome, hnone⟩ := mem_next_scan.1 href
    have hcurrent := hqueue current List.mem_cons_self
    exact .inr ⟨hcurrent.ascent ⟨entity, hentity, hparent, hsome⟩, hnone⟩

/-- Soundness: from a queue of searched references, only unshadowed declarations are found,
and only at supertypes that have not been seen. -/
theorem inherits_of_mem_walk {seen queue : List EntityRef} (hreceiver : receiver ∈ seen)
    (hqueue : ∀ ref ∈ queue, hierarchy.Searched member receiver ref) {finding : Finding}
    (hmem : finding ∈ hierarchy.walk member seen queue) :
    finding.ancestor ∉ seen ∧ hierarchy.Inherits member receiver finding := by
  induction seen, queue using walk_induction hierarchy member with
  | nil seen => simp [walk_nil] at hmem
  | hidden seen current queue hentity ih =>
    rw [walk_cons_none hentity] at hmem
    exact ih hreceiver (fun ref h => hqueue ref (List.mem_cons_of_mem _ h)) hmem
  | visible seen current queue entity hentity ih =>
    rw [walk_cons_some hentity, List.mem_append] at hmem
    rcases hmem with hmem | hmem
    · obtain ⟨hparent, hnew, hfinding⟩ := mem_found_scan.1 hmem
      have hsome : (hierarchy.entity? finding.ancestor).isSome := by
        obtain ⟨ancestor, hancestor, -⟩ := Option.bind_eq_some_iff.1 hfinding
        simp [hancestor]
      have hcurrent := hqueue current List.mem_cons_self
      refine ⟨hnew, ?_, hcurrent.ascent ⟨entity, hentity, hparent, hsome⟩, hfinding⟩
      rintro rfl
      exact hnew hreceiver
    · obtain ⟨hnew, hinherits⟩ :=
        ih (mem_seen_scan.2 (.inl hreceiver)) (searched_of_mem_next seen hqueue hentity) hmem
      exact ⟨fun h => hnew (mem_seen_scan.2 (.inl h)), hinherits⟩

/-- With an empty queue the seen are closed under going up. -/
theorem Covered.mem_of_ascent {seen : List EntityRef}
    (hcovered : hierarchy.Covered member receiver seen []) (hreceiver : receiver ∈ seen)
    {top : EntityRef} (hascent : hierarchy.Ascent member receiver top) : top ∈ seen := by
  induction hascent with
  | first habove =>
    exact (hcovered receiver hreceiver (.inl rfl)).resolve_left List.not_mem_nil _ habove
  | next hascent hnone habove ih =>
    exact (hcovered _ ih (.inr ⟨hascent, hnone⟩)).resolve_left List.not_mem_nil _ habove

/-- An entry that leads nowhere covers nothing. -/
theorem Covered.of_hidden {seen queue : List EntityRef} {current : EntityRef}
    (hcovered : hierarchy.Covered member receiver seen (current :: queue))
    (hentity : hierarchy.entity? current = none) :
    hierarchy.Covered member receiver seen queue := by
  intro ref href hsearched
  rcases hcovered ref href hsearched with h | h
  · rcases List.mem_cons.1 h with rfl | h
    · right
      rintro parent ⟨entity, hsome, -⟩
      simp [hentity] at hsome
    · exact .inl h
  · exact .inr h

/-- Looking at the parents of the head of the queue keeps the seen covered. -/
theorem Covered.scan {seen queue : List EntityRef} {current : EntityRef} {entity : Entity}
    (hcovered : hierarchy.Covered member receiver seen (current :: queue))
    (hreceiver : receiver ∈ seen) (hentity : hierarchy.entity? current = some entity) :
    hierarchy.Covered member receiver (hierarchy.scan member seen entity.parents).seen
      (queue ++ (hierarchy.scan member seen entity.parents).next) := by
  intro ref href hsearched
  by_cases hseen : ref ∈ seen
  · rcases hcovered ref hseen hsearched with h | h
    · rcases List.mem_cons.1 h with rfl | h
      · right
        rintro parent ⟨entity', hentity', hparent, -⟩
        obtain rfl : entity = entity' := Option.some.inj (hentity.symm.trans hentity')
        exact mem_seen_scan.2 (.inr hparent)
      · exact .inl (List.mem_append_left _ h)
    · exact .inr fun parent habove => mem_seen_scan.2 (.inl (h parent habove))
  · -- A reference seen just now is searched later, unless nothing is behind it.
    have hparent := (mem_seen_scan.1 href).resolve_left hseen
    rcases hsearched with rfl | ⟨-, hnone⟩
    · exact absurd hreceiver hseen
    · by_cases hsome : (hierarchy.entity? ref).isSome
      · left
        exact List.mem_append_right _ (mem_next_scan.2 ⟨hparent, hseen, hsome, hnone⟩)
      · right
        rintro parent ⟨entity', hentity', -⟩
        simp [hentity'] at hsome

/-- Completeness: an unshadowed declaration is found unless its supertype was seen before. -/
theorem mem_walk_of_inherits {seen queue : List EntityRef} (hreceiver : receiver ∈ seen)
    (hcovered : hierarchy.Covered member receiver seen queue) {finding : Finding}
    (hinherits : hierarchy.Inherits member receiver finding) (hnew : finding.ancestor ∉ seen) :
    finding ∈ hierarchy.walk member seen queue := by
  induction seen, queue using walk_induction hierarchy member with
  | nil seen => exact absurd (hcovered.mem_of_ascent hreceiver hinherits.ascent) hnew
  | hidden seen current queue hentity ih =>
    rw [walk_cons_none hentity]
    exact ih hreceiver (hcovered.of_hidden hentity) hnew
  | visible seen current queue entity hentity ih =>
    rw [walk_cons_some hentity, List.mem_append]
    by_cases hparent : finding.ancestor ∈ entity.parents
    · exact .inl (mem_found_scan.2 ⟨hparent, hnew, hinherits.declares⟩)
    · right
      apply ih (mem_seen_scan.2 (.inl hreceiver)) (hcovered.scan hreceiver hentity)
      rw [mem_seen_scan]
      rintro (h | h)
      · exact hnew h
      · exact hparent h

theorem nodup_walk {seen queue : List EntityRef} (hreceiver : receiver ∈ seen)
    (hqueue : ∀ ref ∈ queue, hierarchy.Searched member receiver ref) :
    ((hierarchy.walk member seen queue).map (·.ancestor)).Nodup := by
  induction seen, queue using walk_induction hierarchy member with
  | nil seen => simp [walk_nil]
  | hidden seen current queue hentity ih =>
    rw [walk_cons_none hentity]
    exact ih hreceiver fun ref h => hqueue ref (List.mem_cons_of_mem _ h)
  | visible seen current queue entity hentity ih =>
    have hreceiver' : receiver ∈ (hierarchy.scan member seen entity.parents).seen :=
      mem_seen_scan.2 (.inl hreceiver)
    have hnext := searched_of_mem_next seen hqueue hentity
    rw [walk_cons_some hentity, List.map_append, List.nodup_append']
    refine ⟨nodup_found_scan seen entity.parents, ih hreceiver' hnext, ?_⟩
    intro ref hnow hlater
    obtain ⟨finding, hfinding, rfl⟩ := List.mem_map.1 hnow
    obtain ⟨other, hother, heq⟩ := List.mem_map.1 hlater
    apply (inherits_of_mem_walk hreceiver' hnext hother).1
    rw [heq]
    exact mem_seen_scan.2 (.inr (mem_found_scan.1 hfinding).1)

/-! ## Findings above a receiver -/

/-- The findings above a receiver are the unshadowed declarations. -/
theorem mem_findings {finding : Finding} :
    finding ∈ hierarchy.findings receiver member ↔
      hierarchy.Inherits member receiver finding := by
  have hreceiver : receiver ∈ [receiver] := List.mem_singleton.2 rfl
  constructor
  · intro hmem
    refine (inherits_of_mem_walk hreceiver ?_ hmem).2
    intro ref href
    exact .inl (List.mem_singleton.1 href)
  · intro hinherits
    refine mem_walk_of_inherits hreceiver ?_ hinherits ?_
    · intro ref href _
      exact .inl href
    · intro href
      exact hinherits.ne_receiver (List.mem_singleton.1 href)

theorem nodup_findings :
    ((hierarchy.findings receiver member).map (·.ancestor)).Nodup :=
  nodup_walk (List.mem_singleton.2 rfl) fun _ href => .inl (List.mem_singleton.1 href)

/-! ## Choosing among the declarations -/

/-- A list tells which declarations the receiver inherits through supertypes of certain kinds,
each once. -/
structure Candidates (hierarchy : Hierarchy) (member : String) (receiver : EntityRef)
    (ofKind : EntityKind → Prop) (refs : List EntityRef) : Prop where
  nodup : refs.Nodup
  mem_iff : ∀ ref, ref ∈ refs ↔
    ∃ finding, hierarchy.Inherits member receiver finding ∧ ofKind finding.kind ∧
      finding.declaration = ref

theorem nodup_eraseDups [BEq α] [LawfulBEq α] (refs : List α) : refs.eraseDups.Nodup := by
  induction hlen : refs.length using Nat.strongRecOn generalizing refs with
  | ind n ih =>
    cases refs with
    | nil => exact List.nodup_nil
    | cons ref refs =>
      rw [List.eraseDups_cons, List.nodup_cons]
      constructor
      · rw [List.mem_eraseDups]
        simp
      · refine ih _ ?_ _ rfl
        have := List.length_filter_le (fun r => !r == ref) refs
        rw [← hlen, List.length_cons]
        omega

/-- Collecting the declarations of the findings of some kinds gives the candidates of those
kinds. -/
theorem candidates_declarations (hierarchy : Hierarchy) (member : String)
    (receiver : EntityRef) (ofKind : EntityKind → Bool) :
    hierarchy.Candidates member receiver (ofKind · = true)
      (declarations ((hierarchy.findings receiver member).filter (ofKind ·.kind))) where
  nodup := nodup_eraseDups _
  mem_iff ref := by
    rw [declarations, List.mem_eraseDups, List.mem_map]
    constructor
    · rintro ⟨finding, hmem, heq⟩
      obtain ⟨hmem, hkind⟩ := List.mem_filter.1 hmem
      exact ⟨finding, mem_findings.1 hmem, hkind, heq⟩
    · rintro ⟨finding, hinherits, hkind, heq⟩
      exact ⟨finding, List.mem_filter.2 ⟨mem_findings.2 hinherits, hkind⟩, heq⟩

/-- What the candidates for a method come to: classes are asked before interfaces, and several
classes are an anomaly. -/
def chosenMethod (hierarchy : Hierarchy) (name : String) :
    (classes interfaces : List EntityRef) → Dispatch
  | [], [] => {}
  | [], [one] => { binding := some (.resolved one) }
  | [], several => { binding := some (.ambiguous several) }
  | [one], _ => { binding := some (.resolved one) }
  | several, _ =>
    { binding := some (.ambiguous several)
      anomaly := some (.multipleClassCandidates name (hierarchy.namesOf several)) }

/-- What the candidates for a field come to: several are an anomaly. -/
def chosenField (hierarchy : Hierarchy) (name : String) : (fields : List EntityRef) → Dispatch
  | [] => {}
  | [one] => { binding := some (.resolved one) }
  | several =>
    { binding := some (.ambiguous several)
      anomaly := some (.ambiguousField name (hierarchy.namesOf several)) }

theorem binding_chosenMethod (hierarchy : Hierarchy) (name : String)
    (classes interfaces : List EntityRef) :
    (hierarchy.chosenMethod name classes interfaces).binding =
      Binding.ofCandidates (if classes.isEmpty then interfaces else classes) := by
  match classes, interfaces with
  | [], [] => rfl
  | [], [_] => rfl
  | [], _ :: _ :: _ => rfl
  | [_], _ => rfl
  | _ :: _ :: _, _ => rfl

theorem binding_chosenField (hierarchy : Hierarchy) (name : String)
    (fields : List EntityRef) :
    (hierarchy.chosenField name fields).binding = Binding.ofCandidates fields := by
  match fields with
  | [] => rfl
  | [_] => rfl
  | _ :: _ :: _ => rfl

theorem resolveMethod_eq (hierarchy : Hierarchy) (receiver : EntityRef) (name member : String) :
    hierarchy.resolveMethod receiver name member =
      hierarchy.chosenMethod name
        (declarations ((hierarchy.findings receiver member).filter (·.kind != .interface)))
        (declarations ((hierarchy.findings receiver member).filter (·.kind == .interface))) := by
  have hsplit : (hierarchy.findings receiver member).partition (·.kind == .interface) =
      ((hierarchy.findings receiver member).filter (·.kind == .interface),
        (hierarchy.findings receiver member).filter (·.kind != .interface)) := by
    rw [List.partition_eq_filter_filter]
    rfl
  rw [resolveMethod, hsplit]
  simp only
  generalize declarations ((hierarchy.findings receiver member).filter
    (·.kind != .interface)) = classes
  generalize declarations ((hierarchy.findings receiver member).filter
    (·.kind == .interface)) = interfaces
  match classes, interfaces with
  | [], [] => rfl
  | [], [_] => rfl
  | [], _ :: _ :: _ => rfl
  | [_], _ => rfl
  | _ :: _ :: _, _ => simp [Binding.ofCandidates, chosenMethod]

theorem resolveField_eq (hierarchy : Hierarchy) (receiver : EntityRef) (name member : String) :
    hierarchy.resolveField receiver name member =
      hierarchy.chosenField name (declarations (hierarchy.findings receiver member)) := by
  rw [resolveField]
  generalize declarations (hierarchy.findings receiver member) = fields
  match fields with
  | [] => rfl
  | [_] => rfl
  | _ :: _ :: _ => simp [Binding.ofCandidates, chosenField]

/-- **Inherited members.** Above any receiver of any hierarchy the walk reports exactly the
unshadowed declarations, and no supertype twice. A method is then chosen among the distinct
declarations in classes, and only if there are none among those in interfaces; a field is
chosen among all of them. -/
theorem inherited_members_exact (hierarchy : Hierarchy) (receiver : EntityRef)
    (name member : String) :
    (∀ finding, finding ∈ hierarchy.findings receiver member ↔
      hierarchy.Inherits member receiver finding) ∧
    ((hierarchy.findings receiver member).map (·.ancestor)).Nodup ∧
    (∃ classes interfaces,
      hierarchy.Candidates member receiver (· ≠ .interface) classes ∧
      hierarchy.Candidates member receiver (· = .interface) interfaces ∧
      hierarchy.resolveMethod receiver name member =
        hierarchy.chosenMethod name classes interfaces) ∧
    (∃ fields,
      hierarchy.Candidates member receiver (fun _ => True) fields ∧
      hierarchy.resolveField receiver name member = hierarchy.chosenField name fields) := by
  refine ⟨fun _ => mem_findings, nodup_findings, ?_, ?_⟩
  · have hclasses := hierarchy.candidates_declarations member receiver (· != .interface)
    have hinterfaces := hierarchy.candidates_declarations member receiver (· == .interface)
    refine ⟨_, _, ?_, ?_, resolveMethod_eq hierarchy receiver name member⟩
    · simpa using hclasses
    · simpa using hinterfaces
  · have hfields := hierarchy.candidates_declarations member receiver (fun _ => true)
    refine ⟨_, ?_, resolveField_eq hierarchy receiver name member⟩
    simpa using hfields

end Hierarchy

end Referent
