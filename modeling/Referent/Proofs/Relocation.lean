import Mathlib.Data.Set.Function
import Referent.Proofs.Walk

/-!
# Hierarchies inside hierarchies

A hierarchy may come back inside a larger one with its entities in other slots: a project's
types after lookups have added to its arena, the types of a project and its libraries loaded
into one table, or the types of a library that is loaded twice. As long as nothing that can be
seen from inside leads out (`Embeds`), a walk does the same in both places, and members resolve
to the same declarations, moved.

The large hierarchy may hold an entity more than once, and what a name denotes there need not be
what supertypes lead to. So the references that a walk goes along and those that it finds are
moved each in their own way. Where the two are one, the small hierarchy just stands elsewhere
(`Relocates`).
-/

namespace Referent

/-! ## Moving references -/

/-- The finding with its references moved. -/
def Finding.move (move : EntityRef → EntityRef) (finding : Finding) : Finding :=
  { finding with
    ancestor := move finding.ancestor
    declaration := move finding.declaration }

/-- The finding with its supertype moved one way and the declaration another. -/
def Finding.recast (move denote : EntityRef → EntityRef) (finding : Finding) : Finding :=
  { finding with
    ancestor := move finding.ancestor
    declaration := denote finding.declaration }

/-- The binding with its targets moved. -/
def Binding.move (move : EntityRef → EntityRef) : Binding → Binding
  | resolved target => .resolved (move target)
  | unresolved target => .unresolved (move target)
  | ambiguous targets => .ambiguous (targets.map move)

theorem Binding.move_id : Binding.move id = id := by
  funext binding
  cases binding with
  | resolved target => rfl
  | unresolved target => rfl
  | ambiguous targets => rw [move, List.map_id, id]

theorem Binding.ofCandidates_map (move : EntityRef → EntityRef) (refs : List EntityRef) :
    ofCandidates (refs.map move) = (ofCandidates refs).map (Binding.move move) := by
  match refs with
  | [] => rfl
  | [_] => rfl
  | _ :: _ :: _ => rfl

/-- Moving keeps apart what is in a list and what is not. -/
theorem mem_map_iff_of_injOn {move : EntityRef → EntityRef} {visible : Set EntityRef}
    (hinj : Set.InjOn move visible) {ref : EntityRef} {refs : List EntityRef}
    (href : ref ∈ visible) (hrefs : ∀ other ∈ refs, other ∈ visible) :
    move ref ∈ refs.map move ↔ ref ∈ refs := by
  rw [List.mem_map]
  constructor
  · rintro ⟨other, hother, heq⟩
    rwa [← hinj (hrefs other hother) href heq]
  · intro hmem
    exact ⟨ref, hmem, rfl⟩

theorem eraseDups_map {move : EntityRef → EntityRef} {refs : List EntityRef}
    (hinj : Set.InjOn move {ref | ref ∈ refs}) :
    (refs.map move).eraseDups = refs.eraseDups.map move := by
  induction hlen : refs.length using Nat.strongRecOn generalizing refs with
  | ind n ih =>
    cases refs with
    | nil => rfl
    | cons ref refs =>
      have hfilter : (refs.map move).filter (fun other => !other == move ref) =
          (refs.filter fun other => !other == ref).map move := by
        rw [List.filter_map]
        congr 1
        apply List.filter_congr
        intro other hother
        by_cases heq : other = ref
        · simp [heq]
        · have : move other ≠ move ref := fun hmove =>
            heq (hinj (List.mem_cons_of_mem _ hother) List.mem_cons_self hmove)
          simp [heq, this]
      have hshort : (refs.filter fun other => !other == ref).length < n := by
        rw [← hlen, List.length_cons]
        exact Nat.lt_succ_of_le (List.length_filter_le _ _)
      have hkept : Set.InjOn move {other | other ∈ refs.filter fun other => !other == ref} :=
        hinj.mono fun other hother => List.mem_cons_of_mem _ (List.mem_filter.1 hother).1
      rw [List.map_cons, List.eraseDups_cons, hfilter, ih _ hshort hkept rfl,
        List.eraseDups_cons, List.map_cons]

namespace Hierarchy

/-- What can be seen in the small hierarchy stands in the large one, moved, and its names are
declared there alike. -/
structure Relocates (move : EntityRef → EntityRef) (small large : Hierarchy) : Prop where
  injective : Function.Injective move
  entity : ∀ ref entity, small.entity? ref = some entity → ∃ moved,
    large.entity? (move ref) = some moved ∧ moved.name = entity.name ∧
      moved.kind = entity.kind ∧ moved.parents = entity.parents.map move
  /-- Nothing leads out. -/
  closed : ∀ ref entity, small.entity? ref = some entity →
    ∀ parent ∈ entity.parents, (small.entity? parent).isSome
  declared : ∀ name, large.declared? name = (small.declared? name).map move

/-- What can be seen in the small hierarchy stands in the large one, moved, with its supertypes
moved likewise. What its names denote is moved in a way of its own. -/
structure Embeds (move denote : EntityRef → EntityRef) (small large : Hierarchy) : Prop where
  injective : Set.InjOn move {ref | (small.entity? ref).isSome}
  entity : ∀ ref entity, small.entity? ref = some entity → ∃ moved,
    large.entity? (move ref) = some moved ∧ moved.name = entity.name ∧
      moved.kind = entity.kind ∧ moved.parents = entity.parents.map move
  /-- Nothing leads out. -/
  closed : ∀ ref entity, small.entity? ref = some entity →
    ∀ parent ∈ entity.parents, (small.entity? parent).isSome
  declared : ∀ name, large.declared? name = (small.declared? name).map denote
  distinct : Set.InjOn denote {ref | ∃ name, small.declared? name = some ref}

variable {move denote : EntityRef → EntityRef} {small large : Hierarchy} {member : String}

theorem Relocates.embeds (h : Relocates move small large) : Embeds move move small large where
  injective := h.injective.injOn
  entity := h.entity
  closed := h.closed
  declared := h.declared
  distinct := h.injective.injOn

/-- What is found is declared. -/
theorem declared_of_finding? {ref : EntityRef} {finding : Finding}
    (h : small.finding? member ref = some finding) :
    ∃ name, small.declared? name = some finding.declaration := by
  simp only [finding?, Option.bind_eq_some_iff, Option.map_eq_some_iff] at h
  obtain ⟨entity, -, declaration, hdeclared, rfl⟩ := h
  exact ⟨_, hdeclared⟩

namespace Embeds

theorem finding? (h : Embeds move denote small large) {ref : EntityRef}
    (href : (small.entity? ref).isSome) : large.finding? member (move ref) =
      (small.finding? member ref).map (Finding.recast move denote) := by
  obtain ⟨entity, hentity⟩ := Option.isSome_iff_exists.1 href
  obtain ⟨moved, hmoved, hname, hkind, -⟩ := h.entity ref entity hentity
  rw [Hierarchy.finding?, hmoved, Hierarchy.finding?, hentity, Option.bind_some,
    Option.bind_some, hname, hkind, h.declared]
  cases small.declared? (Name.memberName entity.name member) <;> rfl

theorem isSome_entity? (h : Embeds move denote small large) {ref : EntityRef}
    (href : (small.entity? ref).isSome) : (large.entity? (move ref)).isSome := by
  obtain ⟨entity, hentity⟩ := Option.isSome_iff_exists.1 href
  obtain ⟨moved, hmoved, -⟩ := h.entity ref entity hentity
  rw [hmoved]
  rfl

theorem news (h : Embeds move denote small large) {seen refs : List EntityRef}
    (hseen : ∀ ref ∈ seen, (small.entity? ref).isSome)
    (hrefs : ∀ ref ∈ refs, (small.entity? ref).isSome) :
    Hierarchy.news (seen.map move) (refs.map move) = (Hierarchy.news seen refs).map move := by
  induction refs generalizing seen with
  | nil => rfl
  | cons ref refs ih =>
    have href := hrefs ref List.mem_cons_self
    have hrest (other : EntityRef) (hother : other ∈ refs) : (small.entity? other).isSome :=
      hrefs other (List.mem_cons_of_mem _ hother)
    have hmem := mem_map_iff_of_injOn h.injective href hseen
    rw [List.map_cons, Hierarchy.news, Hierarchy.news]
    by_cases hold : ref ∈ seen
    · rw [if_pos (hmem.2 hold), if_pos hold]
      exact ih hseen hrest
    · rw [if_neg (fun hmoved => hold (hmem.1 hmoved)), if_neg hold, List.map_cons]
      congr 1
      refine @ih (ref :: seen) ?_ hrest
      intro other hother
      rcases List.mem_cons.1 hother with rfl | hother
      · exact href
      · exact hseen other hother

/-- A scan finds the same and leaves the same to be searched. -/
theorem scan (h : Embeds move denote small large) {seen refs : List EntityRef}
    (hseen : ∀ ref ∈ seen, (small.entity? ref).isSome)
    (hrefs : ∀ ref ∈ refs, (small.entity? ref).isSome) :
    large.scan member (seen.map move) (refs.map move) =
      { seen := (small.scan member seen refs).seen.map move
        found := (small.scan member seen refs).found.map (Finding.recast move denote)
        next := (small.scan member seen refs).next.map move } := by
  have hnews : ∀ ref ∈ Hierarchy.news seen refs, (small.entity? ref).isSome :=
    fun ref href => hrefs ref (mem_news.1 href).1
  rw [scan_eq, scan_eq, h.news hseen hrefs]
  congr 1
  · rw [List.map_append, List.map_reverse]
  · rw [List.filterMap_map, List.map_filterMap]
    apply List.filterMap_congr
    intro ref href
    exact h.finding? (hnews ref href)
  · rw [List.filter_map]
    congr 1
    apply List.filter_congr
    intro ref href
    simp only [Function.comp_apply, isSilent, h.finding? (hnews ref href), Option.isNone_map,
      hnews ref href, h.isSome_entity? (hnews ref href)]

theorem walk (h : Embeds move denote small large) {seen queue : List EntityRef}
    (hseen : ∀ ref ∈ seen, (small.entity? ref).isSome)
    (hqueue : ∀ ref ∈ queue, (small.entity? ref).isSome) :
    large.walk member (seen.map move) (queue.map move) =
      (small.walk member seen queue).map (Finding.recast move denote) := by
  induction seen, queue using walk_induction small member with
  | nil seen => rw [walk_nil, List.map_nil, walk_nil, List.map_nil]
  | hidden seen current queue hentity ih =>
    have := hqueue current List.mem_cons_self
    rw [hentity] at this
    cases this
  | visible seen current queue entity hentity ih =>
    obtain ⟨moved, hmoved, -, -, hparents⟩ := h.entity current entity hentity
    have hclosed := h.closed current entity hentity
    have hnext : ∀ ref ∈ queue ++ (small.scan member seen entity.parents).next,
        (small.entity? ref).isSome := by
      intro ref href
      rcases List.mem_append.1 href with href | href
      · exact hqueue ref (List.mem_cons_of_mem _ href)
      · exact (mem_next_scan.1 href).2.2.1
    have hlater : ∀ ref ∈ (small.scan member seen entity.parents).seen,
        (small.entity? ref).isSome := by
      intro ref href
      rcases mem_seen_scan.1 href with href | href
      · exact hseen ref href
      · exact hclosed ref href
    rw [List.map_cons, walk_cons_some hmoved, walk_cons_some hentity, hparents,
      h.scan hseen hclosed, List.map_append, ← List.map_append, ih hlater hnext]

theorem findings (h : Embeds move denote small large) {receiver : EntityRef}
    (hreceiver : (small.entity? receiver).isSome) :
    large.findings (move receiver) member =
      (small.findings receiver member).map (Finding.recast move denote) := by
  have hone : ∀ ref ∈ [receiver], (small.entity? ref).isSome := by
    intro ref href
    rw [List.mem_singleton.1 href]
    exact hreceiver
  rw [Hierarchy.findings, Hierarchy.findings, ← h.walk hone hone, List.map_singleton]

theorem declarations (h : Embeds move denote small large) {receiver : EntityRef}
    {found : List Finding} (hfound : ∀ finding ∈ found,
      finding ∈ small.findings receiver member) :
    Hierarchy.declarations (found.map (Finding.recast move denote)) =
      (Hierarchy.declarations found).map denote := by
  have hinj : Set.InjOn denote {ref | ref ∈ found.map (·.declaration)} := by
    refine h.distinct.mono ?_
    intro ref href
    obtain ⟨finding, hmem, rfl⟩ := List.mem_map.1 href
    exact declared_of_finding? (mem_findings.1 (hfound finding hmem)).declares
  rw [Hierarchy.declarations, Hierarchy.declarations, ← eraseDups_map hinj, List.map_map,
    List.map_map]
  rfl

/-- Members resolve to the same declarations, moved. -/
theorem resolve (h : Embeds move denote small large) {receiver : EntityRef}
    (hreceiver : (small.entity? receiver).isSome) (name : String) (ref : Name.MemberRef) :
    (large.resolve (move receiver) name ref).binding =
      ((small.resolve receiver name ref).binding).map (Binding.move denote) := by
  rw [Hierarchy.resolve, Hierarchy.resolve]
  split
  · have hsplit : ∀ keep : EntityKind → Bool,
        Hierarchy.declarations (((small.findings receiver ref.member).map
          (Finding.recast move denote)).filter (keep ·.kind)) =
        (Hierarchy.declarations ((small.findings receiver ref.member).filter
          (keep ·.kind))).map denote := by
      intro keep
      rw [List.filter_map]
      exact h.declarations fun finding hfinding => (List.mem_filter.1 hfinding).1
    rw [resolveMethod_eq, resolveMethod_eq, binding_chosenMethod, binding_chosenMethod,
      h.findings hreceiver, hsplit (· != .interface), hsplit (· == .interface),
      List.isEmpty_map, ← Binding.ofCandidates_map, apply_ite (List.map denote)]
  · rw [resolveField, resolveField, h.findings hreceiver]
    simp only [h.declarations fun _ hfinding => hfinding, Binding.ofCandidates_map]

end Embeds

namespace Relocates

theorem findings (h : Relocates move small large) {receiver : EntityRef}
    (hreceiver : (small.entity? receiver).isSome) :
    large.findings (move receiver) member =
      (small.findings receiver member).map (Finding.move move) :=
  h.embeds.findings hreceiver

/-- Members resolve to the same declarations, moved. -/
theorem resolve (h : Relocates move small large) {receiver : EntityRef}
    (hreceiver : (small.entity? receiver).isSome) (name : String) (ref : Name.MemberRef) :
    (large.resolve (move receiver) name ref).binding =
      ((small.resolve receiver name ref).binding).map (Binding.move move) :=
  h.embeds.resolve hreceiver name ref

end Relocates

end Hierarchy

end Referent
