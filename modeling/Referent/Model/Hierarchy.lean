import Referent.Name.Member
import Referent.Model.Entity

/-!
# The walk over supertypes

`findings` looks for the declarations of a member above a receiver, breadth first. A supertype
that declares the member is reported and not searched further: whatever its own supertypes
declare is shadowed. A supertype that does not declare it is searched in turn. References that
the hierarchy cannot see lead nowhere, and every reference is looked at once, so hierarchies
with cycles are as good as any.

The walk ends because looking at a reference removes it from the unseen ones: a step takes one
entry off the queue and adds no more entries than it takes references from the unseen
(`unseen_scan`).
-/

namespace Referent

/-- What a walk can see: two arenas, and the declaration under each name. -/
structure Hierarchy where
  library : Array Entity
  project : Array Entity
  declared? : String → Option EntityRef

/-- A supertype that declares the member, and its declaration. -/
structure Finding where
  ancestor : EntityRef
  /-- The kind of the supertype. -/
  kind : EntityKind
  declaration : EntityRef
  deriving DecidableEq, Repr

/-- What comes of looking at some references: all that are seen by now, the findings among
them, and those to be searched in turn. -/
structure Scan where
  seen : List EntityRef
  found : List Finding
  next : List EntityRef

namespace Hierarchy

/-- The entity behind a reference. -/
def entity? (hierarchy : Hierarchy) : EntityRef → Option Entity
  | .library slot => hierarchy.library[slot]?
  | .project slot => hierarchy.project[slot]?

/-- Every reference that has an entity behind it. -/
def refs (hierarchy : Hierarchy) : List EntityRef :=
  (List.range hierarchy.library.size).map .library ++
    (List.range hierarchy.project.size).map .project

/-- How many references have not been seen. -/
def unseen (hierarchy : Hierarchy) (seen : List EntityRef) : Nat :=
  hierarchy.refs.countP (· ∉ seen)

/-- Look at the references that have not been seen, in order. -/
def scan (hierarchy : Hierarchy) (member : String) (seen : List EntityRef) :
    List EntityRef → Scan
  | [] => { seen, found := [], next := [] }
  | ref :: refs =>
    if ref ∈ seen then hierarchy.scan member seen refs
    else
      let later := hierarchy.scan member (ref :: seen) refs
      match hierarchy.entity? ref with
      | none => later
      | some ancestor =>
        -- A supertype that declares the member shadows its own supertypes: it is not searched.
        match hierarchy.declared? (Name.memberName ancestor.name member) with
        | some declaration =>
          { later with found := ⟨ref, ancestor.kind, declaration⟩ :: later.found }
        | none => { later with next := ref :: later.next }

/-! ## Looking uses up the unseen -/

theorem mem_refs {hierarchy : Hierarchy} {ref : EntityRef} {entity : Entity}
    (h : hierarchy.entity? ref = some entity) : ref ∈ hierarchy.refs := by
  cases ref with
  | library slot =>
    have := (Array.getElem?_eq_some_iff.1 h).1
    simp [refs, this]
  | project slot =>
    have := (Array.getElem?_eq_some_iff.1 h).1
    simp [refs, this]

theorem unseen_cons_le (hierarchy : Hierarchy) (ref : EntityRef) (seen : List EntityRef) :
    hierarchy.unseen (ref :: seen) ≤ hierarchy.unseen seen := by
  apply List.countP_mono_left
  intro r _
  simp only [List.mem_cons, not_or, decide_eq_true_eq]
  exact And.right

theorem countP_cons_lt {refs seen : List EntityRef} {ref : EntityRef} (hmem : ref ∈ refs)
    (hnew : ref ∉ seen) : refs.countP (· ∉ ref :: seen) < refs.countP (· ∉ seen) := by
  induction refs with
  | nil => simp at hmem
  | cons r refs ih =>
    by_cases hr : r = ref
    · subst hr
      have : refs.countP (· ∉ r :: seen) ≤ refs.countP (· ∉ seen) := by
        apply List.countP_mono_left
        intro x _
        simp only [List.mem_cons, not_or, decide_eq_true_eq]
        exact And.right
      rw [List.countP_cons_of_neg (by simp), List.countP_cons_of_pos (by simpa using hnew)]
      omega
    · have := ih ((List.mem_cons.1 hmem).resolve_left (Ne.symm hr))
      by_cases hs : r ∈ seen
      · rw [List.countP_cons_of_neg (by simp [hs]), List.countP_cons_of_neg (by simpa using hs)]
        exact this
      · rw [List.countP_cons_of_pos (by simp [hr, hs]), List.countP_cons_of_pos (by simpa using hs)]
        omega

/-- Every entry for the queue costs an unseen reference. -/
theorem unseen_scan (hierarchy : Hierarchy) (member : String) (refs seen : List EntityRef) :
    hierarchy.unseen (hierarchy.scan member seen refs).seen +
      (hierarchy.scan member seen refs).next.length ≤ hierarchy.unseen seen := by
  induction refs generalizing seen with
  | nil => simp [scan]
  | cons ref refs ih =>
    rw [scan]
    split
    · exact ih seen
    · rename_i hnew
      have hlater := ih (ref :: seen)
      have hle := hierarchy.unseen_cons_le ref seen
      simp only
      split
      · omega
      · rename_i hentity
        have hlt : hierarchy.unseen (ref :: seen) < hierarchy.unseen seen :=
          countP_cons_lt (mem_refs hentity) hnew
        split
        · simp only
          omega
        · simp only [List.length_cons]
          omega

/-! ## The walk -/

/-- The findings among the supertypes of everything in the queue. -/
def walk (hierarchy : Hierarchy) (member : String) (seen : List EntityRef) :
    List EntityRef → List Finding
  | [] => []
  | current :: queue =>
    match hierarchy.entity? current with
    | none => hierarchy.walk member seen queue
    | some entity =>
      let scanned := hierarchy.scan member seen entity.parents
      scanned.found ++ hierarchy.walk member scanned.seen (queue ++ scanned.next)
termination_by queue => hierarchy.unseen seen + queue.length
decreasing_by
  · simp
  · have := hierarchy.unseen_scan member entity.parents seen
    simp only [List.length_append, List.length_cons]
    omega

/-- The declarations of a member above a receiver, nearest first. -/
def findings (hierarchy : Hierarchy) (receiver : EntityRef) (member : String) : List Finding :=
  hierarchy.walk member [receiver] [receiver]

end Hierarchy

end Referent
