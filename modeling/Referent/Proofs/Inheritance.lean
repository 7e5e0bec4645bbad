import Referent.Proofs.Choice

/-!
# Superclasses come first

Where classes have one superclass and interfaces extend interfaces alone, the superclasses above
a receiver are a single chain, and nothing else of a class can be inherited: a supertype that is
no interface is reached through classes only, so along that chain (`Hierarchy.Ascent.superclass`).
Hence one class at most has a say in what a method resolves to, the nearest that declares it.

The chain may lead back to the receiver, which is no superclass of itself. It then repeats, so a
superclass that declares the member is met before the chain returns (`Superclass.of_return`).
-/

namespace Referent

namespace Hierarchy

variable {hierarchy : Hierarchy} {member : String} {receiver : EntityRef}

/-! ## Supertypes that can be seen -/

/-- The kind of the entity behind a reference. -/
def kind? (hierarchy : Hierarchy) (ref : EntityRef) : Option EntityKind :=
  (hierarchy.entity? ref).map (·.kind)

/-- The direct supertypes of an entity that have entities behind them. -/
def supertypes (hierarchy : Hierarchy) (ref : EntityRef) : List EntityRef :=
  ((hierarchy.entity? ref).elim [] (·.parents)).filter fun parent =>
    (hierarchy.entity? parent).isSome

theorem mem_supertypes {child parent : EntityRef} :
    parent ∈ hierarchy.supertypes child ↔ hierarchy.Above child parent := by
  rw [supertypes, List.mem_filter, Above]
  cases hierarchy.entity? child with
  | none => simp
  | some entity => simp

theorem Above.mem_refs {child parent : EntityRef} (h : hierarchy.Above child parent) :
    child ∈ hierarchy.refs := by
  obtain ⟨entity, hentity, -⟩ := h
  exact Hierarchy.mem_refs hentity

theorem kind_of_finding? {ref : EntityRef} {finding : Finding}
    (h : hierarchy.finding? member ref = some finding) :
    hierarchy.kind? ref = some finding.kind := by
  simp only [finding?, Option.bind_eq_some_iff, Option.map_eq_some_iff] at h
  obtain ⟨entity, hentity, declaration, -, rfl⟩ := h
  rw [kind?, hentity, Option.map_some]

/-! ## Single inheritance -/

/-- One entity is a direct supertype of another, and no interface. -/
def Extends (hierarchy : Hierarchy) (child parent : EntityRef) : Prop :=
  hierarchy.Above child parent ∧ hierarchy.kind? parent ≠ some .interface

/-- No entity has two direct supertypes that are no interfaces, and interfaces have none. -/
structure SingleInheritance (hierarchy : Hierarchy) : Prop where
  unique : ∀ child first second, hierarchy.Extends child first → hierarchy.Extends child second →
    first = second
  interfaces : ∀ child parent, hierarchy.Above child parent →
    hierarchy.kind? child = some .interface → hierarchy.kind? parent = some .interface

/-- Single inheritance can be checked entity by entity. -/
theorem SingleInheritance.of_supertypes
    (hunique : ∀ child ∈ hierarchy.refs, ∀ first ∈ hierarchy.supertypes child,
      ∀ second ∈ hierarchy.supertypes child, hierarchy.kind? first ≠ some .interface →
      hierarchy.kind? second ≠ some .interface → first = second)
    (hinterfaces : ∀ child ∈ hierarchy.refs, ∀ parent ∈ hierarchy.supertypes child,
      hierarchy.kind? child = some .interface → hierarchy.kind? parent = some .interface) :
    hierarchy.SingleInheritance where
  unique child first second hfirst hsecond :=
    hunique child hfirst.1.mem_refs first (mem_supertypes.2 hfirst.1) second
      (mem_supertypes.2 hsecond.1) hfirst.2 hsecond.2
  interfaces child parent habove :=
    hinterfaces child habove.mem_refs parent (mem_supertypes.2 habove)

/-! ## The chain of superclasses -/

/-- `Superclass hierarchy receiver depth ref` — going up from superclass to superclass, `depth`
steps lead from the receiver to `ref`. -/
inductive Superclass (hierarchy : Hierarchy) (receiver : EntityRef) : Nat → EntityRef → Prop
  | receiver : Superclass hierarchy receiver 0 receiver
  | next {depth : Nat} {ref parent : EntityRef} : Superclass hierarchy receiver depth ref →
      hierarchy.Extends ref parent → Superclass hierarchy receiver (depth + 1) parent

theorem Superclass.exists_below {depth : Nat} {parent : EntityRef}
    (h : hierarchy.Superclass receiver (depth + 1) parent) :
    ∃ ref, hierarchy.Superclass receiver depth ref ∧ hierarchy.Extends ref parent := by
  cases h with
  | next hsuper hextends => exact ⟨_, hsuper, hextends⟩

/-- The chain does not branch. -/
theorem Superclass.unique (hsingle : hierarchy.SingleInheritance) {depth : Nat}
    {first second : EntityRef} (hfirst : hierarchy.Superclass receiver depth first)
    (hsecond : hierarchy.Superclass receiver depth second) : first = second := by
  induction hfirst generalizing second with
  | receiver =>
    cases hsecond
    rfl
  | next _ hextends ih =>
    obtain ⟨ref, hsuper, hextends'⟩ := hsecond.exists_below
    obtain rfl := ih hsuper
    exact hsingle.unique _ _ _ hextends hextends'

/-- A chain that returns to the receiver goes the same way again. -/
theorem Superclass.of_return (hsingle : hierarchy.SingleInheritance) {depth further : Nat}
    {ref : EntityRef} (hreturn : hierarchy.Superclass receiver depth receiver)
    (h : hierarchy.Superclass receiver (depth + further) ref) :
    hierarchy.Superclass receiver further ref := by
  induction further generalizing ref with
  | zero =>
    obtain rfl := hreturn.unique hsingle h
    exact .receiver
  | succ further ih =>
    obtain ⟨below, hbelow, hextends⟩ := h.exists_below
    exact .next (ih hbelow) hextends

/-- A supertype that is no interface is reached along the chain of superclasses, and no
superclass before it declares the member. -/
theorem Ascent.superclass (hsingle : hierarchy.SingleInheritance) {top : EntityRef}
    (h : hierarchy.Ascent member receiver top) (hkind : hierarchy.kind? top ≠ some .interface) :
    ∃ depth, hierarchy.Superclass receiver (depth + 1) top ∧
      ∀ nearer, 0 < nearer → nearer ≤ depth → ∀ ref, hierarchy.Superclass receiver nearer ref →
        hierarchy.finding? member ref = none := by
  induction h with
  | first habove =>
    refine ⟨0, .next .receiver ⟨habove, hkind⟩, fun nearer hpos hle => ?_⟩
    omega
  | @next ref parent _ hnone habove ih =>
    -- Above an interface there are interfaces alone.
    have hclass : hierarchy.kind? ref ≠ some .interface :=
      fun hinterface => hkind (hsingle.interfaces ref parent habove hinterface)
    obtain ⟨depth, hsuper, hsilent⟩ := ih hclass
    refine ⟨depth + 1, .next hsuper ⟨habove, hkind⟩, fun nearer hpos hle other hother => ?_⟩
    rcases Nat.lt_or_eq_of_le hle with hlt | rfl
    · exact hsilent nearer hpos (Nat.le_of_lt_succ hlt) other hother
    · rw [hother.unique hsingle hsuper]
      exact hnone

/-- A declaration that is inherited from a class stands at the first superclass that declares
the member. -/
theorem Inherits.superclass (hsingle : hierarchy.SingleInheritance) {finding : Finding}
    (h : hierarchy.Inherits member receiver finding) (hkind : finding.kind ≠ .interface) :
    ∃ depth, hierarchy.Superclass receiver (depth + 1) finding.ancestor ∧
      ∀ nearer, 0 < nearer → nearer ≤ depth → ∀ ref, hierarchy.Superclass receiver nearer ref →
        hierarchy.finding? member ref = none := by
  apply h.ascent.superclass hsingle
  rw [kind_of_finding? h.declares, ne_eq, Option.some_inj]
  exact hkind

/-- A receiver inherits from one class at most. -/
theorem Inherits.class_unique (hsingle : hierarchy.SingleInheritance) {first second : Finding}
    (hfirst : hierarchy.Inherits member receiver first) (hfirstKind : first.kind ≠ .interface)
    (hsecond : hierarchy.Inherits member receiver second)
    (hsecondKind : second.kind ≠ .interface) : first = second := by
  obtain ⟨depth, hsuper, hsilent⟩ := hfirst.superclass hsingle hfirstKind
  obtain ⟨depth', hsuper', hsilent'⟩ := hsecond.superclass hsingle hsecondKind
  have hdeclares := hfirst.declares
  have hdeclares' := hsecond.declares
  have hsame : depth = depth' := by
    rcases Nat.lt_trichotomy depth depth' with hlt | heq | hlt
    · rw [hsilent' (depth + 1) (Nat.succ_pos _) hlt _ hsuper] at hdeclares
      cases hdeclares
    · exact heq
    · rw [hsilent (depth' + 1) (Nat.succ_pos _) hlt _ hsuper'] at hdeclares'
      cases hdeclares'
  subst hsame
  rw [hsuper.unique hsingle hsuper', hdeclares'] at hdeclares
  exact (Option.some.inj hdeclares).symm

/-- So a method has one candidate in classes at most. -/
theorem Candidates.class_unique (hsingle : hierarchy.SingleInheritance) {classes : List EntityRef}
    (h : hierarchy.Candidates member receiver (· ≠ .interface) classes) :
    classes = [] ∨ ∃ only, classes = [only] := by
  match classes with
  | [] => exact .inl rfl
  | [only] => exact .inr ⟨only, rfl⟩
  | first :: second :: rest =>
    obtain ⟨finding, hinherits, hkind, hfirst⟩ := (h.mem_iff first).1 (by simp)
    obtain ⟨other, hinherits', hkind', hsecond⟩ := (h.mem_iff second).1 (by simp)
    have hsame : first = second := by
      rw [← hfirst, ← hsecond, hinherits.class_unique hsingle hkind hinherits' hkind']
    have hdistinct := (List.nodup_cons.1 h.nodup).1
    exact absurd (hsame ▸ List.mem_cons_self) hdistinct

/-! ## The nearest superclass that declares a member -/

/-- Of the superclasses of the receiver, itself left out, the one at `depth` is the nearest that
declares the member. -/
structure NearestSuperclass (hierarchy : Hierarchy) (member : String) (receiver : EntityRef)
    (depth : Nat) (finding : Finding) : Prop where
  superclass : hierarchy.Superclass receiver depth finding.ancestor
  ne_receiver : finding.ancestor ≠ receiver
  declares : hierarchy.finding? member finding.ancestor = some finding
  nearest : ∀ nearer < depth, ∀ ref, hierarchy.Superclass receiver nearer ref →
    ref ≠ receiver → hierarchy.finding? member ref = none

/-- If any superclass declares the member, there is a nearest one. -/
theorem exists_nearestSuperclass {depth : Nat} {ref : EntityRef}
    (hsuper : hierarchy.Superclass receiver depth ref) (hne : ref ≠ receiver)
    (hdeclares : (hierarchy.finding? member ref).isSome) :
    ∃ depth finding, hierarchy.NearestSuperclass member receiver depth finding := by
  induction depth using Nat.strongRecOn generalizing ref with
  | ind depth ih =>
    by_cases hnearer : ∃ nearer < depth, ∃ other, hierarchy.Superclass receiver nearer other ∧
        other ≠ receiver ∧ (hierarchy.finding? member other).isSome
    · obtain ⟨nearer, hlt, other, hother, hne', hdeclares'⟩ := hnearer
      exact ih nearer hlt hother hne' hdeclares'
    · obtain ⟨finding, hfinding⟩ := Option.isSome_iff_exists.1 hdeclares
      obtain rfl := ancestor_of_finding? hfinding
      refine ⟨depth, finding, hsuper, hne, hfinding, fun nearer hlt other hother hne' => ?_⟩
      by_contra hsome
      exact hnearer ⟨nearer, hlt, other, hother, hne', Option.isSome_iff_ne_none.2 hsome⟩

namespace NearestSuperclass

variable {depth : Nat} {finding : Finding}

/-- Before the nearest superclass that declares the member, the chain is not back at the
receiver: it would go the same way again and reach that superclass sooner. -/
theorem ne_receiver_of_lt (hsingle : hierarchy.SingleInheritance)
    (h : hierarchy.NearestSuperclass member receiver depth finding) {nearer : Nat}
    {ref : EntityRef} (hpos : 0 < nearer) (hlt : nearer < depth)
    (hsuper : hierarchy.Superclass receiver nearer ref) : ref ≠ receiver := by
  rintro rfl
  have hsplit : nearer + (depth - nearer) = depth := by omega
  have hagain := hsuper.of_return hsingle (hsplit ▸ h.superclass)
  have hnone := h.nearest (depth - nearer) (by omega) _ hagain h.ne_receiver
  rw [h.declares] at hnone
  cases hnone

theorem ascent (hsingle : hierarchy.SingleInheritance)
    (h : hierarchy.NearestSuperclass member receiver depth finding) {nearer : Nat}
    {ref : EntityRef} (hle : nearer + 1 ≤ depth)
    (hsuper : hierarchy.Superclass receiver (nearer + 1) ref) :
    hierarchy.Ascent member receiver ref := by
  induction nearer generalizing ref with
  | zero =>
    obtain ⟨below, hbelow, hextends⟩ := hsuper.exists_below
    cases hbelow
    exact .first hextends.1
  | succ nearer ih =>
    obtain ⟨below, hbelow, hextends⟩ := hsuper.exists_below
    have hne := h.ne_receiver_of_lt hsingle (Nat.succ_pos _) hle hbelow
    exact .next (ih (Nat.le_of_lt hle) hbelow) (h.nearest _ hle below hbelow hne) hextends.1

/-- The receiver inherits from the nearest superclass that declares the member, and that is no
interface. -/
theorem inherits (hsingle : hierarchy.SingleInheritance)
    (h : hierarchy.NearestSuperclass member receiver depth finding) :
    hierarchy.Inherits member receiver finding ∧ finding.kind ≠ .interface := by
  obtain ⟨hsuper, hne, hdeclares, -⟩ := id h
  cases depth with
  | zero =>
    cases hsuper
    exact absurd rfl hne
  | succ depth =>
    obtain ⟨below, -, hextends⟩ := hsuper.exists_below
    refine ⟨⟨hne, h.ascent hsingle (Nat.le_refl _) hsuper, hdeclares⟩, fun hkind => ?_⟩
    apply hextends.2
    rw [kind_of_finding? hdeclares, hkind]

end NearestSuperclass

/-- **Superclasses come first.** Under single inheritance of classes a method never has several
candidates in classes. If a superclass of the receiver declares it, then there is a nearest one
that does, and its declaration is what the method resolves to, whatever interfaces declare. -/
theorem nearest_superclass_wins (hsingle : hierarchy.SingleInheritance) (receiver : EntityRef)
    (name member : String) :
    (hierarchy.resolveMethod receiver name member).anomaly = none ∧
    (∀ depth finding, hierarchy.NearestSuperclass member receiver depth finding →
      hierarchy.resolveMethod receiver name member =
        { binding := some (.resolved finding.declaration) }) ∧
    (∀ depth ref, hierarchy.Superclass receiver depth ref → ref ≠ receiver →
      (hierarchy.finding? member ref).isSome →
      ∃ depth finding, hierarchy.NearestSuperclass member receiver depth finding) := by
  obtain ⟨classes, interfaces, hclasses, -, heq⟩ :=
    hierarchy.resolveMethod_candidates receiver name member
  have hunique := hclasses.class_unique hsingle
  refine ⟨?_, fun depth finding hnearest => ?_, fun depth ref hsuper hne hdeclares =>
    exists_nearestSuperclass hsuper hne hdeclares⟩
  · rw [heq]
    rcases hunique with rfl | ⟨only, rfl⟩
    · match interfaces with
      | [] => rfl
      | [_] => rfl
      | _ :: _ :: _ => rfl
    · rfl
  · obtain ⟨hinherits, hkind⟩ := hnearest.inherits hsingle
    have hmem : finding.declaration ∈ classes :=
      (hclasses.mem_iff _).2 ⟨finding, hinherits, hkind, rfl⟩
    rcases hunique with rfl | ⟨only, rfl⟩
    · simp at hmem
    · rw [heq, List.mem_singleton.1 hmem]
      rfl

/-- `a.A` extends `a.B`, which extends `a.C`, which extends `a.A` again, and `a.A` implements
`a.I`; the method is declared by `a.A`, `a.C` and `a.I`. -/
def loopedHierarchy : Hierarchy where
  library := #[
    { name := "a.A", kind := .class, id := ⟨1⟩, origin := .library
      parents := [.library 3, .library 1] },
    { name := "a.B", kind := .class, id := ⟨2⟩, origin := .library, parents := [.library 2] },
    { name := "a.C", kind := .class, id := ⟨3⟩, origin := .library, parents := [.library 0] },
    { name := "a.I", kind := .interface, id := ⟨4⟩, origin := .library }]
  project := #[]
  declared? name :=
    [("a.A.m()", .library 4), ("a.C.m()", .library 5), ("a.I.m()", .library 6)].lookup name

/-- The method of the superclass two steps up comes before that of the interface next to the
receiver, and before that of the receiver, to which the superclasses lead back. -/
theorem second_superclass_wins_in_loop :
    loopedHierarchy.SingleInheritance ∧
    loopedHierarchy.NearestSuperclass "m()" (.library 0) 2 ⟨.library 2, .class, .library 5⟩ ∧
    loopedHierarchy.Superclass (.library 0) 3 (.library 0) ∧
    loopedHierarchy.Inherits "m()" (.library 0) ⟨.library 3, .interface, .library 6⟩ ∧
    loopedHierarchy.resolveMethod (.library 0) "a.A.m()" "m()" =
      { binding := some (.resolved (.library 5)) } := by
  have hsingle : loopedHierarchy.SingleInheritance :=
    .of_supertypes (by decide +kernel) (by decide +kernel)
  have hextends {child parent : EntityRef}
      (h : parent ∈ loopedHierarchy.supertypes child ∧
        loopedHierarchy.kind? parent ≠ some .interface) :
      loopedHierarchy.Extends child parent := ⟨mem_supertypes.1 h.1, h.2⟩
  have hfirst : loopedHierarchy.Superclass (.library 0) 1 (.library 1) :=
    .next .receiver (hextends (by decide +kernel))
  have hsecond : loopedHierarchy.Superclass (.library 0) 2 (.library 2) :=
    .next hfirst (hextends (by decide +kernel))
  have hnearest : loopedHierarchy.NearestSuperclass "m()" (.library 0) 2
      ⟨.library 2, .class, .library 5⟩ := by
    refine ⟨hsecond, by decide, by decide +kernel, fun nearer hlt ref href hne => ?_⟩
    match nearer with
    | 0 => exact absurd (href.unique hsingle .receiver) hne
    | 1 =>
      rw [href.unique hsingle hfirst]
      decide +kernel
  refine ⟨hsingle, hnearest, .next hsecond (hextends (by decide +kernel)), ?_, ?_⟩
  · exact ⟨by decide, .first (mem_supertypes.1 (by decide +kernel)), by decide +kernel⟩
  · exact (nearest_superclass_wins hsingle (.library 0) "a.A.m()" "m()").2.1 2 _ hnearest

end Hierarchy

end Referent
