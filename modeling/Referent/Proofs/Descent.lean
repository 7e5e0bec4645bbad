import Mathlib.Data.String.Basic
import Referent.Proofs.Balance
import Referent.Proofs.Growth

/-!
# Lookups descend

A compound type is looked up through the parts that its name spells out, and these are names again.
A part need not be found in the name as it stands, since the base of a parameterized type is put
together from what stands around the brackets. But whatever the name is, each part is made of some
of its characters, in their order (`Piece`), at least one and never all. So a part is shorter, it
has no parenthesis that the name does not have, and being a part is well founded.

A lookup is one step around the lookups of the parts (`getEntityBy`). With these bounded in depth,
and refused for every name whose own lookup is under way (`getEntityWithin`), it is the same lookup,
as long as the bound is above the length of the name: neither the bound nor a refusal is ever met
(`getEntityWithin_eq`).
-/

namespace Referent

namespace Name

variable {depth : Nat} {c sep : Char} {cs rest whole piece : List Char} {shape : Shape}

/-! ## Pieces -/

/-- Some characters of a text, in their order: what is left when the others are cut out. -/
structure Piece (whole piece : List Char) : Prop where
  nonempty : piece ≠ []
  sublist : piece.Sublist whole

theorem Piece.within (h : Piece cs piece) (hwhole : cs.Sublist whole) : Piece whole piece :=
  ⟨h.nonempty, h.sublist.trans hwhole⟩

theorem trim_sublist (cs : List Char) : (Text.trim cs).Sublist cs :=
  (Text.trimEnd_initial _).sublist.trans (Text.trimStart_suffix cs).sublist

theorem sublist_of_mem_cutAll (h : piece ∈ (cutAll sep depth cs).1 :: (cutAll sep depth cs).2) :
    piece.Sublist cs := by
  induction cs generalizing depth piece with
  | nil =>
    obtain rfl : piece = [] := by simpa [cutAll] using h
    exact .refl []
  | cons c cs ih =>
    have hrest := @ih (depthAfter depth c)
    simp only [cutAll] at h
    -- A separator closes a piece; any other character goes in front of the first one.
    split at h
    · rcases List.mem_cons.1 h with rfl | h
      · exact List.nil_sublist _
      · exact (hrest h).cons c
    · rcases List.mem_cons.1 h with rfl | h
      · exact (hrest List.mem_cons_self).cons_cons c
      · exact (hrest (List.mem_cons_of_mem _ h)).cons c

theorem piece_of_mem_items (h : piece ∈ items sep cs) : Piece cs piece := by
  simp only [items, List.mem_filter, List.mem_map] at h
  obtain ⟨⟨untrimmed, hpiece, rfl⟩, hnonempty⟩ := h
  refine ⟨?_, (trim_sublist untrimmed).trans (sublist_of_mem_cutAll hpiece)⟩
  intro hnil
  rw [hnil] at hnonempty
  cases hnonempty

theorem outside_sublist (depth : Nat) (cs : List Char) : (outside depth cs).Sublist cs := by
  induction cs generalizing depth with
  | nil => exact .refl []
  | cons c cs ih =>
    rw [outside]
    split
    · exact (ih _).cons c
    · exact (ih _).cons_cons c

theorem groupsFrom_sublist (depth : Nat) (cs : List Char) :
    (groupsFrom depth cs).1.Sublist cs ∧
      ∀ group ∈ (groupsFrom depth cs).2, group.Sublist cs := by
  induction cs generalizing depth with
  | nil => exact ⟨.refl [], fun _ hgroup => absurd hgroup List.not_mem_nil⟩
  | cons c cs ih =>
    obtain ⟨hopen, hlater⟩ := ih (depthAfter depth c)
    have hlonger : ∀ group ∈ (groupsFrom (depthAfter depth c) cs).2, group.Sublist (c :: cs) :=
      fun group hgroup => (hlater group hgroup).cons c
    simp only [groupsFrom]
    -- No group is open outside brackets, nor behind a bracket that closes the outermost.
    split
    · refine ⟨List.nil_sublist _, ?_⟩
      split
      · intro group hgroup
        rcases List.mem_cons.1 hgroup with rfl | hgroup
        · exact hopen.cons c
        · exact hlonger group hgroup
      · exact hlonger
    · split
      · exact ⟨List.nil_sublist _, hlonger⟩
      · exact ⟨hopen.cons_cons c, hlonger⟩

theorem sublist_of_cutFirst {mark before found : List Char}
    (h : cutFirst mark depth cs = some (before, found)) :
    before.Sublist cs ∧ found.Sublist cs := by
  rw [← append_eq_of_cutFirst h]
  exact ⟨List.sublist_append_left _ _, List.sublist_append_right _ _⟩

/-! ## Parts of a name -/

/-- The parts of a shape are pieces of the text. -/
def Shape.CutFrom (shape : Shape) (cs : List Char) : Prop :=
  ∀ part ∈ shape.constituents, Piece cs part.2.toList

theorem cutFrom_of_readArray (h : readArray cs = some shape) : shape.CutFrom cs := by
  obtain ⟨element, dimensions, hends, hnonempty, rfl⟩ := readArray_eq_some_iff.1 h
  intro part hpart
  rw [List.mem_singleton.1 hpart, String.toList_ofList, hends.spelled]
  exact ⟨hnonempty, List.sublist_append_left _ _⟩

/-- The bound of a wildcard is the one part it has. -/
theorem cutFrom_of_side {side : Side} (h : Piece cs piece) :
    (Shape.wildcard (side.bound (String.ofList piece))).CutFrom cs := by
  intro part hpart
  obtain ⟨kind, rfl⟩ : ∃ kind, part = (kind, String.ofList piece) := by
    cases side <;> exact ⟨_, List.mem_singleton.1 hpart⟩
  rwa [String.toList_ofList]

theorem cutFrom_of_readWildcard (h : readWildcard cs = some shape) : shape.CutFrom cs := by
  have hunbounded : (Shape.wildcard .unbounded).CutFrom cs :=
    fun _ hpart => absurd hpart List.not_mem_nil
  obtain ⟨bound, rfl, ⟨inner, hcs, hinner⟩ | ⟨rest, hcs, hrest⟩⟩ := readWildcard_eq_some h
  · rcases readCompactBound_eq_some_iff.1 hinner with ⟨-, rfl⟩ | ⟨side, type, rfl, hnonempty, rfl⟩
    · exact hunbounded
    · apply cutFrom_of_side
      refine ⟨hnonempty, ?_⟩
      have htype : type.Sublist ('?' :: side.sign :: type) :=
        ((List.Sublist.refl type).cons _).cons _
      rw [hcs]
      exact (htype.trans (List.sublist_append_left _ _)).cons '<'
  · rcases readSourceBound_eq_some_iff.1 hrest with
      ⟨-, rfl⟩ | ⟨side, type, hword, hnonempty, rfl⟩
    · exact hunbounded
    · apply cutFrom_of_side
      have htype : type.Sublist (Text.trimStart rest) := by
        rw [hword]
        exact List.sublist_append_right _ _
      rw [hcs]
      exact ⟨hnonempty,
        (((trim_sublist type).trans htype).trans (Text.trimStart_suffix rest).sublist).cons '?'⟩

theorem cutFrom_of_readTypeVariable (h : readTypeVariable cs = some shape) :
    shape.CutFrom cs := by
  obtain ⟨inner, rfl, -, rfl⟩ := readTypeVariable_eq_some h
  have hbounds : (((cutFirst ['+'] 0 inner).getD (inner, [])).2.drop 1).Sublist inner := by
    cases hcut : cutFirst ['+'] 0 inner with
    | none => exact List.nil_sublist _
    | some found => exact (List.drop_sublist 1 _).trans (sublist_of_cutFirst hcut).2
  have hinner : inner.Sublist (inBrackets inner) :=
    (List.sublist_append_left inner _).cons '<'
  intro part hpart
  simp only [Shape.constituents, List.map_map, List.mem_map] at hpart
  obtain ⟨bound, hbound, rfl⟩ := hpart
  rw [Function.comp_apply, String.toList_ofList]
  exact (piece_of_mem_items hbound).within (hbounds.trans hinner)

theorem cutFrom_of_readParameterized (h : readParameterized cs = some shape) :
    shape.CutFrom cs := by
  simp only [readParameterized, Option.ite_none_right_eq_some, Option.map_eq_some_iff] at h
  obtain ⟨-, base, hbase, rfl⟩ := h
  obtain ⟨hnonempty, rfl⟩ := nonEmpty_eq_some_iff.1 hbase
  intro part hpart
  rcases List.mem_cons.1 hpart with rfl | hpart
  · rw [String.toList_ofList]
    exact ⟨hnonempty, outside_sublist 0 cs⟩
  · simp only [List.map_map, List.mem_map, List.mem_flatMap] at hpart
    obtain ⟨argument, ⟨group, hgroup, hitem⟩, rfl⟩ := hpart
    rw [Function.comp_apply, String.toList_ofList]
    exact (piece_of_mem_items hitem).within ((groupsFrom_sublist 0 cs).2 group hgroup)

/-- The parts of a name are pieces of it. -/
theorem Shape.ofName_cutFrom (name : String) : (ofName name).CutFrom name.toList := by
  rcases ofName_cases name with hread | ⟨-, hread | hread | hread | hsimple⟩
  · exact cutFrom_of_readArray hread
  · exact cutFrom_of_readWildcard hread
  · exact cutFrom_of_readTypeVariable hread
  · exact cutFrom_of_readParameterized hread
  · rw [hsimple]
    exact fun _ hpart => absurd hpart List.not_mem_nil

/-- A name that is looked up on the way to another. -/
def IsPart (part name : String) : Prop :=
  ∃ kind, (kind, part) ∈ (Shape.ofName name).constituents

theorem wellFounded_isPart : WellFounded IsPart :=
  Subrelation.wf (fun ⟨_, hpart⟩ => length_lt_of_mem_constituents hpart)
    (measure String.length).wf

/-- The base of this name is put together from what stands around the brackets, and is an array. -/
example : IsPart "a[]" "a[<b>]" ∧ IsPart "a" "a[]" :=
  ⟨⟨.hasBaseType, by decide +kernel⟩, ⟨.hasElementsOf, by decide +kernel⟩⟩

/-- Every character that is left out has a byte at least. -/
theorem utf8Len_lt_of_sublist (h : piece.Sublist whole) (hlength : piece.length < whole.length) :
    String.utf8Len piece < String.utf8Len whole := by
  induction h with
  | slnil => exact absurd hlength (Nat.lt_irrefl 0)
  | cons c hrest _ =>
    have hle := String.utf8Len_le_of_sublist hrest
    have hbyte := c.utf8Size_pos
    rw [String.utf8Len_cons]
    omega
  | cons_cons c _ ih =>
    rw [String.utf8Len_cons, String.utf8Len_cons]
    exact Nat.add_lt_add_right (ih (Nat.lt_of_succ_lt_succ hlength)) _

theorem utf8ByteSize_lt_of_mem_constituents {name : String} {part : RelationKind × String}
    (h : part ∈ (Shape.ofName name).constituents) :
    part.2.utf8ByteSize < name.utf8ByteSize := by
  rw [← String.utf8Len_toList, ← String.utf8Len_toList]
  exact utf8Len_lt_of_sublist (Shape.ofName_cutFrom name part h).sublist
    (length_lt_of_mem_constituents h)

/-! ## Depth in balanced text -/

/-- In front of a bracket that closes some bracket is open, and what is open is what has been opened
and not been closed: depth has not been cut off at zero. -/
theorem depthBehind_of_balancedFrom {before after : List Char}
    (h : balancedFrom depth (before ++ '>' :: after) = true) :
    1 ≤ depthBehind depth before ∧
      depthBehind depth before + before.count '>' = depth + before.count '<' := by
  induction before generalizing depth with
  | nil =>
    have hmatched := (balancedFrom_cons.1 h).1
    have hpositive : depth ≠ 0 := fun hzero => hmatched ⟨rfl, hzero⟩
    exact ⟨Nat.pos_of_ne_zero hpositive, rfl⟩
  | cons c before ih =>
    obtain ⟨hmatched, hrest⟩ := balancedFrom_cons.1 h
    obtain ⟨hpositive, hdepth⟩ := ih hrest
    have hcount := depthAfter_add_count hmatched before
    refine ⟨hpositive, ?_⟩
    show depthBehind (depthAfter depth c) before + _ = _
    omega

end Name

/-! ## Bounded lookups -/

namespace ProjectModel

open Lookup

/-- Look a part up by `lookup` and relate the whole to it. -/
def linkPartBy (lookup : String → Lookup EntityRef) (id : EntityId) (part : RelationKind × String) :
    Lookup Unit := do
  relateTo id part.1 (← lookup part.2)

/-- A plain lookup, with the parts of a compound type looked up by `lookup`. -/
def getEntityBy (lookup : String → Lookup EntityRef) (name : String) : Lookup EntityRef := do
  match (← get).model.find? name with
  | some found => return found
  | none =>
    match Name.compoundKind? name with
    | some kind =>
      let (id, made) ← synthesize name kind
      unbinding name <| (Name.Shape.ofName name).constituents.forM (linkPartBy lookup id)
      return made
    | none =>
      match (← get).model.library.find? name with
      | some found => return found
      | none => unknown name

/-- A plain lookup with at most `depth` lookups within each other, none of them for a name that is
looked up already. Beyond these limits it does anything. -/
def getEntityWithin (beyond : String → Lookup EntityRef) :
    (depth : Nat) → (underWay : List String) → String → Lookup EntityRef
  | 0, _, name => beyond name
  | depth + 1, underWay, name =>
    if name ∈ underWay then beyond name
    else getEntityBy (getEntityWithin beyond depth (name :: underWay)) name

variable {lookup other : String → Lookup EntityRef} {name : String}

theorem linkPartsBy_congr {parts : List (RelationKind × String)} {id : EntityId}
    (h : ∀ part ∈ parts, lookup part.2 = other part.2) :
    parts.forM (linkPartBy lookup id) = parts.forM (linkPartBy other id) := by
  induction parts with
  | nil => rfl
  | cons part parts ih =>
    have hfirst : linkPartBy lookup id part = linkPartBy other id part := by
      rw [linkPartBy, linkPartBy, h part List.mem_cons_self]
    show (linkPartBy lookup id part >>= fun _ => parts.forM (linkPartBy lookup id)) =
      (linkPartBy other id part >>= fun _ => parts.forM (linkPartBy other id))
    rw [hfirst, ih fun part hpart => h part (List.mem_cons_of_mem _ hpart)]

/-- Nothing but the parts is looked up. -/
theorem getEntityBy_congr
    (h : ∀ part ∈ (Name.Shape.ofName name).constituents, lookup part.2 = other part.2) :
    getEntityBy lookup name = getEntityBy other name := by
  simp only [getEntityBy, linkPartsBy_congr h]

/-- A plain lookup looks the parts up in the same way. -/
theorem getEntity_eq (name : String) : getEntity name = getEntityBy getEntity name := by
  funext state
  cases hfind : state.model.find? name with
  | some ref =>
    rw [getEntity_found hfind, getEntityBy]
    simp only [get_bind_apply, hfind]
    rfl
  | none =>
    cases hkind : Name.compoundKind? name with
    | some kind =>
      rw [getEntity_compound hfind hkind, getEntityBy]
      simp only [get_bind_apply, hfind, hkind]
      rfl
    | none =>
      cases hlibrary : state.model.library.find? name with
      | some ref =>
        rw [getEntity_library hfind hkind hlibrary, getEntityBy]
        simp only [get_bind_apply, hfind, hkind, hlibrary]
        rfl
      | none =>
        rw [getEntity_unknown hfind hkind hlibrary, getEntityBy]
        simp only [get_bind_apply, hfind, hkind, hlibrary]

/-- The limits are not met if the bound is above the length of the name and all names under way are
longer than it. -/
theorem getEntityWithin_eq (beyond : String → Lookup EntityRef) {depth : Nat}
    {underWay : List String} (hdepth : name.length < depth)
    (hlonger : ∀ longer ∈ underWay, name.length < longer.length) :
    getEntityWithin beyond depth underWay name = getEntity name := by
  induction depth generalizing underWay name with
  | zero => exact absurd hdepth (Nat.not_lt_zero _)
  | succ depth ih =>
    have hfree : name ∉ underWay := fun hmem => Nat.lt_irrefl _ (hlonger name hmem)
    rw [getEntityWithin, if_neg hfree, getEntity_eq]
    apply getEntityBy_congr
    intro part hpart
    -- The part is shorter than the name, and with it than all names under way.
    have hshorter := Name.length_lt_of_mem_constituents hpart
    apply ih (by omega)
    intro longer hmem
    rcases List.mem_cons.1 hmem with rfl | hmem
    · exact hshorter
    · exact Nat.lt_trans hshorter (hlonger longer hmem)

/-- The parts of a name are not empty, are shorter than the name, in characters and in bytes, and
have no parenthesis if the name has none. So being a part is well founded, and at most one lookup
more than the name has characters is ever under way, with no two of them for one name. In a name
that passes the test for balance, each bracket that closes stands where brackets are open. -/
theorem lookups_descend (name : String) :
    (∀ part ∈ (Name.Shape.ofName name).constituents,
      part.2 ≠ "" ∧ part.2.length < name.length ∧ part.2.utf8ByteSize < name.utf8ByteSize ∧
        ('(' ∉ name.toList → '(' ∉ part.2.toList)) ∧
    WellFounded Name.IsPart ∧
    (∀ beyond depth, name.length < depth →
      getEntityWithin beyond depth [] name = getEntity name) ∧
    (Name.isBalanced name.toList = true → ∀ before after, name.toList = before ++ '>' :: after →
      1 ≤ Name.depthBehind 0 before ∧
        Name.depthBehind 0 before + before.count '>' = before.count '<') := by
  refine ⟨fun part hpart => ?_, Name.wellFounded_isPart, fun beyond depth hdepth => ?_,
    fun hbalanced before after heq => ?_⟩
  · have hpiece := Name.Shape.ofName_cutFrom name part hpart
    refine ⟨?_, Name.length_lt_of_mem_constituents hpart,
      Name.utf8ByteSize_lt_of_mem_constituents hpart, ?_⟩
    · intro hempty
      exact hpiece.nonempty (by rw [hempty, String.toList_empty])
    · exact fun hnone hparen => hnone (hpiece.sublist.subset hparen)
  · exact getEntityWithin_eq beyond hdepth fun _ hmem => absurd hmem List.not_mem_nil
  · rw [heq, Name.isBalanced] at hbalanced
    simpa using Name.depthBehind_of_balancedFrom hbalanced

/-- A lookup of a map never comes to the point where it would fail for its depth. -/
theorem map_lookup_descends :
    let name := "m.Map<K,V[]>"
    getEntityWithin (fun _ => throw (.store .idsExhausted)) 13 [] name = getEntity name ∧
      1 ≤ Name.depthBehind 0 "m.Map<K,V[]".toList := by
  intro name
  obtain ⟨-, -, hbounded, hdepth⟩ := lookups_descend name
  exact ⟨hbounded _ 13 (by decide), (hdepth (by decide) _ [] (by decide)).1⟩

end ProjectModel

end Referent
