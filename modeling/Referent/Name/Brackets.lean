import Referent.Text.Blank

/-!
# Scanning outside angle brackets

Compound names nest in `<…>`, and a separator counts only outside every bracket. The depth of
a position is the number of brackets open there; a `>` with nothing open is passed over, so
depth never goes below zero and every list of characters can be scanned, however malformed.
`isBalanced` is the separate question whether such a stray bracket occurs. Depths are natural
numbers; names are taken to nest less than 2³¹ deep, where a signed count of 32 bits says the same.

Each cut below gives back the pieces themselves rather than positions. The bounds at the end
say that pieces are no longer than what they were cut from, which is what makes the recursion
over nested names well founded.
-/

namespace Referent.Name

/-- The depth behind `c`, from the depth in front of it. -/
def depthAfter (depth : Nat) (c : Char) : Nat :=
  if c = '<' then depth + 1 else if c = '>' then depth - 1 else depth

/-- From `depth` open brackets, no prefix closes more than is open and the end closes all. -/
def balancedFrom : (depth : Nat) → List Char → Bool
  | depth, [] => depth == 0
  | depth, c :: cs =>
    if c = '>' ∧ depth = 0 then false else balancedFrom (depthAfter depth c) cs

/-- Every bracket has its partner. -/
def isBalanced (cs : List Char) : Bool :=
  balancedFrom 0 cs

/-- Cut at the first `mark` outside brackets: what stands before it, and what begins with it. -/
def cutFirst (mark : List Char) : (depth : Nat) → List Char → Option (List Char × List Char)
  | _, [] => none
  | depth, c :: cs =>
    if depth = 0 ∧ mark <+: c :: cs then some ([], c :: cs)
    else (cutFirst mark (depthAfter depth c) cs).map fun (before, found) => (c :: before, found)

/-- Cut at the last `mark` outside brackets: what stands before it and what stands after. -/
def cutLast (mark : Char) : (depth : Nat) → List Char → Option (List Char × List Char)
  | _, [] => none
  | depth, c :: cs =>
    match cutLast mark (depthAfter depth c) cs with
    | some (before, after) => some (c :: before, after)
    | none => if depth = 0 ∧ c = mark then some ([], cs) else none

/-- The piece up to the first `sep` outside brackets, and the pieces behind it. -/
def cutAll (sep : Char) : (depth : Nat) → List Char → List Char × List (List Char)
  | _, [] => ([], [])
  | depth, c :: cs =>
    let (piece, later) := cutAll sep (depthAfter depth c) cs
    if depth = 0 ∧ c = sep then ([], piece :: later) else (c :: piece, later)

/-- The items between separators outside brackets, trimmed; blank items do not count. -/
def items (sep : Char) (cs : List Char) : List (List Char) :=
  let (piece, later) := cutAll sep 0 cs
  ((piece :: later).map Text.trim).filter (!·.isEmpty)

/-- The characters outside brackets, the brackets themselves left out. -/
def outside : (depth : Nat) → List Char → List Char
  | _, [] => []
  | depth, c :: cs =>
    if c = '<' ∨ c = '>' ∨ 0 < depth then outside (depthAfter depth c) cs
    else c :: outside depth cs

/-- What is left of the group that is open at `depth`, and the outermost groups behind it.
At depth zero no group is open and the first component is empty. -/
def groupsFrom : (depth : Nat) → List Char → List Char × List (List Char)
  | _, [] => ([], [])
  | depth, c :: cs =>
    let (group, later) := groupsFrom (depthAfter depth c) cs
    if depth = 0 then ([], if c = '<' then group :: later else later)
    else if depthAfter depth c = 0 then ([], later)
    else (c :: group, later)

/-- The text inside each outermost pair of brackets, in order. -/
def groups (cs : List Char) : List (List Char) :=
  (groupsFrom 0 cs).2

/-! ## Pieces are no longer than the whole -/

theorem append_eq_of_cutFirst {mark cs before found : List Char} {depth : Nat}
    (h : cutFirst mark depth cs = some (before, found)) : before ++ found = cs := by
  induction cs generalizing depth before with
  | nil => simp [cutFirst] at h
  | cons c cs ih =>
    rw [cutFirst] at h
    split at h
    · simp only [Option.some.injEq, Prod.mk.injEq] at h
      simp [← h.1, ← h.2]
    · obtain ⟨⟨b, f⟩, hcut, heq⟩ := Option.map_eq_some_iff.1 h
      simp only [Prod.mk.injEq] at heq
      obtain ⟨rfl, rfl⟩ := heq
      simp [ih hcut]

theorem mark_prefix_of_cutFirst {mark cs before found : List Char} {depth : Nat}
    (h : cutFirst mark depth cs = some (before, found)) : mark <+: found := by
  induction cs generalizing depth before with
  | nil => simp [cutFirst] at h
  | cons c cs ih =>
    rw [cutFirst] at h
    split at h
    · rename_i hmark
      simp only [Option.some.injEq, Prod.mk.injEq] at h
      exact h.2 ▸ hmark.2
    · obtain ⟨⟨b, f⟩, hcut, heq⟩ := Option.map_eq_some_iff.1 h
      simp only [Prod.mk.injEq] at heq
      obtain ⟨rfl, rfl⟩ := heq
      exact ih hcut

theorem append_eq_of_cutLast {mark : Char} {cs before after : List Char} {depth : Nat}
    (h : cutLast mark depth cs = some (before, after)) : before ++ mark :: after = cs := by
  induction cs generalizing depth before with
  | nil => simp [cutLast] at h
  | cons c cs ih =>
    rw [cutLast] at h
    split at h
    · rename_i b a hcut
      simp only [Option.some.injEq, Prod.mk.injEq] at h
      obtain ⟨rfl, rfl⟩ := h
      simp [ih hcut]
    · split at h
      · rename_i hmark
        simp only [Option.some.injEq, Prod.mk.injEq] at h
        simp [← h.1, ← h.2, hmark.2]
      · simp at h

theorem length_le_of_mem_cutAll {sep : Char} {depth : Nat} {cs piece : List Char}
    (h : piece ∈ (cutAll sep depth cs).1 :: (cutAll sep depth cs).2) :
    piece.length ≤ cs.length := by
  induction cs generalizing depth piece with
  | nil => simp_all [cutAll]
  | cons c cs ih =>
    have hrest := @ih (depthAfter depth c)
    simp only [cutAll] at h
    split at h
    · simp only [List.mem_cons] at h hrest
      rcases h with rfl | h
      · simp
      · exact Nat.le_succ_of_le (hrest h)
    · simp only [List.mem_cons] at h hrest
      rcases h with rfl | h
      · exact Nat.succ_le_succ (hrest (.inl rfl))
      · exact Nat.le_succ_of_le (hrest (.inr h))

theorem length_le_of_mem_items {sep : Char} {cs item : List Char} (h : item ∈ items sep cs) :
    item.length ≤ cs.length := by
  simp only [items, List.mem_filter, List.mem_map] at h
  obtain ⟨⟨piece, hpiece, rfl⟩, -⟩ := h
  exact Nat.le_trans (Text.length_trim_le piece) (length_le_of_mem_cutAll hpiece)

theorem length_outside_le (depth : Nat) (cs : List Char) :
    (outside depth cs).length ≤ cs.length := by
  induction cs generalizing depth with
  | nil => simp [outside]
  | cons c cs ih =>
    rw [outside]
    split
    · exact Nat.le_succ_of_le (ih _)
    · exact Nat.succ_le_succ (ih _)

theorem length_outside_lt {cs : List Char} (h : '<' ∈ cs) (depth : Nat) :
    (outside depth cs).length < cs.length := by
  induction cs generalizing depth with
  | nil => simp at h
  | cons c cs ih =>
    rw [outside]
    split
    · exact Nat.lt_succ_of_le (length_outside_le _ _)
    · rename_i hc
      simp only [not_or] at hc
      have : '<' ∈ cs := by
        rcases List.mem_cons.1 h with rfl | h
        · exact absurd rfl hc.1
        · exact h
      exact Nat.succ_lt_succ (ih this _)

theorem length_le_of_mem_groupsFrom {depth : Nat} {cs : List Char} :
    (groupsFrom depth cs).1.length ≤ cs.length ∧
      ∀ group ∈ (groupsFrom depth cs).2, group.length < cs.length := by
  induction cs generalizing depth with
  | nil => simp [groupsFrom]
  | cons c cs ih =>
    obtain ⟨hopen, hlater⟩ := @ih (depthAfter depth c)
    have hlater' : ∀ group ∈ (groupsFrom (depthAfter depth c) cs).2,
        group.length < (c :: cs).length :=
      fun group h => Nat.lt_succ_of_lt (hlater group h)
    simp only [groupsFrom]
    split
    · refine ⟨by simp, ?_⟩
      split
      · intro group h
        rcases List.mem_cons.1 h with rfl | h
        · exact Nat.lt_succ_of_le hopen
        · exact hlater' group h
      · exact hlater'
    · split
      · exact ⟨by simp, hlater'⟩
      · exact ⟨Nat.succ_le_succ hopen, hlater'⟩

theorem length_lt_of_mem_groups {cs group : List Char} (h : group ∈ groups cs) :
    group.length < cs.length :=
  length_le_of_mem_groupsFrom.2 group h

end Referent.Name
