import Referent.Name.Brackets

/-!
# Scanning text whose brackets pair up

Every scan of a name counts the brackets that are open. Text whose brackets pair up (`Paired`) is
passed over in one piece: a scan comes out of it at the depth at which it went in, and of all its
characters it has considered only those that stand outside brackets, and these only if it went in
at depth zero. The lemmas say so for one scan each, with any text behind the piece, so what a
scan makes of a long text is put together from what it makes of the pieces.
-/

namespace Referent.Name

/-- Every bracket of the text has its partner in the text. -/
inductive Paired : List Char → Prop
  | nil : Paired []
  | char {c : Char} {cs : List Char} : c ≠ '<' → c ≠ '>' → Paired cs → Paired (c :: cs)
  | brackets {inner cs : List Char} : Paired inner → Paired cs →
      Paired ('<' :: (inner ++ '>' :: cs))

/-! ## Depth -/

/-- The depth behind some characters, from the depth in front of them. -/
def depthBehind (depth : Nat) (cs : List Char) : Nat :=
  cs.foldl depthAfter depth

@[simp] theorem depthAfter_open (depth : Nat) : depthAfter depth '<' = depth + 1 := by
  simp [depthAfter]

@[simp] theorem depthAfter_close (depth : Nat) : depthAfter (depth + 1) '>' = depth := by
  simp [depthAfter]

theorem depthAfter_of_ne {c : Char} (hopen : c ≠ '<') (hclose : c ≠ '>') (depth : Nat) :
    depthAfter depth c = depth := by
  simp [depthAfter, hopen, hclose]

/-! ## Paired text -/

namespace Paired

variable {cs more inner rest : List Char} {depth : Nat} {sep : Char}

theorem of_free (h : ∀ c ∈ cs, c ≠ '<' ∧ c ≠ '>') : Paired cs := by
  induction cs with
  | nil => exact .nil
  | cons c cs ih =>
    obtain ⟨hopen, hclose⟩ := h c List.mem_cons_self
    exact .char hopen hclose (ih fun other hother => h other (List.mem_cons_of_mem c hother))

theorem append (h : Paired cs) (hmore : Paired more) : Paired (cs ++ more) := by
  induction h with
  | nil => exact hmore
  | char hopen hclose _ ih => exact .char hopen hclose ih
  | brackets hinner _ _ ih =>
    rw [List.cons_append, List.append_assoc, List.cons_append]
    exact .brackets hinner ih

/-- One pair of brackets around paired text. -/
theorem enclosed (h : Paired inner) : Paired ('<' :: (inner ++ ['>'])) :=
  .brackets h .nil

theorem balancedFrom_append (h : Paired cs) (depth : Nat) (rest : List Char) :
    balancedFrom depth (cs ++ rest) = balancedFrom depth rest := by
  induction h generalizing depth rest with
  | nil => rfl
  | char hopen hclose _ ih =>
    simp [balancedFrom, hclose, depthAfter_of_ne hopen hclose, ih]
  | brackets _ _ ihInner ih => simp [balancedFrom, ihInner, ih]

theorem isBalanced (h : Paired cs) : isBalanced cs = true := by
  have hall := h.balancedFrom_append 0 []
  rw [List.append_nil] at hall
  exact hall

/-! ## What stands outside -/

theorem outside_char {c : Char} (hopen : c ≠ '<') (hclose : c ≠ '>') (cs : List Char) :
    outside 0 (c :: cs) = c :: outside 0 cs := by
  simp [outside, hopen, hclose]

/-- Nothing in a piece that is scanned within brackets stands outside. -/
theorem outside_succ_append (h : Paired cs) (depth : Nat) (rest : List Char) :
    outside (depth + 1) (cs ++ rest) = outside (depth + 1) rest := by
  induction h generalizing depth rest with
  | nil => rfl
  | char hopen hclose _ ih => simp [outside, depthAfter_of_ne hopen hclose, ih]
  | brackets _ _ ihInner ih => simp [outside, ihInner, ih]

theorem outside_brackets (h : Paired inner) (rest : List Char) :
    outside 0 ('<' :: (inner ++ '>' :: rest)) = outside 0 rest := by
  rw [outside, if_pos (.inl rfl), depthAfter_open, h.outside_succ_append, outside,
    if_pos (.inr (.inl rfl)), depthAfter_close]

theorem outside_append (h : Paired cs) (rest : List Char) :
    outside 0 (cs ++ rest) = outside 0 cs ++ outside 0 rest := by
  induction h with
  | nil => rfl
  | char hopen hclose _ ih =>
    rw [List.cons_append, outside_char hopen hclose, outside_char hopen hclose, ih,
      List.cons_append]
  | brackets hinner _ _ ih =>
    rw [List.cons_append, List.append_assoc, List.cons_append, hinner.outside_brackets,
      hinner.outside_brackets, ih]

/-! ## Cuts -/

/-- Text in which no separator stands outside belongs to one piece. -/
theorem cutAll_append (h : Paired cs) (hopen : sep ≠ '<') (hfree : depth = 0 → sep ∉ outside 0 cs)
    (rest : List Char) : cutAll sep depth (cs ++ rest) =
      (cs ++ (cutAll sep depth rest).1, (cutAll sep depth rest).2) := by
  induction h generalizing depth rest with
  | nil => rfl
  | @char c cs hopen' hclose' _ ih =>
    have hboth : depth = 0 → sep ≠ c ∧ sep ∉ outside 0 cs := by
      simpa [outside_char hopen' hclose'] using hfree
    have hskip : ¬ (depth = 0 ∧ c = sep) := fun hsep => (hboth hsep.1).1 hsep.2.symm
    simp [cutAll, depthAfter_of_ne hopen' hclose', ih fun hdepth => (hboth hdepth).2, hskip]
  | @brackets inner cs hinner _ ihInner ih =>
    have hrest : depth = 0 → sep ∉ outside 0 cs := by
      intro hdepth
      rw [← hinner.outside_brackets]
      exact hfree hdepth
    simp [cutAll, ihInner, ih hrest, hopen.symm]

/-- A mark that does not begin outside is looked for behind the piece. -/
theorem cutFirst_append (h : Paired cs) (mark : List Char) (hopen : sep ≠ '<')
    (hfree : depth = 0 → sep ∉ outside 0 cs) (rest : List Char) :
    cutFirst (sep :: mark) depth (cs ++ rest) =
      (cutFirst (sep :: mark) depth rest).map fun (before, found) => (cs ++ before, found) := by
  induction h generalizing depth rest with
  | nil => simp
  | @char c cs hopen' hclose' _ ih =>
    have hboth : depth = 0 → sep ≠ c ∧ sep ∉ outside 0 cs := by
      simpa [outside_char hopen' hclose'] using hfree
    have hskip : ¬ (depth = 0 ∧ sep = c ∧ mark <+: cs ++ rest) :=
      fun hsep => (hboth hsep.1).1 hsep.2.1
    simp only [List.cons_append, cutFirst, List.cons_prefix_cons, if_neg hskip,
      depthAfter_of_ne hopen' hclose', ih fun hdepth => (hboth hdepth).2, Option.map_map]
    rfl
  | @brackets inner cs hinner _ ihInner ih =>
    have hrest : depth = 0 → sep ∉ outside 0 cs := by
      intro hdepth
      rw [← hinner.outside_brackets]
      exact hfree hdepth
    simp [cutFirst, ihInner, ih hrest, hopen, Function.comp_def]

/-! ## Groups -/

/-- A piece within a group belongs to the group. -/
theorem groupsFrom_append (h : Paired cs) (depth : Nat) (rest : List Char) :
    groupsFrom (depth + 1) (cs ++ rest) =
      (cs ++ (groupsFrom (depth + 1) rest).1, (groupsFrom (depth + 1) rest).2) := by
  induction h generalizing depth rest with
  | nil => rfl
  | char hopen hclose _ ih => simp [groupsFrom, depthAfter_of_ne hopen hclose, ih]
  | brackets _ _ ihInner ih => simp [groupsFrom, ihInner, ih]

theorem groups_brackets (h : Paired inner) (rest : List Char) :
    groups ('<' :: (inner ++ '>' :: rest)) = inner :: groups rest := by
  simp [groups, groupsFrom, h.groupsFrom_append]

end Paired

/-- Text without brackets has no groups. -/
theorem groups_append_of_free {cs : List Char} (h : ∀ c ∈ cs, c ≠ '<' ∧ c ≠ '>')
    (rest : List Char) : groups (cs ++ rest) = groups rest := by
  induction cs with
  | nil => rfl
  | cons c cs ih =>
    obtain ⟨hopen, hclose⟩ := h c List.mem_cons_self
    have hrest := ih fun other hother => h other (List.mem_cons_of_mem c hother)
    unfold groups at hrest ⊢
    simp [groupsFrom, hopen, depthAfter_of_ne hopen hclose, hrest]

/-- Text without brackets stands outside as a whole. -/
theorem outside_of_free {cs : List Char} (h : ∀ c ∈ cs, c ≠ '<' ∧ c ≠ '>') :
    outside 0 cs = cs := by
  induction cs with
  | nil => rfl
  | cons c cs ih =>
    obtain ⟨hopen, hclose⟩ := h c List.mem_cons_self
    rw [Paired.outside_char hopen hclose,
      ih fun other hother => h other (List.mem_cons_of_mem c hother)]

end Referent.Name
