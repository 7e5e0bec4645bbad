import Referent.Name.Member
import Referent.Proofs.Balance

/-!
# Joining a receiver and a member

A reference is a receiver and a member with a dot between them, and it is split at the last dot that
stands outside brackets and in front of the signature. So whatever is split makes the reference
again. What has been joined is split where it was joined if that dot is outside brackets, which
depends on the receiver alone (`Receiving`), and if it is the last one there, which depends on the
member alone (`DotsEnclosed`).

`MemberRef.ofName?_eq_some_iff` says this of all references, whatever brackets are stray in them. A
receiver whose brackets are balanced is always told apart from its members
(`Receiving.of_balanced`).
-/

namespace Referent.Name

variable {depth : Nat} {mark : Char} {cs before after : List Char} {name : String}
  {ref : MemberRef}

/-! ## The last mark outside brackets -/

/-- A mark is the last one outside brackets if no bracket is open in front of it and there is no
other such mark behind it. -/
theorem cutLast_append_iff (hopen : mark ≠ '<') (hclose : mark ≠ '>') :
    cutLast mark depth (before ++ mark :: after) = some (before, after) ↔
      depthBehind depth before = 0 ∧ cutLast mark 0 after = none := by
  induction before generalizing depth with
  | nil =>
    have hsame : depthAfter depth mark = depth := depthAfter_of_ne hopen hclose depth
    -- This mark is cut at only outside brackets, and only without a cut behind it.
    rw [List.nil_append, cutLast, hsame, depthBehind, List.foldl_nil]
    by_cases hdepth : depth = 0
    · subst hdepth
      cases cutLast mark 0 after with
      | some found => simp [Prod.ext_iff]
      | none => simp
    · cases cutLast mark depth after with
      | some found => simp [Prod.ext_iff, hdepth]
      | none => simp [hdepth]
  | cons c before ih =>
    rw [List.cons_append, cutLast, depthBehind, List.foldl_cons, ← depthBehind, ← ih]
    cases cutLast mark (depthAfter depth c) (before ++ mark :: after) with
    | some found => simp [Prod.ext_iff]
    | none => simp

/-- There is no cut exactly if every mark is within brackets. -/
theorem cutLast_eq_none_iff : cutLast mark depth cs = none ↔
    ∀ before after, cs = before ++ mark :: after → depthBehind depth before ≠ 0 := by
  induction cs generalizing depth with
  | nil => simp [cutLast]
  | cons c cs ih =>
    have hcons : cutLast mark depth (c :: cs) = none ↔
        ¬ (depth = 0 ∧ c = mark) ∧ cutLast mark (depthAfter depth c) cs = none := by
      rw [cutLast]
      cases cutLast mark (depthAfter depth c) cs with
      | some found => simp
      | none => simp
    rw [hcons, ih]
    constructor
    · rintro ⟨hfirst, hrest⟩ before after heq
      cases before with
      | nil =>
        obtain ⟨hc, -⟩ := List.cons_eq_cons.1 heq
        exact fun hzero => hfirst ⟨hzero, hc⟩
      | cons d before =>
        obtain ⟨rfl, hcs⟩ := List.cons_eq_cons.1 heq
        exact hrest before after hcs
    · intro h
      refine ⟨?_, fun before after heq => ?_⟩
      · rintro ⟨hzero, rfl⟩
        exact h [] cs rfl hzero
      · exact h (c :: before) after (by rw [heq, List.cons_append])

/-- Every dot of the text is within brackets. -/
def DotsEnclosed (cs : List Char) : Prop :=
  ∀ before after, cs = before ++ '.' :: after → depthBehind 0 before ≠ 0

theorem cutLast_dot_eq_none_iff : cutLast '.' 0 cs = none ↔ DotsEnclosed cs :=
  cutLast_eq_none_iff

instance : DecidablePred DotsEnclosed := fun _ =>
  decidable_of_iff _ cutLast_dot_eq_none_iff

/-! ## Receivers -/

/-- A dot behind the name can be the one that members are cut off at. -/
structure Receiving (name : String) : Prop where
  unsigned : '(' ∉ name.toList
  closed : depthBehind 0 name.toList = 0

theorem depthBehind_of_balancedFrom_eq (h : balancedFrom depth cs = true) :
    depthBehind depth cs = 0 := by
  induction cs generalizing depth with
  | nil => simpa [depthBehind, balancedFrom] using h
  | cons c cs ih => exact ih (balancedFrom_cons.1 h).2

theorem Receiving.of_balanced (hbalanced : Balanced name.toList) (hunsigned : '(' ∉ name.toList) :
    Receiving name where
  unsigned := hunsigned
  closed := depthBehind_of_balancedFrom_eq (isBalanced_iff.2 hbalanced)

/-! ## Splitting -/

namespace MemberRef

/-- What a reference is cut from ends at the first parenthesis. -/
theorem unsigned_of_ofName? (h : ofName? name = some ref) :
    '(' ∉ ref.receiver.toList := by
  obtain ⟨⟨receiver, rest⟩, hcut, rfl⟩ := Option.map_eq_some_iff.1 h
  rw [String.toList_ofList]
  intro hmem
  have hhead : '(' ∈ name.toList.takeWhile (· != '(') := by
    rw [← append_eq_of_cutLast hcut]
    exact List.mem_append_left _ hmem
  simpa using List.mem_takeWhile_imp hhead

theorem ofName?_name_iff_cutLast (hunsigned : '(' ∉ ref.receiver.toList) :
    ofName? ref.name = some ref ↔
      cutLast '.' 0 (ref.receiver.toList ++ '.' :: ref.member.toList.takeWhile (· != '(')) =
        some (ref.receiver.toList, ref.member.toList.takeWhile (· != '(')) := by
  have hchars : ref.name.toList = ref.receiver.toList ++ '.' :: ref.member.toList := by
    simp [MemberRef.name, memberName]
  have hhead : ∀ c ∈ ref.receiver.toList, (c != '(') = true := by
    intro c hc
    simpa using ne_of_mem_of_not_mem hc hunsigned
  have hdot : ('.' != '(') = true := by decide
  rw [ofName?, hchars, List.takeWhile_append_of_pos hhead, List.dropWhile_append_of_pos hhead,
    List.takeWhile_cons, List.dropWhile_cons, if_pos hdot, if_pos hdot, Option.map_eq_some_iff]
  constructor
  · rintro ⟨⟨receiver, rest⟩, hcut, hread⟩
    have hreceiver : receiver = ref.receiver.toList := by
      rw [← hread, String.toList_ofList]
    have hmember : rest ++ ref.member.toList.dropWhile (· != '(') = ref.member.toList := by
      simpa only [String.toList_ofList] using congrArg (·.member.toList) hread
    have hrest : rest = ref.member.toList.takeWhile (· != '(') :=
      List.append_cancel_right (hmember.trans List.takeWhile_append_dropWhile.symm)
    rw [hcut, hreceiver, hrest]
  · intro hcut
    exact ⟨_, hcut, by simp⟩

/-- Whether a reference is read as it was put together depends on the receiver and the member
separately. -/
theorem ofName?_name_iff :
    ofName? ref.name = some ref ↔ Receiving ref.receiver ∧
      cutLast '.' 0 (ref.member.toList.takeWhile (· != '(')) = none := by
  constructor
  · intro hread
    have hunsigned := unsigned_of_ofName? hread
    rw [ofName?_name_iff_cutLast hunsigned, cutLast_append_iff (by decide) (by decide)] at hread
    exact ⟨⟨hunsigned, hread.1⟩, hread.2⟩
  · rintro ⟨⟨hunsigned, hclosed⟩, hlast⟩
    rw [ofName?_name_iff_cutLast hunsigned, cutLast_append_iff (by decide) (by decide)]
    exact ⟨hclosed, hlast⟩

/-- What a reference says in front of its signature, if it has one. -/
def beforeSignature (name : String) : List Char :=
  name.toList.takeWhile (· != '(')

/-- A reference is split into the halves that make it whose dot is outside brackets and the last one
there. -/
theorem ofName?_eq_some_iff : ofName? name = some ref ↔
    ref.name = name ∧ Receiving ref.receiver ∧ DotsEnclosed (beforeSignature ref.member) := by
  rw [beforeSignature, ← cutLast_dot_eq_none_iff]
  constructor
  · intro hread
    obtain rfl := name_of_ofName? hread
    exact ⟨rfl, ofName?_name_iff.1 hread⟩
  · rintro ⟨rfl, hhalves⟩
    exact ofName?_name_iff.2 hhalves

theorem ofName?_eq_none_iff : ofName? name = none ↔ DotsEnclosed (beforeSignature name) := by
  rw [ofName?, Option.map_eq_none_iff, cutLast_dot_eq_none_iff, beforeSignature]

/-- A receiver with balanced brackets and without a parenthesis, and a member without a dot outside
brackets in front of its signature, are what their reference is split into. Whatever is split makes
the reference again and has a member like this, and what is not split has no dot outside brackets in
front of its signature. -/
theorem splitting_undoes_joining :
    (∀ receiver member : String, Balanced receiver.toList → '(' ∉ receiver.toList →
      DotsEnclosed (beforeSignature member) →
        ofName? (receiver ++ "." ++ member) = some { receiver, member }) ∧
    (∀ (name : String) (ref : MemberRef), ofName? name = some ref →
      name = ref.receiver ++ "." ++ ref.member ∧ DotsEnclosed (beforeSignature ref.member)) ∧
    ∀ name : String, ofName? name = none ↔ DotsEnclosed (beforeSignature name) := by
  refine ⟨fun receiver member hbalanced hunsigned hmember => ?_, fun name ref hread => ?_,
    fun name => ofName?_eq_none_iff⟩
  · exact ofName?_eq_some_iff.2 ⟨rfl, .of_balanced hbalanced hunsigned, hmember⟩
  · obtain ⟨hname, -, hmember⟩ := ofName?_eq_some_iff.1 hread
    exact ⟨hname.symm, hmember⟩

/-- Dots in type arguments and in signatures are not split at. -/
theorem member_of_map_split : ofName? "java.util.Map<a.K,a.V>.put(a.K,a.V)" =
    some { receiver := "java.util.Map<a.K,a.V>", member := "put(a.K,a.V)" } :=
  splitting_undoes_joining.1 "java.util.Map<a.K,a.V>" "put(a.K,a.V)" (by decide) (by decide)
    (by decide)

end MemberRef

end Referent.Name
