import Referent.Json.Printer
import Referent.Json.Token

/-!
# Strings are read as they were written

A string is read in two passes: `readPieces` cuts it into characters and 16-bit units, and
`textOfPieces` joins the units of surrogate pairs. Either pass looks beyond the piece at hand,
the second one to the next piece, so what is proved of the spelling of one character is about
whatever may stand behind it (`Spells`). Spellings then add up along a text, and every layout
spells every character: as itself, by a short escape, by one unit, or by a pair.
-/

namespace Referent.Json

/-- Within a string, the characters `chars` spell out `text`, whatever follows them. -/
def Spells (chars text : List Char) : Prop :=
  ∃ pieces,
    (∀ rest, readPieces (chars ++ rest) =
      (readPieces rest).map fun (more, rest) => (pieces ++ more, rest)) ∧
    ∀ more, textOfPieces (pieces ++ more) = (textOfPieces more).map (text ++ ·)

/-! ## Units -/

theorem hexValue_hexDigit {n : Nat} (h : n < 16) : hexValue (hexDigit n) = some n := by
  have hall : ∀ n : Fin 16, hexValue (hexDigit n) = some n.val := by decide
  exact hall ⟨n, h⟩

theorem readPieces_unitEscape {u : Nat} (h : u < 0x10000) (rest : List Char) :
    readPieces (unitEscape u ++ rest) = (readPieces rest).map (prepend (.unit u)) := by
  have hunit : readUnit (hexDigit (u / 4096 % 16)) (hexDigit (u / 256 % 16))
      (hexDigit (u / 16 % 16)) (hexDigit (u % 16)) = some u := by
    have hlt (m : Nat) : m % 16 < 16 := Nat.mod_lt m (by decide)
    simp only [readUnit, hexValue_hexDigit (hlt _), Option.bind_eq_bind, Option.bind_some,
      Option.pure_def, Option.some.injEq]
    omega
  simp only [unitEscape, List.cons_append, List.nil_append, readPieces, hunit]

/-- No character is a surrogate. -/
theorem not_isSurrogate (c : Char) :
    isHighSurrogate c.toNat = false ∧ isLowSurrogate c.toNat = false := by
  have hvalid : c.toNat < 0xd800 ∨ 0xdfff < c.toNat ∧ c.toNat < 0x110000 := c.valid
  simp only [isHighSurrogate, isLowSurrogate, Bool.and_eq_false_iff, decide_eq_false_iff_not]
  omega

theorem textOfPieces_unit (c : Char) (more : List Piece) :
    textOfPieces (.unit c.toNat :: more) = (textOfPieces more).map (c :: ·) := by
  obtain ⟨hhigh, hlow⟩ := not_isSurrogate c
  cases more with
  | nil => simp [textOfPieces, hhigh, hlow]
  | cons piece more => cases piece <;> simp [textOfPieces, hhigh, hlow]

/-! ## Spelling -/

namespace Spells

theorem nil : Spells [] [] :=
  ⟨[], fun _ => by simp, fun _ => by simp⟩

theorem append {chars chars' text text' : List Char} (h : Spells chars text)
    (h' : Spells chars' text') : Spells (chars ++ chars') (text ++ text') := by
  obtain ⟨pieces, hread, htext⟩ := h
  obtain ⟨pieces', hread', htext'⟩ := h'
  refine ⟨pieces ++ pieces', fun rest => ?_, fun more => ?_⟩
  · rw [List.append_assoc, hread, hread', Option.map_map]
    simp [Function.comp_def]
  · rw [List.append_assoc, htext, htext', Option.map_map]
    simp [Function.comp_def]

theorem flatMap {spell : Char → List Char} (h : ∀ c, Spells (spell c) [c]) (text : List Char) :
    Spells (text.flatMap spell) text := by
  induction text with
  | nil => exact nil
  | cons c text ih => exact (h c).append ih

/-- A character stands for itself, unless it is a quote, a backslash or a control character. -/
theorem plain {c : Char} (hquote : c ≠ '"') (hslash : c ≠ '\\') (hc : 0x20 ≤ c.toNat) :
    Spells [c] [c] := by
  refine ⟨[.char c], fun rest => ?_, fun more => ?_⟩
  · rw [List.singleton_append, readPieces, if_neg (by simp [hslash]; omega)]
    · rfl
    all_goals simp_all
  · rw [List.singleton_append, textOfPieces]
    rfl

theorem escape {e c : Char} (hu : e ≠ 'u') (h : shortEscape e = some c) :
    Spells ['\\', e] [c] := by
  refine ⟨[.char c], fun rest => ?_, fun more => ?_⟩
  · show readPieces ('\\' :: e :: rest) = _
    rw [readPieces]
    · rw [h]
      rfl
    · simp_all
  · rw [List.singleton_append, textOfPieces]
    rfl

theorem unit {c : Char} (h : c.toNat < 0x10000) : Spells (unitEscape c.toNat) [c] :=
  ⟨[.unit c.toNat], readPieces_unitEscape h, textOfPieces_unit c⟩

/-- A character beyond 16 bits is a surrogate pair. -/
theorem pair {c : Char} (h : 0x10000 ≤ c.toNat) :
    Spells (unitEscape (0xd800 + (c.toNat - 0x10000) / 1024) ++
      unitEscape (0xdc00 + (c.toNat - 0x10000) % 1024)) [c] := by
  have hvalid : c.toNat < 0xd800 ∨ 0xdfff < c.toNat ∧ c.toNat < 0x110000 := c.valid
  refine ⟨[.unit (0xd800 + (c.toNat - 0x10000) / 1024),
    .unit (0xdc00 + (c.toNat - 0x10000) % 1024)], fun rest => ?_, fun more => ?_⟩
  · rw [List.append_assoc, readPieces_unitEscape (by omega), readPieces_unitEscape (by omega),
      Option.map_map]
    rfl
  · have hhigh : isHighSurrogate (0xd800 + (c.toNat - 0x10000) / 1024) = true := by
      simp only [isHighSurrogate, Bool.and_eq_true, decide_eq_true_eq]
      omega
    have hlow : isLowSurrogate (0xdc00 + (c.toNat - 0x10000) % 1024) = true := by
      simp only [isLowSurrogate, Bool.and_eq_true, decide_eq_true_eq]
      omega
    have hc : 0x10000 + 1024 * (0xd800 + (c.toNat - 0x10000) / 1024 - 0xd800) +
        (0xdc00 + (c.toNat - 0x10000) % 1024 - 0xdc00) = c.toNat := by omega
    simp only [List.cons_append, List.nil_append, textOfPieces, hhigh, hlow, Bool.and_self,
      if_true, hc, Char.ofNat_toNat]

end Spells

theorem spells_writeChar (layout : Layout) (c : Char) : Spells (writeChar layout c) [c] := by
  unfold writeChar
  -- The seven short escapes come first.
  iterate 7
    split
    · subst_vars
      exact .escape (by decide) rfl
  split
  · exact .unit (by omega)
  split
  · exact .plain ‹_› ‹_› (by omega)
  split
  · exact .unit ‹_›
  · exact .pair (by omega)

/-! ## Whole strings -/

/-- Whatever its layout, a string that was written is the token that is read. -/
theorem readToken_writeString (layout : Layout) (text : String) (rest : List Char) :
    readToken ((writeString layout text).toList ++ rest) = some (.scalar (.string text), rest) := by
  obtain ⟨pieces, hread, htext⟩ := Spells.flatMap (spells_writeChar layout) text.toList
  have hpieces := htext []
  rw [List.append_nil] at hpieces
  have hchars : (writeString layout text).toList ++ rest =
      '"' :: (text.toList.flatMap (writeChar layout) ++ '"' :: rest) := by
    simp [writeString]
  rw [hchars, readToken, readString, hread]
  simp [readPieces, hpieces, textOfPieces]

end Referent.Json
