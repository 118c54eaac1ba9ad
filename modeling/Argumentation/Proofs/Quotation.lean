import Argumentation.Json.Reader
import Argumentation.Json.Writer
import Mathlib.Data.List.Basic

/-!
# Argumentation.Proofs.Quotation

Texts between quotes, as JSON writes and reads them. A character has more than one spelling: the one
that is written, and for a slash also the one behind a backslash. The reader takes either
(`readText_writes`), so a text is read back however its characters are spelled (`readText_spells`).

Characters beyond sixteen bits are the delicate case. They are written in two halves, the reader
takes the first half for a character of its own unless it finds the second, and it wants a character
to follow in any case; the closing quote is there.
-/

namespace Argumentation.Json

variable {c d : Char} {w cs ws rest read opening : List Char} {n fuel : Nat}

/-! ### Digits of escapes -/

theorem hexValue?_hexDigit : ∀ d < 16, hexValue? (Text.hexDigit d) = some d := by
  decide

/-- The four digits of a unit. -/
theorem hexDigits_four (n : Nat) :
    Text.hexDigits 4 n = [Text.hexDigit (n / 16 / 16 / 16 % 16), Text.hexDigit (n / 16 / 16 % 16),
      Text.hexDigit (n / 16 % 16), Text.hexDigit (n % 16)] := by
  rfl

theorem unit?_hexDigits (h : n < 0x10000) :
    unit? (Text.hexDigit (n / 16 / 16 / 16 % 16)) (Text.hexDigit (n / 16 / 16 % 16))
      (Text.hexDigit (n / 16 % 16)) (Text.hexDigit (n % 16)) = some n := by
  have digit (m : Nat) : hexValue? (Text.hexDigit (m % 16)) = some (m % 16) :=
    hexValue?_hexDigit _ (Nat.mod_lt _ (by decide))
  simp only [unit?, digit]
  show some _ = some n
  congr 1
  omega

/-- A unit that is no half of a character is read as a character. -/
theorem readUnits_hexDigits (small : n < 0x10000) (whole : isHighUnit n = false)
    (more : rest ≠ []) :
    readUnits (Text.hexDigits 4 n ++ rest) = .ok (Char.ofNat n, rest) := by
  obtain ⟨next, rest, rfl⟩ := List.exists_cons_of_ne_nil more
  rw [hexDigits_four]
  simp only [List.cons_append, List.nil_append, readUnits, unit?_hexDigits small]
  split <;> simp_all

/-- The two halves of a character are read as that character. -/
theorem readUnits_halves {high low : Nat} (hh : isHighUnit high = true) (hl : isLowUnit low = true)
    (more : rest ≠ []) :
    readUnits (Text.hexDigits 4 high ++ unitEscape low ++ rest) =
      .ok (joinUnits high low, rest) := by
  obtain ⟨next, rest, rfl⟩ := List.exists_cons_of_ne_nil more
  have high_small : high < 0x10000 := by
    simp [isHighUnit] at hh
    omega
  have low_small : low < 0x10000 := by
    simp [isLowUnit] at hl
    omega
  rw [unitEscape, hexDigits_four, hexDigits_four]
  simp only [List.cons_append, List.nil_append, readUnits, unit?_hexDigits high_small,
    unit?_hexDigits low_small, hh, hl]
  simp

/-! ### Characters -/

/-- The characters `w` between quotes stand for `c`: it stands for itself, or there is an escape of
it. -/
inductive Writes (c : Char) : List Char → Prop where
  | itself : 0x20 ≤ c.toNat → c ≠ '"' → c ≠ '\\' → Writes c [c]
  | letter (l : Char) : l ≠ 'u' → escapedBy? l = some c → Writes c ['\\', l]
  | unit : c.toNat < 0x10000 → Writes c (unitEscape c.toNat)
  | halves : 0x10000 ≤ c.toNat → Writes c (unitEscape (0xd800 + (c.toNat - 0x10000) / 0x400) ++
      unitEscape (0xdc00 + (c.toNat - 0x10000) % 0x400))

theorem writes_writtenChar (c : Char) : Writes c (writtenChar c) := by
  unfold writtenChar
  split
  · next quote => exact .letter '"' (by decide) (by rw [quote]; rfl)
  split
  · next backslash => exact .letter '\\' (by decide) (by rw [backslash]; rfl)
  split
  · next feed => exact .letter 'n' (by decide) (by rw [feed]; rfl)
  split
  · next ret => exact .letter 'r' (by decide) (by rw [ret]; rfl)
  split
  · next tab => exact .letter 't' (by decide) (by rw [tab]; rfl)
  split
  · next form => exact .letter 'f' (by decide) (by rw [form]; rfl)
  split
  · next back => exact .letter 'b' (by decide) (by rw [back]; rfl)
  dsimp only
  split
  · next quote backslash _ _ _ _ _ plain =>
      simp only [Bool.and_eq_true, decide_eq_true_eq] at plain
      exact .itself plain.1 quote backslash
  split
  · next small => exact .unit small
  · next large => exact .halves (Nat.not_lt.1 large)

theorem Writes.ne_nil (h : Writes c w) : w ≠ [] := by
  cases h with
  | itself => simp
  | letter l => simp
  | unit => simp [unitEscape]
  | halves => simp [unitEscape]

/-- No character is a half of one. -/
theorem isHighUnit_toNat (c : Char) : isHighUnit c.toNat = false := by
  have valid : c.toNat.isValidChar := c.valid
  simp only [Nat.isValidChar] at valid
  simp [isHighUnit]
  omega

theorem joinUnits_halves (large : 0x10000 ≤ c.toNat) :
    joinUnits (0xd800 + (c.toNat - 0x10000) / 0x400) (0xdc00 + (c.toNat - 0x10000) % 0x400) =
      c := by
  rw [joinUnits]
  have same : 0x10000 + (0xd800 + (c.toNat - 0x10000) / 0x400 - 0xd800) * 0x400 +
      (0xdc00 + (c.toNat - 0x10000) % 0x400 - 0xdc00) = c.toNat := by
    omega
  rw [same, Char.ofNat_toNat]

/-- The reader takes the character in one step, whichever way it is spelled. -/
theorem readText_writes (h : Writes c w) (more : rest ≠ []) :
    readText opening (fuel + 1) read (w ++ rest) = readText opening fuel (c :: read) rest := by
  cases h with
  | itself low quote backslash =>
      have printable : ¬ c.toNat < 0x20 := Nat.not_lt.2 low
      simp [readText, quote, backslash, printable]
  | letter l other escaped => simp [readText, other, escaped]
  | unit small =>
      have units := readUnits_hexDigits small (isHighUnit_toNat c) more
      rw [Char.ofNat_toNat] at units
      simp [readText, unitEscape, units]
  | halves large =>
      have below : c.toNat < 0x110000 := by
        have valid : c.toNat.isValidChar := c.valid
        simp only [Nat.isValidChar] at valid
        omega
      have high : isHighUnit (0xd800 + (c.toNat - 0x10000) / 0x400) = true := by
        simp [isHighUnit]
        omega
      have low : isLowUnit (0xdc00 + (c.toNat - 0x10000) % 0x400) = true := by
        simp [isLowUnit]
        omega
      have units := readUnits_halves high low more
      rw [joinUnits_halves large, List.append_assoc] at units
      rw [unitEscape, List.append_assoc]
      simp [readText, units]

/-! ### Texts -/

/-- The characters `ws` between quotes stand for `cs`, one after the other. -/
inductive Spells : List Char → List Char → Prop where
  | nil : Spells [] []
  | cons {c : Char} {w cs ws : List Char} :
      Writes c w → Spells cs ws → Spells (c :: cs) (w ++ ws)

/-- A text is read up to its closing quote. Every character takes one step, and none is spelled by
nothing. -/
theorem readText_spells (h : Spells cs ws) (enough : ws.length < fuel) :
    readText opening fuel read (ws ++ '"' :: rest) =
      .ok (String.ofList (read.reverse ++ cs), rest) := by
  induction h generalizing fuel read with
  | nil =>
      obtain ⟨fuel, rfl⟩ := Nat.exists_eq_add_one_of_ne_zero (Nat.ne_of_gt enough)
      simp [readText]
  | @cons c w cs ws hc _ ih =>
      have longer : 0 < w.length := List.length_pos_of_ne_nil hc.ne_nil
      rw [List.length_append] at enough
      obtain ⟨fuel, rfl⟩ := Nat.exists_eq_add_one_of_ne_zero (n := fuel) (by omega)
      rw [List.append_assoc, readText_writes hc (by simp), ih (by omega)]
      simp

end Argumentation.Json
