import Mathlib.Data.List.Basic
import Mathlib.Tactic.Tauto
import TwoPhase.Json.Printer
import TwoPhase.Json.Reader

/-!
A written text is read back character by character. An escape is read off the front of whatever
follows it: a code unit has four digits, and a character beyond sixteen bits takes two units,
which no other character can be mistaken for. What is written holds no line end.
-/
namespace TwoPhase

namespace Text

theorem hex_one {n : Nat} (hn : n < 16) : (hex 1 n).toList = [n.digitChar] := by
  simp [hex, Nat.toDigits_of_lt_base hn]

/-- A wider number ends with its last digit, also where only zeros stand before it. -/
theorem hex_succ {width : Nat} (hwidth : 0 < width) (n : Nat) :
    (hex (width + 1) n).toList = (hex width (n / 16)).toList ++ [(n % 16).digitChar] := by
  simp only [hex, String.toList_ofList, List.append_assoc]
  by_cases hn : n < 16
  · obtain ⟨width, rfl⟩ := Nat.exists_eq_add_of_lt hwidth
    rw [Nat.toDigits_of_lt_base hn, Nat.div_eq_of_lt hn, Nat.mod_eq_of_lt hn,
      Nat.toDigits_of_lt_base (by decide : 0 < 16)]
    simp [List.replicate_succ', Nat.digitChar]
  · have hle : 16 ≤ n := Nat.not_lt.1 hn
    rw [Nat.toDigits_of_base_le (by decide) hle]
    simp

theorem hex_four {n : Nat} (hn : n < 0x10000) :
    (hex 4 n).toList = [(n / 16 / 16 / 16).digitChar, (n / 16 / 16 % 16).digitChar,
      (n / 16 % 16).digitChar, (n % 16).digitChar] := by
  rw [hex_succ (by decide), hex_succ (by decide), hex_succ (by decide), hex_one (by omega)]
  rfl

def Unbroken (cs : List Char) : Prop := '\n' ∉ cs ∧ '\r' ∉ cs

instance (cs : List Char) : Decidable (Unbroken cs) := inferInstanceAs (Decidable (_ ∧ _))

theorem unbroken_append {cs ds : List Char} :
    Unbroken (cs ++ ds) ↔ Unbroken cs ∧ Unbroken ds := by
  simp only [Unbroken, List.mem_append, not_or]
  tauto

theorem unbroken_cons {c : Char} {cs : List Char} :
    Unbroken (c :: cs) ↔ (c ≠ '\n' ∧ c ≠ '\r') ∧ Unbroken cs := by
  simp only [Unbroken, List.mem_cons, not_or, ne_comm (a := c)]
  tauto

theorem unbroken_flatMap {α : Type} {f : α → List Char} {l : List α}
    (h : ∀ a ∈ l, Unbroken (f a)) : Unbroken (l.flatMap f) := by
  constructor
  · simpa using fun a ha => (h a ha).1
  · simpa using fun a ha => (h a ha).2

theorem unbroken_hex {n : Nat} (hn : n < 0x10000) : Unbroken (hex 4 n).toList := by
  have hall : ∀ d < 16, d.digitChar ≠ '\n' ∧ d.digitChar ≠ '\r' := by decide
  have hlast (k : Nat) := hall (k % 16) (Nat.mod_lt k (by decide))
  rw [hex_four hn]
  simp only [unbroken_cons]
  exact ⟨hall _ (by omega), hlast _, hlast _, hlast _, by simp [Unbroken]⟩

end Text

namespace Json

variable {c : Char} {u n : Nat} {cs rest : List Char}

theorem hexDigit?_digitChar (hn : n < 16) : hexDigit? n.digitChar = some n := by
  have hall : ∀ d < 16, hexDigit? d.digitChar = some d := by decide
  exact hall n hn

theorem hexUnit_hex (hu : u < 0x10000) (rest : List Char) :
    hexUnit ((Text.hex 4 u).toList ++ rest) = some (u, rest) := by
  have hfirst : u / 16 / 16 / 16 < 16 := by omega
  have hunit : ((u / 16 / 16 / 16) * 16 + u / 16 / 16 % 16) * 256 + u / 16 % 16 * 16 + u % 16 =
      u := by
    omega
  rw [Text.hex_four hu]
  simp only [List.cons_append, List.nil_append, hexUnit,
    hexDigit?_digitChar hfirst, hexDigit?_digitChar (Nat.mod_lt _ (by decide : 0 < 16)),
    Option.bind_eq_bind, Option.bind_some, hunit]
  rfl

theorem textChar_unit (hu : u < 0xD800 ∨ 0xDFFF < u) (hlt : u < 0x10000) (rest : List Char) :
    textChar ('\\' :: 'u' :: ((Text.hex 4 u).toList ++ rest)) = some (Char.ofNat u, rest) := by
  have hhigh : isHigh u = false := by simp [isHigh]; omega
  have hlow : isLow u = false := by simp [isLow]; omega
  simp [textChar, hexUnit_hex hlt, hhigh, unitChar, hlow]

theorem lowUnit_hex (hlow : isLow u) (hlt : u < 0x10000) (rest : List Char) :
    lowUnit ('\\' :: 'u' :: ((Text.hex 4 u).toList ++ rest)) = some (u, rest) := by
  simp [lowUnit, hexUnit_hex hlt, hlow]

theorem textChar_pair {low : Nat} {after : List Char} (hunit : hexUnit cs = some (u, rest))
    (hhigh : isHigh u) (hlow : lowUnit rest = some (low, after)) :
    textChar ('\\' :: 'u' :: cs) =
      some (Char.ofNat (0x10000 + (u - 0xD800) * 0x400 + (low - 0xDC00)), after) := by
  rw [textChar, hunit, Option.bind_eq_bind, Option.bind_some]
  simp only [hhigh, hlow]
  rfl

theorem textChar_units (hn : n < 0x100000) (rest : List Char) :
    textChar ('\\' :: 'u' :: ((Text.hex 4 (0xD800 + n / 0x400)).toList ++
      '\\' :: 'u' :: ((Text.hex 4 (0xDC00 + n % 0x400)).toList ++ rest))) =
        some (Char.ofNat (0x10000 + n), rest) := by
  have hhigh : isHigh (0xD800 + n / 0x400) = true := by simp [isHigh]; omega
  have hlow : isLow (0xDC00 + n % 0x400) = true := by simp [isLow]; omega
  have hpair := textChar_pair (hexUnit_hex (by omega) _) hhigh (lowUnit_hex hlow (by omega) rest)
  rwa [Nat.add_sub_cancel_left, Nat.add_sub_cancel_left, Nat.add_assoc, Nat.div_add_mod'] at hpair

theorem textChar_escaped (c : Char) (rest : List Char) :
    textChar (((units c.toNat).flatMap fun u => '\\' :: 'u' :: (Text.hex 4 u).toList) ++ rest) =
      some (c, rest) := by
  have hvalid : c.toNat < 0xD800 ∨ 0xDFFF < c.toNat ∧ c.toNat < 0x110000 := c.valid
  by_cases hc : c.toNat < 0x10000
  · have hunit := textChar_unit (u := c.toNat) (by omega) hc rest
    rw [Char.ofNat_toNat] at hunit
    simp only [units, if_pos hc, List.flatMap_cons, List.flatMap_nil, List.append_nil,
      List.cons_append]
    exact hunit
  · obtain ⟨n, hn⟩ := Nat.exists_eq_add_of_le (Nat.not_lt.1 hc)
    have hunits := textChar_units (n := n) (by omega) rest
    rw [← hn, Char.ofNat_toNat] at hunits
    rw [units, if_neg hc, hn, Nat.add_sub_cancel_left]
    simp only [List.flatMap_cons, List.flatMap_nil, List.append_nil,
      List.cons_append, List.append_assoc]
    exact hunits

theorem textChar_plain (hc : 32 ≤ c.toNat) (hslash : c ≠ '\\') (rest : List Char) :
    textChar (c :: rest) = some (c, rest) := by
  have hnot : ¬(c.toNat < 32 ∨ c = '\\') := by simp [hslash, hc]
  unfold textChar
  split <;> simp_all

theorem textChar_escapedChar (c : Char) (rest : List Char) :
    textChar (escapedChar c ++ rest) = some (c, rest) := by
  unfold escapedChar
  split
  case h_8 hslash _ _ _ _ _ =>
    split
    case isTrue hplain => exact textChar_plain hplain.1 hslash rest
    case isFalse => exact textChar_escaped _ rest
  all_goals rfl

theorem units_lt (c : Char) : ∀ u ∈ units c.toNat, u < 0x10000 := by
  have hvalid : c.toNat < 0xD800 ∨ 0xDFFF < c.toNat ∧ c.toNat < 0x110000 := c.valid
  intro u hu
  by_cases hc : c.toNat < 0x10000
  · rw [units, if_pos hc, List.mem_singleton] at hu
    exact hu ▸ hc
  · rw [units, if_neg hc, List.mem_cons, List.mem_singleton] at hu
    omega

theorem exists_units_eq_cons (n : Nat) : ∃ u us, units n = u :: us := by
  unfold units
  split
  · exact ⟨_, _, rfl⟩
  · exact ⟨_, _, rfl⟩

/-- No escape starts with the quote that ends a text. -/
theorem escapedChar_append_ne (c : Char) (cs rest : List Char) :
    escapedChar c ++ cs ≠ '"' :: rest := by
  unfold escapedChar
  split
  case h_8 hquote _ _ _ _ _ _ =>
    split
    case isTrue => simpa using fun h => absurd h hquote
    case isFalse =>
      obtain ⟨u, us, hunits⟩ := exists_units_eq_cons c.toNat
      simp [hunits]
  all_goals simp

theorem unbroken_escapedChar (c : Char) : Text.Unbroken (escapedChar c) := by
  unfold escapedChar
  split
  case h_8 hn hr _ _ _ =>
    split
    case isTrue => exact Text.unbroken_cons.2 ⟨⟨hn, hr⟩, by simp [Text.Unbroken]⟩
    case isFalse =>
      have hunit : ∀ u ∈ units c.toNat, Text.Unbroken ('\\' :: 'u' :: (Text.hex 4 u).toList) := by
        intro u hu
        simpa [Text.unbroken_cons] using Text.unbroken_hex (units_lt c u hu)
      exact Text.unbroken_flatMap hunit
  all_goals simp [Text.Unbroken]

theorem textBody_escaped {s : List Char} {fuel : Nat} (hfuel : s.length ≤ fuel)
    (rest : List Char) : textBody fuel (s.flatMap escapedChar ++ '"' :: rest) = some (s, rest) := by
  induction s generalizing fuel with
  | nil => simp [textBody]
  | cons c s ih =>
    obtain ⟨fuel, rfl⟩ : ∃ k, fuel = k + 1 := ⟨fuel - 1, by simp at hfuel; omega⟩
    have hne := escapedChar_append_ne c (s.flatMap escapedChar ++ '"' :: rest)
    have hrest := ih (Nat.le_of_succ_le_succ hfuel)
    rw [List.flatMap_cons, List.append_assoc, textBody, textChar_escapedChar]
    · simp [hrest]
    · exact fun after => hne after

theorem length_le_length_escaped (s : List Char) : s.length ≤ (s.flatMap escapedChar).length := by
  induction s with
  | nil => exact Nat.zero_le _
  | cons c s ih =>
    have hne : escapedChar c ≠ [] := by
      intro hnil
      have hchar := textChar_escapedChar c []
      rw [hnil] at hchar
      exact absurd hchar (by simp [textChar])
    have hpos := List.length_pos_iff.2 hne
    rw [List.flatMap_cons, List.length_append, List.length_cons]
    omega

/-- A written text is read up to its closing quote; the fuel of the characters left is enough. -/
theorem textBody_quoted (s : String) (rest : List Char) :
    textBody (s.toList.flatMap escapedChar ++ '"' :: rest).length
      (s.toList.flatMap escapedChar ++ '"' :: rest) = some (s.toList, rest) := by
  refine textBody_escaped ?_ rest
  rw [List.length_append]
  exact Nat.le_add_right_of_le (length_le_length_escaped s.toList)

theorem toList_quotedText (s : String) :
    (quotedText s).toList = '"' :: (s.toList.flatMap escapedChar ++ ['"']) := by
  rw [quotedText, String.toList_ofList, List.cons_append]

theorem unbroken_quotedText (s : String) : Text.Unbroken (quotedText s).toList := by
  rw [toList_quotedText, Text.unbroken_cons, Text.unbroken_append]
  exact ⟨by decide, Text.unbroken_flatMap fun c _ => unbroken_escapedChar c, by decide⟩

end Json

end TwoPhase
