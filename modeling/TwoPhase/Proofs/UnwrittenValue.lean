import TwoPhase.Json.Printer
import TwoPhase.Proofs.Loops

/-!
Which values have no JSON text. A fraction, a set, an integer with too many digits, a dictionary
with a key that is no scalar of JSON and a collection for which no level is left have none, and a
value has none exactly if such a value occurs in it, however deep. Arrays are looked into as the
lists of their cells.
-/
namespace TwoPhase

namespace Value

/-- A value so many levels inside another one. -/
inductive Occurs (u : Value) : Nat → Value → Prop
  | here : Occurs u 0 u
  | item {n : Nat} {v : Value} {items : List Value} (hv : v ∈ items) (inside : Occurs u n v) :
      Occurs u (n + 1) (.list items)
  | member {n : Nat} {v : Value} {items : List Value} (hv : v ∈ items) (inside : Occurs u n v) :
      Occurs u (n + 1) (.set items)
  | entry {n : Nat} {e : Value × Value} {entries : List (Value × Value)} (he : e ∈ entries)
      (inside : Occurs u n e.2) : Occurs u (n + 1) (.dict entries)
  | cell {n : Nat} {cells : Value} (inside : Occurs u n cells) : Occurs u (n + 1) (.array cells)

/-- Whether a value can stand before a colon: text, null, a truth value or a number, or an array
cell that is a text or a double. -/
def NamesEntry : Value → Prop
  | .int i => (toString i.natAbs).length ≤ Decimal.maxDigits
  | .text _ | .null | .bool _ | .float _ | .array (.text _) | .array (.float _) => True
  | _ => False

/-- The values that have no JSON text where so many levels are left, whatever they hold. -/
def Unwritable (left : Nat) : Value → Prop
  | .fraction _ | .set _ => True
  | .int i => Decimal.maxDigits < (toString i.natAbs).length
  | .list _ | .array _ => left = 0
  | .dict entries => left = 0 ∨ ∃ e ∈ entries, ¬e.1.NamesEntry
  | _ => False

end Value

namespace Json

open Value

variable {levels : Nat}

theorem intText_fails_iff {i : Int} :
    (∃ fault, intText i = .error fault) ↔ Decimal.maxDigits < (toString i.natAbs).length := by
  unfold intText
  split
  case isTrue h => simpa using h
  case isFalse h => simpa using h

theorem keyText_fails_iff {k : Value} : (∃ fault, keyText k = .error fault) ↔ ¬k.NamesEntry := by
  unfold keyText
  split
  case h_4 i => rw [intText_fails_iff, NamesEntry, Nat.not_le]
  all_goals simp_all [NamesEntry]

theorem printItems_fails_iff {vs : List Value} :
    (∃ fault, printItems levels vs = .error fault) ↔
      ∃ v ∈ vs, ∃ fault, print levels v = .error fault := by
  induction vs with
  | nil => simp [printItems]
  | cons v vs ih =>
    rw [printItems, bind_both_fails_iff, ih]
    simp

theorem printEntries_fails_iff {entries : List (Value × Value)} :
    (∃ fault, printEntries levels entries = .error fault) ↔
      ∃ e ∈ entries, ¬e.1.NamesEntry ∨ ∃ fault, print levels e.2 = .error fault := by
  induction entries with
  | nil => simp [printEntries]
  | cons e entries ih =>
    obtain ⟨k, v⟩ := e
    have hkey := keyText_fails_iff (k := k)
    rw [printEntries, bind_fails_iff]
    simp only [bind_both_fails_iff, ih, hkey, List.mem_cons, exists_eq_or_imp]
    cases hname : keyText k with
    | error fault =>
      have hk : ¬k.NamesEntry := hkey.1 ⟨fault, hname⟩
      simp [hk]
    | ok key =>
      have hk : k.NamesEntry := by
        by_contra hk
        obtain ⟨fault, hfault⟩ := hkey.2 hk
        rw [hname] at hfault
        cases hfault
      simp [hk]

/-- A collection fails for want of a level, or one level further inside. -/
theorem enter_bind_fails_iff {β : Type} {f : Nat → Except PrintFault β} :
    (∃ fault, enter levels >>= f = .error fault) ↔
      levels = 0 ∨ ∃ left, levels = left + 1 ∧ ∃ fault, f left = .error fault := by
  cases levels with
  | zero => simp [enter, bind, Except.bind]
  | succ left => simp [enter, bind, Except.bind]

theorem print_list_fails_iff {items : List Value} :
    (∃ fault, print levels (.list items) = .error fault) ↔
      levels = 0 ∨
        ∃ left, levels = left + 1 ∧ ∃ v ∈ items, ∃ fault, print left v = .error fault := by
  rw [print, enter_bind_fails_iff]
  simp only [bind_fails_iff, printItems_fails_iff]
  simp [pure, Except.pure]

theorem print_dict_fails_iff {entries : List (Value × Value)} :
    (∃ fault, print levels (.dict entries) = .error fault) ↔
      levels = 0 ∨ ∃ left, levels = left + 1 ∧
        ∃ e ∈ entries, ¬e.1.NamesEntry ∨ ∃ fault, print left e.2 = .error fault := by
  rw [print, enter_bind_fails_iff]
  simp only [bind_fails_iff, printEntries_fails_iff]
  simp [pure, Except.pure]

theorem print_array_fails_iff {cells : Value} :
    (∃ fault, print levels (.array cells) = .error fault) ↔
      levels = 0 ∨ ∃ left, levels = left + 1 ∧ ∃ fault, print left cells = .error fault := by
  rw [print, enter_bind_fails_iff]

theorem zero_or_of_succ {p : Nat → Prop} (h : ∀ left, levels = left + 1 → p left) :
    levels = 0 ∨ ∃ left, levels = left + 1 ∧ p left := by
  cases levels with
  | zero => exact .inl rfl
  | succ left => exact .inr ⟨left, rfl, h left rfl⟩

theorem fails_of_unwritable {v : Value} (h : v.Unwritable levels) :
    ∃ fault, print levels v = .error fault := by
  cases v with
  | fraction q => exact ⟨_, rfl⟩
  | set items => exact ⟨_, rfl⟩
  | int i => exact intText_fails_iff.2 h
  | list items => exact print_list_fails_iff.2 (.inl h)
  | array cells => exact print_array_fails_iff.2 (.inl h)
  | dict entries =>
    obtain hnone | ⟨e, he, hkey⟩ := h
    · exact print_dict_fails_iff.2 (.inl hnone)
    · exact print_dict_fails_iff.2 (zero_or_of_succ fun left _ => ⟨e, he, .inl hkey⟩)
  | _ => exact absurd h id

theorem fails_of_occurs {u v : Value} {n : Nat} (h : u.Occurs n v)
    (hu : u.Unwritable (levels - n)) : ∃ fault, print levels v = .error fault := by
  induction h generalizing levels with
  | here => exact fails_of_unwritable hu
  | @item n v items hv _ ih =>
    refine print_list_fails_iff.2 (zero_or_of_succ fun left hleft => ⟨v, hv, ih ?_⟩)
    rwa [hleft, Nat.add_sub_add_right] at hu
  | member => exact ⟨_, rfl⟩
  | @entry n e entries he _ ih =>
    refine print_dict_fails_iff.2 (zero_or_of_succ fun left hleft => ⟨e, he, .inr (ih ?_)⟩)
    rwa [hleft, Nat.add_sub_add_right] at hu
  | @cell n cells _ ih =>
    refine print_array_fails_iff.2 (zero_or_of_succ fun left hleft => ih ?_)
    rwa [hleft, Nat.add_sub_add_right] at hu

theorem exists_occurs_of_fails : ∀ (levels : Nat) (v : Value),
    (∃ fault, print levels v = .error fault) →
      ∃ (n : Nat) (u : Value), u.Occurs n v ∧ u.Unwritable (levels - n)
  | _, .null, h | _, .bool _, h | _, .float _, h | _, .text _, h => by simp [print] at h
  | _, .int i, h => ⟨0, .int i, .here, intText_fails_iff.1 h⟩
  | _, .fraction q, _ => ⟨0, .fraction q, .here, trivial⟩
  | _, .set items, _ => ⟨0, .set items, .here, trivial⟩
  | levels, .list items, h => by
    obtain rfl | ⟨left, rfl, v, hv, hfails⟩ := print_list_fails_iff.1 h
    · exact ⟨0, .list items, .here, rfl⟩
    · obtain ⟨n, u, hoccurs, hu⟩ := exists_occurs_of_fails left v hfails
      exact ⟨n + 1, u, .item hv hoccurs, by rwa [Nat.add_sub_add_right]⟩
  | levels, .dict entries, h => by
    obtain rfl | ⟨left, rfl, e, he, hkey | hfails⟩ := print_dict_fails_iff.1 h
    · exact ⟨0, .dict entries, .here, .inl rfl⟩
    · exact ⟨0, .dict entries, .here, .inr ⟨e, he, hkey⟩⟩
    · have hsize := List.sizeOf_lt_of_mem he
      have hless : sizeOf e.2 < 1 + sizeOf entries := by
        obtain ⟨k, v⟩ := e
        simp only [Prod.mk.sizeOf_spec] at hsize ⊢
        omega
      obtain ⟨n, u, hoccurs, hu⟩ := exists_occurs_of_fails left e.2 hfails
      exact ⟨n + 1, u, .entry he hoccurs, by rwa [Nat.add_sub_add_right]⟩
  | levels, .array cells, h => by
    obtain rfl | ⟨left, rfl, hfails⟩ := print_array_fails_iff.1 h
    · exact ⟨0, .array cells, .here, rfl⟩
    · obtain ⟨n, u, hoccurs, hu⟩ := exists_occurs_of_fails left cells hfails
      exact ⟨n + 1, u, .cell hoccurs, by rwa [Nat.add_sub_add_right]⟩
termination_by _ v => sizeOf v

/-- A value has no JSON text exactly if one that cannot be written occurs in it. -/
theorem print_fails_iff {v : Value} :
    (∃ fault, print levels v = .error fault) ↔
      ∃ (n : Nat) (u : Value), u.Occurs n v ∧ u.Unwritable (levels - n) :=
  ⟨exists_occurs_of_fails levels v, fun ⟨_, _, hoccurs, hu⟩ => fails_of_occurs hoccurs hu⟩

end Json

end TwoPhase
