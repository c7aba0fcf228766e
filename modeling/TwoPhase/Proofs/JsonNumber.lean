import Mathlib.Data.List.TakeWhile
import TwoPhase.Json.Printer
import TwoPhase.Json.Reader

/-!
Written numbers are read back. What closes a number, a comma or a bracket, has no part in it, so it
is enough to read the number alone. An integer within the limit of digits comes back for any number;
a double does if its shortest text reads as this double, of which nothing is assumed here but the
characters it is made of.
-/
namespace TwoPhase

namespace Json

variable {c : Char} {n : Nat} {cs rest : List Char}

def Closes (rest : List Char) : Prop := ∀ c ∈ rest.head?, c = ',' ∨ c = ']' ∨ c = '\x7d'

theorem closes_nil : Closes [] := by simp [Closes]

theorem closes_cons (hc : c = ',' ∨ c = ']' ∨ c = '\x7d') (cs : List Char) : Closes (c :: cs) := by
  simpa [Closes] using hc

theorem Closes.takeWhile_digits (h : Closes rest) : rest.takeWhile Char.isDigit = [] := by
  cases rest with
  | nil => rfl
  | cons c rest =>
    have hc := h c rfl
    rcases hc with rfl | rfl | rfl <;> rfl

theorem Closes.dropWhile_digits (h : Closes rest) : rest.dropWhile Char.isDigit = rest := by
  cases rest with
  | nil => rfl
  | cons c rest =>
    have hc := h c rfl
    rcases hc with rfl | rfl | rfl <;> rfl

theorem takeWhile_digits_append (hrest : Closes rest) (cs : List Char) :
    (cs ++ rest).takeWhile Char.isDigit = cs.takeWhile Char.isDigit := by
  induction cs with
  | nil => exact hrest.takeWhile_digits
  | cons c cs ih => rw [List.cons_append, List.takeWhile_cons, List.takeWhile_cons, ih]

theorem dropWhile_digits_append (hrest : Closes rest) (cs : List Char) :
    (cs ++ rest).dropWhile Char.isDigit = cs.dropWhile Char.isDigit ++ rest := by
  rw [List.dropWhile_append, hrest.dropWhile_digits]
  split
  case isTrue h => rw [List.isEmpty_iff.1 h, List.nil_append]
  case isFalse => rfl

theorem splitSign_append (hrest : Closes rest) (cs : List Char) :
    Decimal.splitSign (cs ++ rest) =
      ((Decimal.splitSign cs).1, (Decimal.splitSign cs).2 ++ rest) := by
  cases cs with
  | nil =>
    cases rest with
    | nil => rfl
    | cons c rest =>
      have hc := hrest c rfl
      rcases hc with rfl | rfl | rfl <;> rfl
  | cons c cs =>
    rw [List.cons_append]
    unfold Decimal.splitSign
    split <;> simp_all

theorem exponent?_append (hrest : Closes rest) (cs : List Char) :
    exponent? (cs ++ rest) = (exponent? cs).map fun e => (e.1, e.2 ++ rest) := by
  cases cs with
  | nil =>
    cases rest with
    | nil => rfl
    | cons c rest =>
      have hc := hrest c rfl
      rcases hc with rfl | rfl | rfl <;> rfl
  | cons c cs =>
    simp only [List.cons_append, exponent?, splitSign_append hrest, takeWhile_digits_append hrest,
      dropWhile_digits_append hrest]
    split_ifs <;> rfl

theorem places?_append (hrest : Closes rest) (cs : List Char) :
    places? (cs ++ rest) = (places? cs).map fun p => (p.1, p.2 ++ rest) := by
  cases cs with
  | nil =>
    cases rest with
    | nil => rfl
    | cons c rest =>
      have hc := hrest c rfl
      rcases hc with rfl | rfl | rfl <;> rfl
  | cons c cs =>
    by_cases hc : c = '.'
    · subst hc
      simp only [List.cons_append, places?, takeWhile_digits_append hrest,
        dropWhile_digits_append hrest]
      split_ifs <;> rfl
    · have hnone (ds : List Char) : places? (c :: ds) = none := by
        unfold places?
        split <;> simp_all
      rw [List.cons_append, hnone, hnone, Option.map_none]

theorem number_append (hrest : Closes rest) (negative : Bool) (cs : List Char) :
    number negative (cs ++ rest) = (number negative cs).map fun v => (v.1, v.2 ++ rest) := by
  unfold number
  simp only [takeWhile_digits_append hrest]
  by_cases hds : (cs.takeWhile Char.isDigit).isEmpty
  · simp only [hds, if_true, Option.map_none]
  have hcs : 1 ≤ cs.length := by
    cases cs with
    | nil => simp at hds
    | cons c cs => simp
  obtain ⟨⟨whole, left⟩, hsplit, happend⟩ : ∃ w,
      (if (cs.takeWhile Char.isDigit).head? = some '0' then (['0'], cs.drop 1)
        else (cs.takeWhile Char.isDigit, cs.dropWhile Char.isDigit)) = w ∧
      (if (cs.takeWhile Char.isDigit).head? = some '0' then (['0'], (cs ++ rest).drop 1)
        else (cs.takeWhile Char.isDigit, (cs ++ rest).dropWhile Char.isDigit)) =
          (w.1, w.2 ++ rest) := by
    refine ⟨_, rfl, ?_⟩
    split_ifs
    · rw [List.drop_append_of_le_length hcs]
    · rw [dropWhile_digits_append hrest]
  simp only [hds, hsplit, happend, places?_append hrest]
  cases places? left with
  | none =>
    simp only [Option.map_none, Option.getD_none, exponent?_append hrest]
    cases exponent? left with
    | none =>
      simp only [Option.map_none]
      split_ifs <;> rfl
    | some e => rfl
  | some p =>
    simp only [Option.map_some, Option.getD_some, exponent?_append hrest]
    cases p.1 with
    | nil =>
      cases exponent? p.2 with
      | none =>
        simp only [Option.map_none]
        split_ifs <;> rfl
      | some e => rfl
    | cons d ds => cases exponent? p.2 <;> rfl

theorem isDigit_toDigits (n : Nat) : ∀ c ∈ Nat.toDigits 10 n, c.isDigit :=
  fun _ hc => Nat.isDigit_of_mem_toDigits (by decide) (by decide) hc

theorem natOfDigits_toDigits (n : Nat) : Decimal.natOfDigits (Nat.toDigits 10 n) = n :=
  Nat.ofDigitChars_toDigits (by decide) (by decide)

/-- Only zero is written with a leading zero. -/
theorem eq_zero_of_head?_toDigits (h : (Nat.toDigits 10 n).head? = some '0') : n = 0 := by
  induction n using Nat.strongRecOn with
  | ind n ih =>
    by_cases hn : n < 10
    · have hall : ∀ d < 10, d.digitChar = '0' → d = 0 := by decide
      rw [Nat.toDigits_of_lt_base hn] at h
      exact hall n hn (Option.some.inj h)
    · have hle : 10 ≤ n := Nat.not_lt.1 hn
      have hne : Nat.toDigits 10 (n / 10) ≠ [] := List.ne_nil_of_length_pos Nat.length_toDigits_pos
      rw [Nat.toDigits_of_base_le (by decide) hle, List.head?_append, List.head?_eq_some_head hne,
        Option.some_or, ← List.head?_eq_some_head hne] at h
      have hzero := ih (n / 10) (by omega) h
      omega

theorem number_toDigits (hn : (Nat.toDigits 10 n).length ≤ Decimal.maxDigits) (negative : Bool) :
    number negative (Nat.toDigits 10 n) = some (.int (if negative then -n else n), []) := by
  have htake : (Nat.toDigits 10 n).takeWhile Char.isDigit = Nat.toDigits 10 n :=
    List.takeWhile_eq_self_iff.2 (isDigit_toDigits n)
  have hdrop : (Nat.toDigits 10 n).dropWhile Char.isDigit = [] :=
    List.dropWhile_eq_nil_iff.2 (isDigit_toDigits n)
  have hempty : (Nat.toDigits 10 n).isEmpty = false := by simp
  unfold number
  simp only [htake, hdrop, hempty]
  by_cases hzero : (Nat.toDigits 10 n).head? = some '0'
  · rw [eq_zero_of_head?_toDigits hzero]
    cases negative <;> rfl
  · simp [hzero, places?, exponent?, natOfDigits_toDigits, Nat.not_lt.2 hn]

theorem value_digit {fuel : Nat} (hc : c.isDigit) (cs : List Char) :
    value (fuel + 1) (c :: cs) = number false (c :: cs) := by
  rw [value]
  all_goals
    rintro after h
    obtain ⟨rfl, -⟩ := List.cons.inj h
    exact absurd hc (by decide)

theorem value_minus {fuel : Nat} (hc : c.isDigit) (cs : List Char) :
    value (fuel + 1) ('-' :: c :: cs) = number true (c :: cs) := by
  rw [value]
  rintro after h
  obtain ⟨rfl, -⟩ := List.cons.inj h
  exact absurd hc (by decide)

end Json

namespace Decimal

def isNumeral (c : Char) : Bool := c.isDigit || c = '.' || c = 'e' || c = '+' || c = '-'

def Spells (cs : List Char) : Prop :=
  (∃ c ds, cs = c :: ds ∧ c.isDigit) ∧ ∀ c ∈ cs, isNumeral c

theorem isNumeral_of_isDigit {c : Char} (hc : c.isDigit) : isNumeral c := by simp [isNumeral, hc]

theorem Spells.append {cs ds : List Char} (h : Spells cs) (hds : ∀ c ∈ ds, isNumeral c) :
    Spells (cs ++ ds) := by
  obtain ⟨⟨c, cs, rfl, hc⟩, hcs⟩ := h
  refine ⟨⟨c, cs ++ ds, rfl, hc⟩, fun c hc => ?_⟩
  cases List.mem_append.1 hc with
  | inl h => exact hcs c h
  | inr h => exact hds c h

theorem spells_digits {cs : List Char} (hne : cs ≠ []) (h : ∀ c ∈ cs, c.isDigit) : Spells cs :=
  ⟨⟨cs.head hne, cs.tail, (List.cons_head_tail hne).symm, h _ (List.head_mem hne)⟩,
    fun c hc => isNumeral_of_isDigit (h c hc)⟩

theorem toList_toString (n : Nat) : (toString n).toList = Nat.toDigits 10 n := by
  rw [Nat.toString_eq_repr, Nat.repr_eq_ofList_toDigits, String.toList_ofList]

theorem isDigit_toString (n : Nat) : ∀ c ∈ (toString n).toList, c.isDigit := by
  rw [toList_toString]
  exact Json.isDigit_toDigits n

theorem isDigit_zeros (n : Nat) : ∀ c ∈ (zeros n).toList, c.isDigit := by
  intro c hc
  rw [zeros, String.toList_ofList] at hc
  rw [List.eq_of_mem_replicate hc]
  rfl

theorem spells_toString (n : Nat) : Spells (toString n).toList := by
  refine spells_digits ?_ (isDigit_toString n)
  rw [toList_toString]
  exact List.ne_nil_of_length_pos Nat.length_toDigits_pos

theorem spells_insertPoint {digits : String} (hdigits : ∀ c ∈ digits.toList, c.isDigit)
    (places : Nat) : Spells (insertPoint digits places).toList := by
  unfold insertPoint
  generalize hs : zeros (places + 1 - digits.length) ++ digits = s
  have hall : ∀ c ∈ s.toList, c.isDigit := by
    intro c hc
    rw [← hs, String.toList_append, List.mem_append] at hc
    cases hc with
    | inl h => exact isDigit_zeros _ c h
    | inr h => exact hdigits c h
  have hlength : places < s.toList.length := by
    rw [← hs, String.toList_append, List.length_append, zeros, String.toList_ofList,
      List.length_replicate, String.length_toList]
    omega
  have hwhole : Spells (s.toList.take (s.toList.length - places)) := by
    refine spells_digits ?_ fun c hc => hall c (List.mem_of_mem_take hc)
    exact List.ne_nil_of_length_pos (by rw [List.length_take]; omega)
  simp only
  split_ifs
  · simpa using hwhole
  · simp only [String.toList_append, String.toList_ofList, List.append_assoc]
    refine hwhole.append fun c hc => ?_
    cases List.mem_append.1 hc with
    | inl h => rw [List.mem_singleton.1 h]; rfl
    | inr h => exact isNumeral_of_isDigit (hall c (List.mem_of_mem_drop h))

theorem spells_positional (d : Decimal) : Spells d.positional.toList := by
  unfold positional
  split_ifs
  · rw [String.toList_append]
    exact (spells_toString _).append fun c hc => isNumeral_of_isDigit (isDigit_zeros _ c hc)
  · exact spells_insertPoint (isDigit_toString _) _

theorem spells_scientific (d : Decimal) : Spells d.scientific.toList := by
  have hmark (k : Int) : ∀ c ∈ (if k < 0 then "e-" else "e+").toList, isNumeral c := by
    split_ifs <;> simp [isNumeral]
  unfold scientific exponentText
  simp only [String.toList_append]
  refine (spells_insertPoint (isDigit_toString _) _).append fun c hc => ?_
  obtain (hc | hc) | hc : (_ ∨ _) ∨ _ := by simpa only [List.mem_append] using hc
  · exact hmark _ c hc
  · exact isNumeral_of_isDigit (isDigit_zeros _ c hc)
  · exact isNumeral_of_isDigit (isDigit_toString _ c hc)

/-- A finite double is written as a number with its sign in front. -/
theorem exists_shortestText {x : Float} {negative : Bool} {m : Nat} {e : Int}
    (hx : Binary64.ofFloat x = .finite negative m e) :
    ∃ s, Spells s.toList ∧ shortestText x = signed negative s := by
  have hpoint : ∀ c ∈ ".0".toList, isNumeral c := by simp [isNumeral]
  simp only [shortestText, hx]
  split_ifs
  · refine ⟨_, ?_, rfl⟩
    rw [String.toList_append]
    exact (spells_positional _).append hpoint
  · exact ⟨_, spells_positional _, rfl⟩
  · exact ⟨_, spells_scientific _, rfl⟩

end Decimal

namespace Json

variable {c : Char} {cs left rest : List Char} {x : Float}

theorem splitSign_suffix (cs : List Char) : (Decimal.splitSign cs).2 <:+ cs := by
  unfold Decimal.splitSign
  split
  · exact List.suffix_cons _ _
  · exact List.suffix_cons _ _
  · exact List.suffix_rfl

theorem exponent?_suffix {e : Int × List Char} (h : exponent? cs = some e) : e.2 <:+ cs := by
  cases cs with
  | nil => simp [exponent?] at h
  | cons c cs =>
    have hdrop : (Decimal.splitSign cs).2.dropWhile Char.isDigit <:+ c :: cs :=
      (List.dropWhile_suffix _).trans ((splitSign_suffix cs).trans (List.suffix_cons c cs))
    simp only [exponent?] at h
    split_ifs at h
    · exact Option.some.inj h ▸ hdrop
    · exact Option.some.inj h ▸ hdrop

theorem places?_suffix {p : List Char × List Char} (h : places? cs = some p) : p.2 <:+ cs := by
  unfold places? at h
  split at h
  · simp only at h
    split_ifs at h
    exact Option.some.inj h ▸ (List.dropWhile_suffix _).trans (List.suffix_cons _ _)
  · exact absurd h (by simp)

theorem number_suffix {negative : Bool} {v : Value × List Char}
    (h : number negative cs = some v) : v.2 <:+ cs := by
  unfold number at h
  have hleft : (if (cs.takeWhile Char.isDigit).head? = some '0' then (['0'], cs.drop 1)
      else (cs.takeWhile Char.isDigit, cs.dropWhile Char.isDigit)).2 <:+ cs := by
    split_ifs
    · exact List.drop_suffix 1 cs
    · exact List.dropWhile_suffix _
  by_cases hempty : (cs.takeWhile Char.isDigit).isEmpty
  · exact absurd h (by simp [hempty])
  rw [if_neg hempty] at h
  generalize (if (cs.takeWhile Char.isDigit).head? = some '0' then (['0'], cs.drop 1)
      else (cs.takeWhile Char.isDigit, cs.dropWhile Char.isDigit)) = w at h hleft
  have hafter : ((places? w.2).getD ([], w.2)).2 <:+ cs := by
    cases hplaces : places? w.2 with
    | none => exact hleft
    | some p => exact (places?_suffix hplaces).trans hleft
  simp only at h
  generalize (places? w.2).getD ([], w.2) = q at h hafter
  cases hplaces : q.1 with
  | nil =>
    cases hexponent : exponent? q.2 with
    | none =>
      simp only [hplaces, hexponent] at h
      by_cases hmax : Decimal.maxDigits < w.1.length
      · exact absurd h (by simp [hmax])
      · rw [if_neg hmax] at h
        exact Option.some.inj h ▸ hleft
    | some e =>
      simp only [hplaces, hexponent, Option.getD_some] at h
      exact Option.some.inj h ▸ (exponent?_suffix hexponent).trans hafter
  | cons d ds =>
    cases hexponent : exponent? q.2 with
    | none =>
      simp only [hplaces, hexponent, Option.getD_none] at h
      exact Option.some.inj h ▸ hafter
    | some e =>
      simp only [hplaces, hexponent, Option.getD_some] at h
      exact Option.some.inj h ▸ (exponent?_suffix hexponent).trans hafter

theorem not_isSpace_of_isNumeral (hc : Decimal.isNumeral c) : isSpace c = false := by
  have hspace : isSpace c = true → Decimal.isNumeral c = false := by
    simp only [isSpace, Bool.or_eq_true, decide_eq_true_eq]
    rintro (((rfl | rfl) | rfl) | rfl) <;> rfl
  cases h : isSpace c with
  | false => rfl
  | true => exact absurd hc (by simp [hspace h])

theorem skipSpace_of_not_isSpace (hc : isSpace c = false) (cs : List Char) :
    skipSpace (c :: cs) = c :: cs := by
  simp [skipSpace, hc]

/-- A number with blanks after it has none if it is made of numerals. -/
theorem number_of_spells {negative : Bool} {v : Value} (hcs : Decimal.Spells cs)
    (h : number negative cs = some (v, left)) (hleft : skipSpace left = []) : left = [] := by
  cases left with
  | nil => rfl
  | cons c left =>
    have hc := hcs.2 c ((number_suffix h).subset List.mem_cons_self)
    rw [skipSpace_of_not_isSpace (not_isSpace_of_isNumeral hc)] at hleft
    exact absurd hleft (by simp)

theorem value_of_read? {s : String} {v : Value} (hs : s.toList = c :: cs)
    (hc : isSpace c = false) (h : read? s = some v) :
    ∃ left, value (fuelFor (c :: cs)) (c :: cs) = some (v, left) ∧ skipSpace left = [] := by
  simp only [read?, hs, skipSpace_of_not_isSpace hc] at h
  cases hvalue : value (fuelFor (c :: cs)) (c :: cs) with
  | none => simp [hvalue] at h
  | some w =>
    simp only [hvalue, Option.ite_none_right_eq_some, List.isEmpty_iff, Option.some.injEq] at h
    exact ⟨w.2, by rw [← h.2], h.1⟩

variable {digits : String} {negative : Bool} {v : Value}

/-- A number with its sign that reads as a value is one of which nothing is left. -/
theorem number_of_read? (hdigits : Decimal.Spells digits.toList)
    (h : read? (Decimal.signed negative digits) = some v) :
    number negative digits.toList = some (v, []) := by
  obtain ⟨d, ds, hlist, hd⟩ := hdigits.1
  cases negative with
  | false =>
    have hspace := not_isSpace_of_isNumeral (Decimal.isNumeral_of_isDigit hd)
    obtain ⟨left, hvalue, hleft⟩ := value_of_read? hlist hspace h
    rw [fuelFor, value_digit hd, ← hlist] at hvalue
    rwa [number_of_spells hdigits hvalue hleft] at hvalue
  | true =>
    have hsigned : ("-" ++ digits).toList = '-' :: d :: ds := by simp [hlist]
    obtain ⟨left, hvalue, hleft⟩ := value_of_read? hsigned rfl h
    rw [fuelFor, value_minus hd, ← hlist] at hvalue
    rwa [number_of_spells hdigits hvalue hleft] at hvalue

theorem value_signed (hdigits : Decimal.Spells digits.toList)
    (h : number negative digits.toList = some (v, [])) (hrest : Closes rest) (fuel : Nat) :
    value (fuel + 1) ((Decimal.signed negative digits).toList ++ rest) = some (v, rest) := by
  obtain ⟨d, ds, hlist, hd⟩ := hdigits.1
  have happend := number_append hrest negative digits.toList
  rw [h, hlist, List.cons_append] at happend
  cases negative with
  | false =>
    rw [← value_digit hd] at happend
    simpa [Decimal.signed, hlist] using happend
  | true =>
    rw [← value_minus hd] at happend
    simpa [Decimal.signed, hlist] using happend

theorem value_floatText (hx : read? (floatText x) = some (.float x)) (hrest : Closes rest)
    (fuel : Nat) : value (fuel + 1) ((floatText x).toList ++ rest) = some (.float x, rest) := by
  cases hbits : Binary64.ofFloat x with
  | nan =>
    have hnan : read? "NaN" = some (.float (0 / 0)) := rfl
    simp only [floatText, hbits, hnan, Option.some.injEq, Value.float.injEq] at hx ⊢
    simp [value, expect, hx]
  | infinite negative =>
    cases negative with
    | false =>
      have hinf : read? "Infinity" = some (.float (Binary64.infinity false)) := rfl
      simp only [floatText, hbits, Bool.false_eq_true, if_false, hinf, Option.some.injEq,
        Value.float.injEq] at hx ⊢
      simp [value, expect, hx]
    | true =>
      have hinf : read? "-Infinity" = some (.float (Binary64.infinity true)) := rfl
      simp only [floatText, hbits, if_true, hinf, Option.some.injEq, Value.float.injEq] at hx ⊢
      simp [value, expect, hx]
  | finite negative m e =>
    obtain ⟨s, hspells, htext⟩ := Decimal.exists_shortestText hbits
    simp only [floatText, hbits, htext] at hx ⊢
    exact value_signed hspells (number_of_read? hspells hx) hrest fuel

end Json

end TwoPhase
