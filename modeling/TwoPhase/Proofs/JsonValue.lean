import Mathlib.Data.List.Forall2
import TwoPhase.Proofs.JsonNumber
import TwoPhase.Proofs.JsonText
import TwoPhase.Proofs.Keyed
import TwoPhase.Proofs.Loops

/-!
Printed values are read back. An array comes back as the lists of its cells, every other value as
it was. A value has a printed form if it is made of scalars, lists, dictionaries under distinct
texts and arrays, with no more digits and no deeper than the writer allows; of a double it is
assumed that its text reads as this double. The reader's fuel is the length of the text. What is
printed is one line, whatever lines the texts in it have.
-/
namespace TwoPhase

namespace Value

mutual

def plain : Value → Value
  | .list items => .list (plainItems items)
  | .dict entries => .dict (plainEntries entries)
  | .array cells => plain cells
  | v => v

def plainItems : List Value → List Value
  | [] => []
  | v :: vs => plain v :: plainItems vs

def plainEntries : List (Value × Value) → List (Value × Value)
  | [] => []
  | (k, v) :: entries => (k, plain v) :: plainEntries entries

end

/-- The values that have a printed form from which they can be read, with so many levels left. -/
inductive Printable : Nat → Value → Prop
  | null {n : Nat} : Printable n .null
  | bool {n : Nat} (b : Bool) : Printable n (.bool b)
  | int {n : Nat} (i : Int) (digits_le : (toString i.natAbs).length ≤ Decimal.maxDigits) :
      Printable n (.int i)
  | float {n : Nat} (x : Float) (reads_back : Json.read? (Json.floatText x) = some (.float x)) :
      Printable n (.float x)
  | text {n : Nat} (s : String) : Printable n (.text s)
  | list {n : Nat} (items : List Value) (items_printable : ∀ v ∈ items, Printable n v) :
      Printable (n + 1) (.list items)
  | dict {n : Nat} (entries : List (String × Value)) (keys_nodup : (entries.map Prod.fst).Nodup)
      (values_printable : ∀ e ∈ entries, Printable n e.2) :
      Printable (n + 1) (.dict (keyed entries))
  | array {n : Nat} (cells : Value) (cells_printable : Printable n cells) :
      Printable (n + 1) (.array cells)

theorem plainItems_eq (vs : List Value) : plainItems vs = vs.map plain := by
  induction vs with
  | nil => rfl
  | cons v vs ih => rw [plainItems, ih, List.map_cons]

theorem plainEntries_keyed (entries : List (String × Value)) :
    plainEntries (keyed entries) = keyed (entries.map fun e => (e.1, e.2.plain)) := by
  induction entries with
  | nil => rfl
  | cons e entries ih =>
    simp only [keyed, List.map_cons] at ih ⊢
    rw [plainEntries, ih]

end Value

namespace Json

variable {c : Char} {cs rest : List Char} {text : String} {v : Value}

def Starts (cs : List Char) : Prop :=
  ∃ c ds, cs = c :: ds ∧ isSpace c = false ∧ c ≠ ']' ∧ c ≠ '\x7d'

theorem Starts.append (h : Starts cs) (ds : List Char) : Starts (cs ++ ds) := by
  obtain ⟨c, cs, rfl, hc⟩ := h
  exact ⟨c, cs ++ ds, rfl, hc⟩

theorem Starts.skipSpace_eq (h : Starts cs) : skipSpace cs = cs := by
  obtain ⟨c, cs, rfl, hc, -⟩ := h
  exact skipSpace_of_not_isSpace hc cs

theorem toList_intercalate_cons (text text' : String) (texts : List String) :
    (", ".intercalate (text :: text' :: texts)).toList =
      text.toList ++ ',' :: ' ' :: (", ".intercalate (text' :: texts)).toList := by
  simp [String.intercalate_cons_cons]

theorem Starts.intercalate (h : Starts text.toList) (texts : List String) :
    Starts (", ".intercalate (text :: texts)).toList := by
  cases texts with
  | nil => rwa [String.intercalate_singleton]
  | cons text' texts =>
    rw [toList_intercalate_cons]
    exact h.append _

theorem skipSpace_blank (cs : List Char) : skipSpace (' ' :: cs) = skipSpace cs := rfl

theorem skipSpace_colon (cs : List Char) : skipSpace (':' :: cs) = ':' :: cs := rfl

theorem skipSpace_comma (cs : List Char) : skipSpace (',' :: cs) = ',' :: cs := rfl

/-- A text that reads as a value wherever it is closed. Its length is fuel enough. -/
structure Reads (text : String) (v : Value) : Prop where
  starts : Starts text.toList
  value_eq : ∀ fuel rest, text.toList.length ≤ fuel → Closes rest →
    value fuel (text.toList ++ rest) = some (v, rest)

/-- What is read without a look inside takes one unit of fuel. -/
theorem Reads.of_succ (hstarts : Starts text.toList)
    (h : ∀ fuel rest, Closes rest → value (fuel + 1) (text.toList ++ rest) = some (v, rest)) :
    Reads text v := by
  refine ⟨hstarts, fun fuel rest hfuel hrest => ?_⟩
  obtain ⟨c, cs, htext, -⟩ := hstarts
  rw [htext, List.length_cons] at hfuel
  obtain ⟨fuel, rfl⟩ := Nat.exists_eq_succ_of_ne_zero (Nat.ne_zero_of_lt hfuel)
  exact h fuel rest hrest

theorem reads_null : Reads "null" .null :=
  .of_succ ⟨'n', ['u', 'l', 'l'], rfl, by decide⟩ fun _ _ _ => by
    simp [value, expect]

theorem reads_bool (b : Bool) : Reads (boolText b) (.bool b) := by
  cases b with
  | false =>
    exact .of_succ ⟨'f', ['a', 'l', 's', 'e'], rfl, by decide⟩ fun _ _ _ => by
      simp [boolText, value, expect]
  | true =>
    exact .of_succ ⟨'t', ['r', 'u', 'e'], rfl, by decide⟩ fun _ _ _ => by
      simp [boolText, value, expect]

theorem not_isSpace_of_isDigit (hc : c.isDigit) : isSpace c = false ∧ c ≠ ']' ∧ c ≠ '\x7d' := by
  refine ⟨not_isSpace_of_isNumeral (Decimal.isNumeral_of_isDigit hc), ?_, ?_⟩
  · rintro rfl
    exact absurd hc (by decide)
  · rintro rfl
    exact absurd hc (by decide)

theorem Reads.of_spells {digits : String} {negative : Bool} (hdigits : Decimal.Spells digits.toList)
    (h : ∀ fuel rest, Closes rest →
      value (fuel + 1) ((Decimal.signed negative digits).toList ++ rest) = some (v, rest)) :
    Reads (Decimal.signed negative digits) v := by
  obtain ⟨d, ds, hlist, hd⟩ := hdigits.1
  cases negative with
  | false => exact .of_succ ⟨d, ds, hlist, not_isSpace_of_isDigit hd⟩ h
  | true =>
    have hsigned : (Decimal.signed true digits).toList = '-' :: digits.toList := by
      simp [Decimal.signed]
    exact .of_succ ⟨'-', digits.toList, hsigned, by decide⟩ h

theorem reads_signed {n : Nat} (hn : (toString n).length ≤ Decimal.maxDigits) (negative : Bool) :
    Reads (Decimal.signed negative (toString n)) (.int (if negative then -n else n)) := by
  have hspells := Decimal.spells_toString n
  rw [← String.length_toList, Decimal.toList_toString] at hn
  have hnumber := number_toDigits hn negative
  rw [← Decimal.toList_toString] at hnumber
  exact .of_spells hspells fun fuel rest hrest => value_signed hspells hnumber hrest fuel

theorem reads_int {i : Int} (hi : (toString i.natAbs).length ≤ Decimal.maxDigits) :
    Reads (toString i) (.int i) := by
  cases i with
  | ofNat n => exact reads_signed hi false
  | negSucc n => exact reads_signed hi true

theorem reads_float {x : Float} (hx : read? (floatText x) = some (.float x)) :
    Reads (floatText x) (.float x) := by
  have hvalue (fuel : Nat) (rest : List Char) (hrest : Closes rest) :=
    value_floatText hx hrest fuel
  cases hbits : Binary64.ofFloat x with
  | nan =>
    simp only [floatText, hbits] at hvalue ⊢
    exact .of_succ ⟨'N', ['a', 'N'], rfl, by decide⟩ hvalue
  | infinite negative =>
    simp only [floatText, hbits] at hvalue ⊢
    cases negative with
    | false => exact .of_succ ⟨'I', "nfinity".toList, rfl, by decide⟩ hvalue
    | true => exact .of_succ ⟨'-', "Infinity".toList, rfl, by decide⟩ hvalue
  | finite negative m e =>
    obtain ⟨s, hspells, htext⟩ := Decimal.exists_shortestText hbits
    simp only [floatText, hbits, htext] at hvalue ⊢
    exact .of_spells hspells hvalue

theorem reads_text (s : String) : Reads (quotedText s) (.text s) := by
  refine .of_succ ⟨'"', _, toList_quotedText s, by decide⟩ fun fuel rest _ => ?_
  rw [toList_quotedText, List.cons_append, List.append_assoc, value, List.singleton_append,
    textBody_quoted]
  simp

/-- The items of a list are read up to its bracket. -/
theorem items_intercalate {texts : List String} {vs : List Value} (h : List.Forall₂ Reads texts vs)
    (hne : texts ≠ []) {fuel : Nat} (hfuel : (", ".intercalate texts).toList.length < fuel)
    (rest : List Char) :
    items fuel ((", ".intercalate texts).toList ++ ']' :: rest) = some (vs, rest) := by
  induction h generalizing fuel with
  | nil => exact absurd rfl hne
  | @cons text v texts vs hfirst hothers ih =>
    obtain ⟨fuel, rfl⟩ := Nat.exists_eq_succ_of_ne_zero (Nat.ne_zero_of_lt hfuel)
    cases hothers with
    | nil =>
      rw [String.intercalate_singleton] at hfuel ⊢
      have hvalue := hfirst.value_eq fuel (']' :: rest) (Nat.le_of_lt_succ hfuel)
        (closes_cons (by simp) rest)
      rw [items, hvalue]
      rfl
    | @cons text' v' texts vs hsecond hothers =>
      rw [toList_intercalate_cons, List.length_append, List.length_cons, List.length_cons] at hfuel
      have hrest : items fuel ((", ".intercalate (text' :: texts)).toList ++ ']' :: rest) =
          some (v' :: vs, rest) := ih (by simp) (by omega)
      have hstarts := (hsecond.starts.intercalate texts).append (']' :: rest)
      have hvalue := hfirst.value_eq fuel
        (',' :: ' ' :: ((", ".intercalate (text' :: texts)).toList ++ ']' :: rest)) (by omega)
        (closes_cons (by simp) _)
      rw [toList_intercalate_cons, List.append_assoc, List.cons_append, List.cons_append, items,
        hvalue]
      simp only [Option.bind_eq_bind, Option.bind_some, skipSpace_comma, skipSpace_blank,
        hstarts.skipSpace_eq, hrest]
      rfl

def entryText (t : String × String) : String := quotedText t.1 ++ ": " ++ t.2

theorem toList_entryText (t : String × String) :
    (entryText t).toList =
      '"' :: (t.1.toList.flatMap escapedChar ++ '"' :: ':' :: ' ' :: t.2.toList) := by
  simp [entryText, toList_quotedText]

theorem starts_entryText (t : String × String) : Starts (entryText t).toList :=
  ⟨'"', _, toList_entryText t, by decide⟩

def ReadsEntry (t : String × String) (e : String × Value) : Prop := t.1 = e.1 ∧ Reads t.2 e.2

/-- The entries of a dictionary are read up to its brace. -/
theorem entries_intercalate {texts : List (String × String)} {es : List (String × Value)}
    (h : List.Forall₂ ReadsEntry texts es) (hne : texts ≠ []) {fuel : Nat}
    (hfuel : (", ".intercalate (texts.map entryText)).toList.length < fuel) (rest : List Char) :
    entries fuel ((", ".intercalate (texts.map entryText)).toList ++ '\x7d' :: rest) =
      some (Value.keyed es, rest) := by
  induction h generalizing fuel with
  | nil => exact absurd rfl hne
  | @cons t e texts es hfirst hothers ih =>
    obtain ⟨key, v⟩ := e
    obtain ⟨rfl, hreads⟩ : t.1 = key ∧ Reads t.2 v := hfirst
    obtain ⟨fuel, rfl⟩ := Nat.exists_eq_succ_of_ne_zero (Nat.ne_zero_of_lt hfuel)
    cases hothers with
    | nil =>
      rw [List.map_singleton, String.intercalate_singleton, toList_entryText] at hfuel ⊢
      simp only [List.length_cons, List.length_append] at hfuel
      have hvalue := hreads.value_eq fuel ('\x7d' :: rest) (by omega) (closes_cons (by simp) rest)
      simp only [List.cons_append, List.append_assoc, entries, textBody_quoted,
        Option.bind_eq_bind, Option.bind_some, skipSpace_colon, skipSpace_blank,
        (hreads.starts.append _).skipSpace_eq, hvalue, String.ofList_toList]
      rfl
    | @cons t' e' texts es hsecond hothers =>
      rw [List.map_cons, List.map_cons, toList_intercalate_cons, toList_entryText] at hfuel ⊢
      simp only [List.length_cons, List.length_append] at hfuel
      have hrest : entries fuel ((", ".intercalate ((t' :: texts).map entryText)).toList ++
          '\x7d' :: rest) = some (Value.keyed (e' :: es), rest) :=
        ih (by simp) (by rw [List.map_cons]; omega)
      have hstarts := ((starts_entryText t').intercalate (texts.map entryText)).append
        ('\x7d' :: rest)
      have hvalue := hreads.value_eq fuel
        (',' :: ' ' :: ((", ".intercalate (entryText t' :: texts.map entryText)).toList ++
          '\x7d' :: rest)) (by omega) (closes_cons (by simp) _)
      rw [List.map_cons] at hrest
      simp only [List.cons_append, List.append_assoc, entries, textBody_quoted,
        Option.bind_eq_bind, Option.bind_some, skipSpace_colon, skipSpace_blank, skipSpace_comma,
        (hreads.starts.append _).skipSpace_eq, hvalue, hstarts.skipSpace_eq, hrest,
        String.ofList_toList]
      rfl

theorem value_list {fuel : Nat} (hcs : Starts cs) :
    value (fuel + 1) ('[' :: cs) = (items fuel cs).map fun w => (.list w.1, w.2) := by
  have hskip := hcs.skipSpace_eq
  obtain ⟨c, cs, rfl, -, hc, -⟩ := hcs
  rw [value, hskip]
  split
  case h_1 heq => exact absurd (List.cons.inj heq).1 hc
  case h_2 => exact Option.map_eq_bind.symm

theorem value_dict {fuel : Nat} (hcs : Starts cs) :
    value (fuel + 1) ('\x7b' :: cs) =
      (entries fuel cs).map fun w => (.dict (Value.ofPairs w.1), w.2) := by
  have hskip := hcs.skipSpace_eq
  obtain ⟨c, cs, rfl, -, -, hc⟩ := hcs
  rw [value, hskip]
  split
  case h_1 heq => exact absurd (List.cons.inj heq).1 hc
  case h_2 => exact Option.map_eq_bind.symm

theorem reads_list {texts : List String} {vs : List Value} (h : List.Forall₂ Reads texts vs) :
    Reads ("[" ++ ", ".intercalate texts ++ "]") (.list vs) := by
  have hlist : ("[" ++ ", ".intercalate texts ++ "]").toList =
      '[' :: ((", ".intercalate texts).toList ++ [']']) := by simp
  refine ⟨⟨'[', _, hlist, by decide⟩, fun fuel rest hfuel _ => ?_⟩
  rw [hlist] at hfuel ⊢
  simp only [List.length_cons, List.length_append] at hfuel
  obtain ⟨fuel, rfl⟩ : ∃ k, fuel = k + 1 := ⟨fuel - 1, by omega⟩
  rw [List.cons_append, List.append_assoc, List.singleton_append]
  cases h with
  | nil => simp [value, skipSpace, isSpace]
  | @cons text v texts vs hfirst hothers =>
    have hstarts := (hfirst.starts.intercalate texts).append (']' :: rest)
    rw [value_list hstarts, items_intercalate (.cons hfirst hothers) (by simp) (by omega)]
    rfl

theorem reads_dict {texts : List (String × String)} {es : List (String × Value)}
    (h : List.Forall₂ ReadsEntry texts es) (hkeys : (es.map Prod.fst).Nodup) :
    Reads ("\x7b" ++ ", ".intercalate (texts.map entryText) ++ "\x7d")
      (.dict (Value.keyed es)) := by
  have hlist : ("\x7b" ++ ", ".intercalate (texts.map entryText) ++ "\x7d").toList =
      '\x7b' :: ((", ".intercalate (texts.map entryText)).toList ++ ['\x7d']) := by simp
  refine ⟨⟨'\x7b', _, hlist, by decide⟩, fun fuel rest hfuel _ => ?_⟩
  rw [hlist] at hfuel ⊢
  simp only [List.length_cons, List.length_append] at hfuel
  obtain ⟨fuel, rfl⟩ : ∃ k, fuel = k + 1 := ⟨fuel - 1, by omega⟩
  rw [List.cons_append, List.append_assoc, List.singleton_append]
  cases h with
  | nil => simp [value, skipSpace, isSpace, Value.keyed]
  | @cons t e texts es hfirst hothers =>
    have hstarts := ((starts_entryText t).intercalate (texts.map entryText)).append
      ('\x7d' :: rest)
    rw [← List.map_cons] at hstarts
    rw [value_dict hstarts, entries_intercalate (.cons hfirst hothers) (by simp) (by omega),
      Option.map_some, Value.ofPairs_keyed hkeys]

theorem enter_bind {β : Type} (n : Nat) (f : Nat → Except PrintFault β) :
    (enter (n + 1) >>= f) = f n := rfl

theorem exists_printItems {n : Nat} {items : List Value}
    (h : ∀ v ∈ items, ∃ text, print n v = .ok text ∧ Reads text v.plain) :
    ∃ texts, printItems n items = .ok texts ∧ List.Forall₂ Reads texts (items.map Value.plain) := by
  induction items with
  | nil => exact ⟨[], rfl, .nil⟩
  | cons v items ih =>
    obtain ⟨text, hprint, hreads⟩ := h v List.mem_cons_self
    obtain ⟨texts, hprints, hall⟩ := ih fun v hv => h v (List.mem_cons_of_mem _ hv)
    refine ⟨text :: texts, ?_, .cons hreads hall⟩
    rw [printItems, hprint, hprints]
    rfl

theorem exists_printEntries {n : Nat} {es : List (String × Value)}
    (h : ∀ e ∈ es, ∃ text, print n e.2 = .ok text ∧ Reads text e.2.plain) :
    ∃ texts, printEntries n (Value.keyed es) = .ok (texts.map entryText) ∧
      List.Forall₂ ReadsEntry texts (es.map fun e => (e.1, e.2.plain)) := by
  induction es with
  | nil => exact ⟨[], rfl, .nil⟩
  | cons e es ih =>
    obtain ⟨text, hprint, hreads⟩ := h e List.mem_cons_self
    obtain ⟨texts, hprints, hall⟩ := ih fun e he => h e (List.mem_cons_of_mem _ he)
    refine ⟨(e.1, text) :: texts, ?_, .cons ⟨rfl, hreads⟩ hall⟩
    rw [Value.keyed] at hprints
    rw [Value.keyed, List.map_cons, printEntries, keyText, hprint, hprints]
    rfl

/-- A printable value has a text that reads as its plain form. -/
theorem exists_print {n : Nat} (h : v.Printable n) :
    ∃ text, print n v = .ok text ∧ Reads text v.plain := by
  induction h with
  | null => exact ⟨_, rfl, reads_null⟩
  | bool b => exact ⟨_, rfl, reads_bool b⟩
  | int i hi => exact ⟨_, if_pos hi, reads_int hi⟩
  | float x hx => exact ⟨_, rfl, reads_float hx⟩
  | text s => exact ⟨_, rfl, reads_text s⟩
  | list items _ ih =>
    obtain ⟨texts, hprint, hall⟩ := exists_printItems ih
    refine ⟨_, by rw [print, enter_bind, hprint]; rfl, ?_⟩
    rw [Value.plain, Value.plainItems_eq]
    exact reads_list hall
  | dict es hkeys _ ih =>
    obtain ⟨texts, hprint, hall⟩ := exists_printEntries ih
    refine ⟨_, by rw [print, enter_bind, hprint]; rfl, ?_⟩
    rw [Value.plain, Value.plainEntries_keyed]
    exact reads_dict hall (by rwa [List.map_map])
  | array cells _ ih =>
    obtain ⟨text, hprint, hreads⟩ := ih
    exact ⟨text, by rw [print, enter_bind, hprint], by rwa [Value.plain]⟩

theorem unbroken_of_isNumeral (h : ∀ c ∈ cs, Decimal.isNumeral c) : Text.Unbroken cs :=
  ⟨fun hc => absurd (h _ hc) (by decide), fun hc => absurd (h _ hc) (by decide)⟩

theorem unbroken_signed {digits : String} (hdigits : Decimal.Spells digits.toList)
    (negative : Bool) : Text.Unbroken (Decimal.signed negative digits).toList := by
  have hunbroken := unbroken_of_isNumeral hdigits.2
  have hminus : Text.Unbroken "-".toList := by decide
  cases negative with
  | false => exact hunbroken
  | true =>
    rw [Decimal.signed, if_pos rfl, String.toList_append, Text.unbroken_append]
    exact ⟨hminus, hunbroken⟩

theorem unbroken_int (i : Int) : Text.Unbroken (toString i).toList := by
  cases i with
  | ofNat n => exact unbroken_signed (Decimal.spells_toString n) false
  | negSucc n => exact unbroken_signed (Decimal.spells_toString (n + 1)) true

theorem unbroken_intText {i : Int} (h : intText i = .ok text) : Text.Unbroken text.toList := by
  unfold intText at h
  split at h
  · exact Except.ok.inj h ▸ unbroken_int i
  · cases h

theorem unbroken_floatText (x : Float) : Text.Unbroken (floatText x).toList := by
  cases hbits : Binary64.ofFloat x with
  | nan =>
    simp only [floatText, hbits]
    decide
  | infinite negative =>
    simp only [floatText, hbits]
    cases negative <;> decide
  | finite negative m e =>
    obtain ⟨s, hspells, htext⟩ := Decimal.exists_shortestText hbits
    simp only [floatText, hbits, htext]
    exact unbroken_signed hspells negative

theorem unbroken_intercalate {texts : List String} (h : ∀ t ∈ texts, Text.Unbroken t.toList) :
    Text.Unbroken (", ".intercalate texts).toList := by
  induction texts with
  | nil => decide
  | cons t texts ih =>
    have hfirst := h t List.mem_cons_self
    have hothers := ih fun t ht => h t (List.mem_cons_of_mem _ ht)
    cases texts with
    | nil => rwa [String.intercalate_singleton]
    | cons t' texts =>
      rw [toList_intercalate_cons, Text.unbroken_append, Text.unbroken_cons, Text.unbroken_cons]
      exact ⟨hfirst, by decide, by decide, hothers⟩

theorem unbroken_bracketed {first last : String} (hfirst : Text.Unbroken first.toList)
    (hlast : Text.Unbroken last.toList) {texts : List String}
    (h : ∀ t ∈ texts, Text.Unbroken t.toList) :
    Text.Unbroken (first ++ ", ".intercalate texts ++ last).toList := by
  rw [String.toList_append, String.toList_append, Text.unbroken_append, Text.unbroken_append]
  exact ⟨⟨hfirst, unbroken_intercalate h⟩, hlast⟩

mutual

/-- A printed value is one line, whatever its texts hold. -/
theorem unbroken_print : ∀ (n : Nat) (v : Value) {text : String}, print n v = .ok text →
    Text.Unbroken text.toList
  | _, .null, _, h => by
    rw [← Except.ok.inj h]
    decide
  | _, .bool b, _, h => by
    rw [← Except.ok.inj h]
    cases b <;> decide
  | _, .int i, _, h => unbroken_intText h
  | _, .float x, _, h => by
    rw [← Except.ok.inj h]
    exact unbroken_floatText x
  | _, .fraction _, _, h => by simp [print] at h
  | _, .text s, _, h => by
    rw [← Except.ok.inj h]
    exact unbroken_quotedText s
  | n, .list items, _, h => by
    rw [print, bind_eq_ok] at h
    obtain ⟨left, -, h⟩ := h
    obtain ⟨texts, htexts, h⟩ := bind_eq_ok.1 h
    rw [← Except.ok.inj h]
    exact unbroken_bracketed (by decide) (by decide) (unbroken_printItems left items htexts)
  | n, .dict entries, _, h => by
    rw [print, bind_eq_ok] at h
    obtain ⟨left, -, h⟩ := h
    obtain ⟨texts, htexts, h⟩ := bind_eq_ok.1 h
    rw [← Except.ok.inj h]
    exact unbroken_bracketed (by decide) (by decide) (unbroken_printEntries left entries htexts)
  | _, .set _, _, h => by simp [print] at h
  | n, .array cells, _, h => by
    rw [print, bind_eq_ok] at h
    obtain ⟨left, -, h⟩ := h
    exact unbroken_print left cells h

theorem unbroken_printItems : ∀ (n : Nat) (vs : List Value) {texts : List String},
    printItems n vs = .ok texts → ∀ t ∈ texts, Text.Unbroken t.toList
  | _, [], _, h => by
    rw [← Except.ok.inj h]
    simp
  | n, v :: vs, _, h => by
    rw [printItems, bind_eq_ok] at h
    obtain ⟨text, htext, h⟩ := h
    obtain ⟨texts, htexts, h⟩ := bind_eq_ok.1 h
    rw [← Except.ok.inj h, List.forall_mem_cons]
    exact ⟨unbroken_print n v htext, unbroken_printItems n vs htexts⟩

theorem unbroken_printEntries : ∀ (n : Nat) (entries : List (Value × Value)) {texts : List String},
    printEntries n entries = .ok texts → ∀ t ∈ texts, Text.Unbroken t.toList
  | _, [], _, h => by
    rw [← Except.ok.inj h]
    simp
  | n, (k, v) :: entries, _, h => by
    rw [printEntries, bind_eq_ok] at h
    obtain ⟨key, hkey, h⟩ := h
    obtain ⟨text, htext, h⟩ := bind_eq_ok.1 h
    obtain ⟨texts, htexts, h⟩ := bind_eq_ok.1 h
    have hcolon : Text.Unbroken ": ".toList := by decide
    rw [← Except.ok.inj h, List.forall_mem_cons, String.toList_append, String.toList_append,
      Text.unbroken_append, Text.unbroken_append]
    exact ⟨⟨⟨unbroken_quotedText key, hcolon⟩, unbroken_print n v htext⟩,
      unbroken_printEntries n entries htexts⟩

end

end Json

end TwoPhase
