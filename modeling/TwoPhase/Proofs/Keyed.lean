import Mathlib.Data.List.Basic
import Mathlib.Data.List.Induction
import TwoPhase.Value

/-!
Dictionaries whose keys are texts. No two kinds of key meet in them, so a key is found as in a list
of pairs, and distinct keys keep their order.
-/
namespace TwoPhase

namespace Value

def keyed (entries : List (String × Value)) : List (Value × Value) :=
  entries.map fun e => (.text e.1, e.2)

theorem sameKey_text (s t : String) : sameKey (.text s) (.text t) = (s == t) := by
  simp [sameKey]

theorem lookup_keyed (key : String) (entries : List (String × Value)) :
    lookup key (keyed entries) = entries.lookup key := by
  induction entries with
  | nil => rfl
  | cons e entries ih =>
    rw [lookup, keyed] at ih ⊢
    rw [List.map_cons, List.find?_cons, List.lookup_cons]
    simp only [sameKey_text, Bool.beq_comm (a := e.1)]
    cases hkey : key == e.1 with
    | true => rfl
    | false => exact ih

theorem insert_text_of_notMem {key : String} {entries : List (String × Value)}
    (hkey : key ∉ entries.map Prod.fst) (value : Value) :
    insert (.text key) value (keyed entries) = keyed (entries ++ [(key, value)]) := by
  induction entries with
  | nil => rfl
  | cons e entries ih =>
    simp only [List.map_cons, List.mem_cons, not_or] at hkey
    have hne : sameKey (.text e.1) (.text key) = false := by
      rw [sameKey_text]
      simpa using Ne.symm hkey.1
    have htail := ih hkey.2
    simp only [keyed, List.map_cons, List.cons_append] at htail ⊢
    rw [insert, hne, htail]
    rfl

theorem ofPairs_keyed {entries : List (String × Value)} (h : (entries.map Prod.fst).Nodup) :
    ofPairs (keyed entries) = keyed entries := by
  induction entries using List.reverseRecOn with
  | nil => rfl
  | append_singleton entries e ih =>
    rw [List.map_append, List.nodup_append] at h
    have hkey : e.1 ∉ entries.map Prod.fst := fun he => h.2.2 e.1 he e.1 (by simp) rfl
    have hlast : ofPairs (keyed (entries ++ [e])) =
        insert (.text e.1) e.2 (ofPairs (keyed entries)) := by
      simp [ofPairs, keyed]
    rw [hlast, ih h.1, insert_text_of_notMem hkey]

end Value

end TwoPhase
