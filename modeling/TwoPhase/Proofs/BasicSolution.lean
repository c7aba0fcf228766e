import TwoPhase.Proofs.Selection
import TwoPhase.Proofs.Exchange

/-!
Reading a solution off a tableau: a basic variable has the right-hand side of its row, any other
variable is zero. Nothing is assumed of the arithmetic; the basis has to name distinct variables
from one on.
-/
namespace TwoPhase

variable {α : Type} [Cell α]

namespace Tableau

def basicValue (t : Tableau α) (k : Int) : α :=
  match t.basis.idxOf? k with
  | some i => t.cells.cell i t.rhsCol
  | none => 0

def store (t : Tableau α) (n : Int) (x : List α) (entry : Int × Nat) :
    Except TableauFault (List α) := do
  if entry.1 ≤ n then
    let value ← t.cells.read entry.2 (-1)
    match position? (entry.1 - 1) x.length with
    | some k => pure (x.set k value)
    | none => .error .outOfRange
  else pure x

theorem solution_eq_foldlM (t : Tableau α) (n : Nat) :
    t.solution n = t.basis.zipIdx.foldlM (t.store n) (List.replicate n 0) := by
  rw [solution, if_neg (by omega), Int.toNat_natCast]
  rfl

theorem read_rhs (t : Tableau α) {i : Nat} (hi : i < t.cells.height) :
    t.cells.read i (-1) = .ok (t.cells.cell i t.rhsCol) := by
  have hw : t.cells.width = t.rhsCol + 1 := t.width_cells
  rw [← t.cells.read_natCast hi (by omega : t.rhsCol < t.cells.width), Grid.read, Grid.read,
    position?_natCast (by omega : t.rhsCol < t.cells.width)]
  congr 1
  rw [position?, if_neg (by omega), if_pos (by omega), hw]
  congr 1
  omega

def tabulate (n : Nat) (u : Int → α) : List α := (List.range n).map fun k : Nat => u (k + 1)

omit [Cell α] in
theorem map_varRange (n : Nat) (u : Int → α) : (varRange 1 n).map u = tabulate n u := by
  rw [varRange, List.map_map, tabulate]
  refine List.map_congr_left fun k _ => ?_
  rw [Function.comp_apply]
  congr 1
  omega

omit [Cell α] in
theorem set_tabulate {n : Nat} {a : Int} (ha : 1 ≤ a) (u : Int → α) (value : α) :
    (tabulate n u).set (a - 1).toNat value = tabulate n (Function.update u a value) := by
  apply List.ext_getElem (by simp [tabulate])
  intro k hk hk'
  by_cases hka : (k : Int) + 1 = a
  · have : (a - 1).toNat = k := by omega
    simp [tabulate, hka, this]
  · have : (a - 1).toNat ≠ k := by omega
    rw [List.getElem_set_ne this]
    simp [tabulate, hka]

/-- Inside the grid and for variables from one on, storing a value does not fail. -/
theorem store_eq (t : Tableau α) {n i : Nat} {a : Int} (ha : 1 ≤ a) (hi : i < t.cells.height)
    {x : List α} (hx : x.length = n) :
    t.store n x (a, i) =
      .ok (if a ≤ n then x.set (a - 1).toNat (t.cells.cell i t.rhsCol) else x) := by
  by_cases han : a ≤ n
  · have hpos : position? (a - 1) n = some (a - 1).toNat := by
      rw [position?, if_pos (by omega), if_pos (by omega)]
    simp only [store, han, if_true, t.read_rhs hi, hx, hpos, bind, Except.bind, pure, Except.pure]
  · simp only [store, han, if_false, pure, Except.pure]

theorem store_tabulate (t : Tableau α) {n i : Nat} {a : Int} (ha : 1 ≤ a)
    (hi : i < t.cells.height) (u : Int → α) :
    t.store n (tabulate n u) (a, i) =
      .ok (tabulate n (Function.update u a (t.cells.cell i t.rhsCol))) := by
  rw [t.store_eq ha hi (by simp [tabulate] : (tabulate n u).length = n)]
  congr 1
  split
  · exact set_tabulate ha u _
  · apply List.map_congr_left
    intro k hk
    rw [List.mem_range] at hk
    rw [Function.update_of_ne (by omega)]

theorem foldlM_store (t : Tableau α) {n : Nat} (l : List Int) (s : Nat) (u : Int → α)
    (hl : ∀ a ∈ l, 1 ≤ a) (hs : s + l.length ≤ t.cells.height) :
    (l.zipIdx s).foldlM (t.store n) (tabulate n u) =
      .ok (tabulate n ((l.zipIdx s).foldl
        (fun u e => Function.update u e.1 (t.cells.cell e.2 t.rhsCol)) u)) := by
  induction l generalizing s u with
  | nil => rfl
  | cons a l ih =>
    rw [List.length_cons] at hs
    rw [List.zipIdx_cons, List.foldlM_cons, t.store_tabulate (hl a (by simp)) (by omega),
      List.foldl_cons, ← ih (s + 1) _ (fun b hb => hl b (List.mem_cons_of_mem a hb)) (by omega)]
    rfl

def writes (t : Tableau α) (n : Nat) : List (Int × α) :=
  (t.basis.zipIdx.filter (·.1 ≤ (n : Int))).map fun e => (e.1 - 1, t.cells.cell e.2 t.rhsCol)

theorem foldlM_store_writes (t : Tableau α) {n : Nat} {entries : List (Int × Nat)} {x : List α}
    (hx : x.length = n) (h : ∀ e ∈ entries, 1 ≤ e.1 ∧ e.2 < t.cells.height) :
    entries.foldlM (t.store n) x =
      .ok ((entries.filter (·.1 ≤ (n : Int))).foldl
        (fun x e => x.set (e.1 - 1).toNat (t.cells.cell e.2 t.rhsCol)) x) := by
  induction entries generalizing x with
  | nil => rfl
  | cons e entries ih =>
    obtain ⟨ha, hi⟩ := h e List.mem_cons_self
    have hrest : ∀ e ∈ entries, 1 ≤ e.1 ∧ e.2 < t.cells.height :=
      fun e he => h e (List.mem_cons_of_mem _ he)
    rw [List.foldlM_cons, t.store_eq ha hi hx, List.filter_cons]
    by_cases hn : e.1 ≤ (n : Int)
    · simp only [hn, if_true, decide_true, List.foldl_cons]
      exact ih (by rw [List.length_set, hx]) hrest
    · simp only [hn, if_false, decide_false, Bool.false_eq_true]
      exact ih hx hrest

/-- Reading a solution off writes these slots and no other. -/
theorem solution_eq_writes (t : Tableau α) (hm : t.constraintRows ≤ t.cells.height)
    (hb : ∀ k ∈ t.basis, 1 ≤ k) (n : Nat) :
    t.solution n =
      .ok ((t.writes n).foldl (fun x w => x.set w.1.toNat w.2) (List.replicate n 0)) := by
  rw [solution_eq_foldlM, t.foldlM_store_writes List.length_replicate, writes, List.foldl_map]
  intro e he
  obtain ⟨hi, hvar⟩ := List.mem_zipIdx' he
  exact ⟨hb _ (hvar ▸ List.getElem_mem hi), hi.trans_le hm⟩

theorem map_fst_writes (t : Tableau α) (n : Nat) :
    (t.writes n).map Prod.fst = (t.basis.filter (· ≤ (n : Int))).map (· - 1) := by
  have hbasis : t.basis = t.basis.zipIdx.map Prod.fst := by simp
  rw [writes, List.map_map]
  conv_rhs => rw [hbasis, List.filter_map, List.map_map]
  rfl

omit [Cell α] in
theorem foldl_update {l : List Int} (hn : l.Nodup) (s : Nat) (value : Nat → α) (u : Int → α)
    (k : Int) :
    (l.zipIdx s).foldl (fun u e => Function.update u e.1 (value e.2)) u k =
      match l.idxOf? k with
      | some i => value (s + i)
      | none => u k := by
  induction l generalizing s u with
  | nil => rfl
  | cons a l ih =>
    obtain ⟨ha, hn⟩ := List.nodup_cons.1 hn
    rw [List.zipIdx_cons, List.foldl_cons, ih hn]
    by_cases hak : a = k
    · subst hak
      simp [List.idxOf?_eq_none_iff.2 ha, List.idxOf?_cons]
    · rw [List.idxOf?_cons, if_neg (by simpa using hak), Function.update_of_ne (Ne.symm hak)]
      cases l.idxOf? k with
      | none => rfl
      | some i => simp [Nat.add_assoc, Nat.add_comm 1]

theorem solution_eq (t : Tableau α) (hm : t.constraintRows ≤ t.cells.height)
    (hn : t.basis.Nodup) (hb : ∀ k ∈ t.basis, 1 ≤ k) (n : Nat) :
    t.solution n = .ok (tabulate n t.basicValue) := by
  have hzero : List.replicate n (0 : α) = tabulate n fun _ => 0 := by simp [tabulate]
  rw [solution_eq_foldlM, hzero, t.foldlM_store t.basis 0 _ hb (by rw [Nat.zero_add]; exact hm)]
  congr 1
  apply List.map_congr_left
  intro k _
  rw [foldl_update hn 0 fun i => t.cells.cell i t.rhsCol, basicValue]
  simp only [Nat.zero_add]

end Tableau

end TwoPhase
