import TwoPhase.Proofs.Representation

/-!
Every tableau states the program, over the rationals and whatever cells the pivots were made at.
Its rows are the equations of a point, its slacks and its artificial values, with the sum of the
artificial values in the helper row and the price in the last row. After a compaction the rows are
those of the points without artificial values. Neither the rule of selection nor the sign of a
right-hand side matters.
-/
namespace TwoPhase

open Finset Tableau

def valuation (values : List Rat) (k : Int) : Rat := values[(k - 1).toNat]?.getD 0

section Valuation

variable {x y : List Rat}

theorem tabulate_valuation (x y : List Rat) : tabulate x.length (valuation (x ++ y)) = x := by
  apply List.ext_getElem (by simp [tabulate])
  intro j hj hj'
  simp [tabulate, valuation, List.getElem?_append_left hj', hj']

theorem valuation_append_right {k : Int} {i : Nat} (hk : k = x.length + 1 + i) :
    valuation (x ++ y) k = y[i]?.getD 0 := by
  have hindex : (k - 1).toNat = x.length + i := by omega
  rw [valuation, hindex, List.getElem?_append_right (Nat.le_add_right _ _),
    Nat.add_sub_cancel_left]

/-- Variables beyond the list are zero, so zeros at its end make no difference. -/
theorem valuation_append_zeros (x : List Rat) (n : Nat) :
    valuation (x ++ List.replicate n 0) = valuation x := by
  funext k
  rw [valuation, valuation]
  by_cases hk : (k - 1).toNat < x.length
  · rw [List.getElem?_append_left hk]
  · rw [List.getElem?_append_right (not_lt.1 hk), List.getElem?_eq_none (not_lt.1 hk),
      List.getElem?_replicate]
    split <;> rfl

theorem valuation_of_lt {k : Int} (hk : x.length < k) : valuation x k = 0 := by
  have hindex : x.length ≤ (k - 1).toNat := by omega
  rw [valuation, List.getElem?_eq_none hindex]
  rfl

end Valuation

/-- A point with its slacks, its artificial values, the sum of these, and its price. -/
structure LinearProgram.Solves (p : LinearProgram Rat) (x s a : List Rat) (w z : Rat) : Prop where
  upper : List.zipWith (· + ·) (p.upper.image x) s = p.upper.rhs
  equal : List.zipWith (· + ·) (p.equal.image x) a = p.equal.rhs
  helper : w = a.sum
  price : z = p.price x

theorem Block.zipWith_image_iff {n : Nat} (b : Block Rat n) (x : List Rat) {s : List Rat}
    (hs : s.length = b.matrix.height) :
    List.zipWith (· + ·) (b.image x) s = b.rhs ↔
      ∀ i < b.matrix.height, s[i]?.getD 0 = b.rhs[i]?.getD 0 - b.dot x i := by
  have hlen := b.length_rhs
  constructor
  · intro h i hi
    rw [← h]
    simp [image, hi, hs]
  · intro h
    apply List.ext_getElem (by simp [image, hlen, hs])
    intro i hi hi'
    have hi'' : i < b.matrix.height := by omega
    have hrow := h i hi''
    simp only [hs, hi'', hi', List.getElem?_eq_getElem, Option.getD_some] at hrow
    simp [image, hrow]

namespace Tableau

variable {t t' : Tableau Rat} {v : Int → Rat} {w : Rat} {i : Nat}

def Equation (t : Tableau Rat) (v : Int → Rat) (i : Nat) (w : Rat) : Prop :=
  w + ∑ j ∈ range t.rhsCol, t.cells.cell i j * v (t.colVar j) = t.cells.cell i t.rhsCol

theorem equation_iff : t.Equation v i w ↔ w = t.rowValue v i := by
  rw [Equation, rowValue, eq_sub_iff_add_eq]

theorem forall_equation_iff :
    (∀ i < t.constraintRows, t.Equation v i (v (t.rowVar i))) ↔ t.Holds v :=
  forall₂_congr fun _ _ => equation_iff

/-- Tableaus of one system have the same equations in an objective row, given those of the
constraint rows. -/
theorem SameSystem.equation_iff (h : SameSystem t t') (hv : t.Holds v)
    (hi : t.constraintRows ≤ i) (hi' : i < t.cells.height) :
    t'.Equation v i w ↔ t.Equation v i w := by
  rw [Tableau.equation_iff, Tableau.equation_iff, h.rowValue v hv i hi hi']

end Tableau

variable {p : LinearProgram Rat} {t t' : Tableau Rat} {x s a : List Rat} {w z : Rat}

/-- The first tableau states the program. -/
theorem solves_iff_phaseOne (hx : x.length = p.numCosts) (hs : s.length = p.inequalityRows)
    (ha : a.length = p.equalityRows) :
    p.Solves x s a w z ↔
      (phaseOne p).Holds (valuation (x ++ s ++ a)) ∧
        (phaseOne p).Equation (valuation (x ++ s ++ a)) p.constraintRows w ∧
        (phaseOne p).Equation (valuation (x ++ s ++ a)) (p.constraintRows + 1) z := by
  set v := valuation (x ++ s ++ a) with hv
  have hpoint : tabulate p.numCosts v = x := by
    rw [← hx, hv, List.append_assoc, tabulate_valuation]
  have hslack (i : Nat) (hi : i < p.inequalityRows) :
      v (p.numCosts + 1 + i) = s[i]?.getD 0 := by
    rw [hv, List.append_assoc, valuation_append_right (i := i) (by omega),
      List.getElem?_append_left (by omega)]
  have hartificial (i : Nat) : v (p.threshold + 1 + i) = a[i]?.getD 0 := by
    refine valuation_append_right ?_
    rw [List.length_append, hx, hs, LinearProgram.threshold]
  have hsum : ∑ k ∈ range p.equalityRows, v (p.threshold + 1 + k) = a.sum := by
    rw [sum_congr rfl fun k _ => hartificial k, ← ha, sum_range_getD a 0 fun q => q, List.map_id']
  have hholds : (phaseOne p).Holds v ↔
      List.zipWith (· + ·) (p.upper.image x) s = p.upper.rhs ∧
        List.zipWith (· + ·) (p.equal.image x) a = p.equal.rhs := by
    rw [holds_phaseOne_iff, p.upper.zipWith_image_iff x hs, p.equal.zipWith_image_iff x ha, hpoint]
    refine and_congr (forall₂_congr fun i hi => ?_) (forall₂_congr fun i _ => ?_)
    · rw [hslack i hi]
    · rw [hartificial i]
  rw [equation_iff, equation_iff, rowValue_phaseOne_cost, hpoint]
  constructor
  · intro h
    have hv := hholds.2 ⟨h.upper, h.equal⟩
    exact ⟨hv, by rw [helper_eq hv, hsum, h.helper], h.price⟩
  · rintro ⟨hv, hw, hz⟩
    obtain ⟨hupper, hequal⟩ := hholds.1 hv
    exact ⟨hupper, hequal, by rw [hw, helper_eq hv, hsum], hz⟩

theorem solves_iff_exchanges (h : Exchanges (phaseOne p) t) (hx : x.length = p.numCosts)
    (hs : s.length = p.inequalityRows) (ha : a.length = p.equalityRows) :
    p.Solves x s a w z ↔
      t.Holds (valuation (x ++ s ++ a)) ∧
        t.Equation (valuation (x ++ s ++ a)) p.constraintRows w ∧
        t.Equation (valuation (x ++ s ++ a)) (p.constraintRows + 1) z := by
  have hsystem := phaseOne_sameSystem h
  rw [solves_iff_phaseOne hx hs ha, hsystem.holds]
  refine and_congr_right fun hv => ?_
  rw [hsystem.equation_iff hv (by simp) (by simp), hsystem.equation_iff hv (by simp) (by simp)]

theorem solves_iff_compact (hfirst : Exchanges (phaseOne p) t)
    (hsecond : Exchanges (t.compact p.threshold) t') (hx : x.length = p.numCosts)
    (hs : s.length = p.inequalityRows) :
    p.Solves x s (List.replicate p.equalityRows 0) 0 z ↔
      t'.Holds (valuation (x ++ s)) ∧ t'.Equation (valuation (x ++ s)) t'.constraintRows z := by
  have hzero : ∀ k : Int, p.threshold < k → valuation (x ++ s) k = 0 := by
    intro k hk
    refine valuation_of_lt ?_
    rw [List.length_append, hx, hs]
    exact hk
  have hpoint : tabulate p.numCosts (valuation (x ++ s)) = x := by
    rw [← hx, tabulate_valuation]
  rw [solves_iff_phaseOne hx hs List.length_replicate, valuation_append_zeros,
    compact_holds hfirst hsecond hzero]
  refine and_congr_right fun hv => ?_
  rw [equation_iff, equation_iff, equation_iff, rowValue_phaseOne_cost,
    compact_price hfirst hsecond hzero hv, helper_eq hv,
    sum_eq_zero fun k _ => hzero _ (by omega)]
  exact and_iff_right rfl

/-- The rows of a tableau that pivots reach hold exactly for the points of the program with their
slacks and artificial values, the sum of these and the price. If no artificial variable is basic,
the tableau can be compacted, and the rows that further pivots reach hold exactly for the points
with their slacks and prices whose artificial values are zero. -/
theorem rows_iff_solves (p : LinearProgram Rat) {t : Tableau Rat} (h : Pivots (phaseOne p) t) :
    (t.labels.Perm (varRange 1 p.numVariables) ∧
      ∀ x s a : List Rat, x.length = p.numCosts → s.length = p.inequalityRows →
        a.length = p.equalityRows → ∀ w z : Rat,
          (p.Solves x s a w z ↔
            (∀ i < t.constraintRows, t.Equation (valuation (x ++ s ++ a)) i
              (valuation (x ++ s ++ a) (t.rowVar i))) ∧
            t.Equation (valuation (x ++ s ++ a)) t.constraintRows w ∧
            t.Equation (valuation (x ++ s ++ a)) (t.cells.height - 1) z)) ∧
      ((∀ k ∈ t.basis, k ≤ (p.threshold : Int)) →
        ∃ t', t.dropColumnsAbove p.threshold = .ok t' ∧ ∀ t'', Pivots t' t'' →
          t''.labels.Perm (varRange 1 p.threshold) ∧
          ∀ x s : List Rat, x.length = p.numCosts → s.length = p.inequalityRows → ∀ z : Rat,
            (p.Solves x s (List.replicate p.equalityRows 0) 0 z ↔
              (∀ i < t''.constraintRows, t''.Equation (valuation (x ++ s)) i
                (valuation (x ++ s) (t''.rowVar i))) ∧
              t''.Equation (valuation (x ++ s)) (t''.cells.height - 1) z)) := by
  have hfirst := h.exchanges (by simp)
  have hrows := exchanges_constraintRows hfirst
  have hheight := exchanges_height hfirst
  have hlabels := exchanges_labels_perm hfirst
  refine ⟨⟨hlabels, fun x s a hx hs ha w z => ?_⟩, fun hbasis => ?_⟩
  · rw [forall_equation_iff, hrows, show t.cells.height - 1 = p.constraintRows + 1 by omega]
    exact solves_iff_exchanges hfirst hx hs ha
  · refine ⟨_, dropColumnsAbove_eq t _ (by omega), fun t'' h' => ?_⟩
    have hsecond := h'.exchanges (by simp)
    have hlast : t''.cells.height - 1 = t''.constraintRows := by
      rw [hsecond.height, hsecond.constraintRows]
      simp
    refine ⟨hsecond.labels_perm.trans (labels_compact_perm hlabels hbasis), ?_⟩
    intro x s hx hs z
    rw [forall_equation_iff, hlast]
    exact solves_iff_compact hfirst hsecond hx hs

/-- A pivot that makes the artificial variable leave, and the rows at a feasible point. -/
theorem rows_of_feasible_point :
    let p := LinearProgram.ofRows 1 [2] [([1, 1], 3)] [([1, -1], 1)]
    let t := ((phaseOne p).pivot 1 0).1
    Pivots (phaseOne p) t ∧ t.basis = [3, 1] ∧
      t.Equation (valuation [2, 1, 0, 0]) (t.cells.height - 1) 4 ∧
      ∃ t', t.dropColumnsAbove p.threshold = .ok t' ∧
        t'.Equation (valuation [2, 1, 0]) (t'.cells.height - 1) 4 := by
  intro p t
  have hpivot : Pivots (phaseOne p) t := by
    refine .single ⟨1, 0, ⟨?_, ?_, ?_⟩, rfl⟩
    · decide +kernel
    · decide +kernel
    · decide +kernel
  have hbasis : t.basis = [3, 1] := by decide +kernel
  have hsolves : p.Solves [2, 1] [0] [0] 0 4 :=
    ⟨by decide +kernel, by decide +kernel, by decide +kernel, by decide +kernel⟩
  obtain ⟨⟨-, hrows⟩, hcompact⟩ := rows_iff_solves p hpivot
  obtain ⟨t', hdrop, hrows'⟩ := hcompact (by decide +kernel)
  have h := (hrows [2, 1] [0] [0] rfl rfl rfl 0 4).1 hsolves
  have h' := ((hrows' t' .refl).2 [2, 1] [0] rfl rfl 4).1 hsolves
  exact ⟨hpivot, hbasis, h.2.2, t', hdrop, h'.2⟩

end TwoPhase
