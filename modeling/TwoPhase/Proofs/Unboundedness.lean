import TwoPhase.Proofs.Representation

/-!
A column that can enter without a row to leave. Its entries are nonpositive where no right-hand
side is negative, so from the values read off one can go along the column without end and no
variable turns negative. The first phase has no such column, as a sum of artificial variables is
bounded from below; in the second phase the costs fall along the way.
-/
namespace TwoPhase

open Tableau Finset

namespace Tableau

variable {t : Tableau Rat} {c : Nat} {s : Rat}

def ray (t : Tableau Rat) (c : Nat) (s : Rat) : Int → Rat :=
  t.point fun k => if k = t.colVar c then s else 0

theorem rowValue_ray (hn : t.labels.Nodup) (hc : c < t.rhsCol) (s : Rat) (i : Nat) :
    t.rowValue (t.ray c s) i = t.rhs i - t.cells.cell i c * s := by
  rw [ray, rowValue_point hn, rowValue_single hn hc]

/-- A ray starts at the values read off and goes on evenly. -/
theorem ray_eq (hn : t.labels.Nodup) (hc : c < t.rhsCol) (s : Rat) (k : Int) :
    t.ray c s k = t.basicValue k + s * (t.ray c 1 k - t.basicValue k) := by
  rw [ray, ray, point, point, basicValue]
  cases t.basis.idxOf? k with
  | some i =>
    simp only [rowValue_single hn hc, rhs]
    ring
  | none =>
    split_ifs
    · ring
    · ring
    · ring

theorem cell_nonpos (hrhs : ∀ i < t.constraintRows, 0 ≤ t.rhs i)
    (h : t.choice t.constraintRows = some ⟨none, c⟩) {i : Nat} (hi : i < t.constraintRows) :
    t.cells.cell i c ≤ 0 := by
  by_contra hpos
  have hpos := not_le.1 hpos
  have hratio := Grid.ratio_neg_of_leaving_none (choice_eq_some h).2 hi hpos.ne'
  exact absurd (div_nonneg (hrhs i hi) hpos.le) (not_le.2 hratio)

/-- A ray along a column that can enter without a row to leave keeps all variables
nonnegative. -/
theorem ray_nonneg (hn : t.labels.Nodup) (hrhs : ∀ i < t.constraintRows, 0 ≤ t.rhs i)
    (h : t.choice t.constraintRows = some ⟨none, c⟩) (hs : 0 ≤ s) (k : Int) :
    0 ≤ t.ray c s k := by
  have hc := Grid.entering_lt (choice_eq_some h).1
  by_cases hk : k ∈ t.basis
  · obtain ⟨i, hi, rfl⟩ := exists_rowVar hk
    have hcell := mul_nonpos_of_nonpos_of_nonneg (cell_nonpos hrhs h hi) hs
    rw [ray, point_rowVar hn _ hi, rowValue_single hn hc]
    exact sub_nonneg.2 (hcell.trans (hrhs i hi))
  · rw [ray, point, List.idxOf?_eq_none_iff.2 hk]
    split_ifs
    · exact hs
    · exact le_rfl
    · exact le_rfl

end Tableau

/-- The first phase minimises a sum of nonnegative variables, so it is bounded. -/
theorem first_not_unbounded {p : LinearProgram Rat} {t : Tableau Rat}
    (hb : ∀ a ∈ p.upper.rhs, 0 ≤ a) (hb' : ∀ a ∈ p.equal.rhs, 0 ≤ a)
    (h : Reaches (phaseOne p) t) : ¬t.Halted (some .unbounded) := by
  rintro ⟨c, hchoice⟩
  have hn := first_labels_nodup h
  have hrhs : ∀ i < t.constraintRows, 0 ≤ t.rhs i := fun _ => first_rhs_nonneg hb hb' h
  obtain ⟨hentering, -⟩ := choice_eq_some hchoice
  have hcost := Grid.entering_pos hentering
  -- far enough along the ray the sum of the artificial variables would be negative
  have hsum (s : Rat) (hs : 0 ≤ s) :
      0 ≤ t.rhs t.constraintRows - t.cells.cell t.constraintRows c * s := by
    have hholds : (phaseOne p).Holds (t.ray c s) := first_point h _
    rw [← rowValue_ray hn (Grid.entering_lt hentering), first_helper h hholds]
    exact sum_nonneg fun k _ => ray_nonneg hn hrhs hchoice hs _
  have h0 := hsum 0 le_rfl
  rw [mul_zero, sub_zero] at h0
  have hfar := hsum ((t.rhs t.constraintRows + 1) / t.cells.cell t.constraintRows c)
    (div_nonneg (by linarith) hcost.le)
  rw [mul_div_cancel₀ _ hcost.ne'] at hfar
  linarith

theorem tabulate_add_mul (n : Nat) (u w : Int → Rat) (s : Rat) :
    List.zipWith (fun a b => a + s * b) (tabulate n u) (tabulate n w) =
      tabulate n fun k => u k + s * w k := by
  rw [tabulate, tabulate, List.zipWith_map, List.zipWith_self]
  rfl

theorem price_tabulate_sub (p : LinearProgram Rat) (u v : Int → Rat) :
    p.price (tabulate p.numCosts fun k => u k - v k) =
      p.price (tabulate p.numCosts u) - p.price (tabulate p.numCosts v) := by
  rw [LinearProgram.price, LinearProgram.price, LinearProgram.price, ← sum_sub_distrib]
  refine sum_congr rfl fun j hj => ?_
  have hj := mem_range.1 hj
  rw [tabulate_getD _ _ hj, tabulate_getD _ _ hj, tabulate_getD _ _ hj, mul_sub]

section SecondPhase

variable {p : LinearProgram Rat} {t : Tableau Rat} {c : Nat} (h : SecondState p t)
include h

theorem price_ray (hc : c < t.rhsCol) (s : Rat) :
    p.price (tabulate p.numCosts (t.ray c s)) =
      t.rhs t.constraintRows - t.cells.cell t.constraintRows c * s := by
  obtain ⟨hholds, hzero⟩ := second_point h fun k => if k = t.colVar c then s else 0
  rw [← rowValue_ray (second_labels_nodup h) hc]
  exact (second_price h hzero hholds).symm

theorem second_feasible_ray (hb : ∀ a ∈ p.upper.rhs, 0 ≤ a)
    (hchoice : t.choice t.constraintRows = some ⟨none, c⟩) {s : Rat} (hs : 0 ≤ s) :
    p.Feasible (tabulate p.numCosts (t.ray c s)) := by
  obtain ⟨hholds, hzero⟩ := second_point h fun k => if k = t.colVar c then s else 0
  have hrhs : ∀ i < t.constraintRows, 0 ≤ t.rhs i := fun i hi =>
    second_rhs_nonneg hb h (h.constraintRows ▸ hi)
  have hn := second_labels_nodup h
  exact (feasible_tabulate_iff hholds).2
    ⟨fun k _ _ => ray_nonneg hn hrhs hchoice hs k, fun i _ => hzero _ (by omega)⟩

end SecondPhase

namespace Solver

variable {κ : Type} [DecidableEq κ] {setting : Setting Rat κ} {options : Options}
  {p : LinearProgram Rat}

/-- A program with nonnegative right-hand sides is called unbounded only in the second phase, and
then there is a feasible ray along which the cost falls. -/
theorem unbounded_ray (hb : ∀ a ∈ p.upper.rhs, 0 ≤ a) (hb' : ∀ a ∈ p.equal.rhs, 0 ≤ a)
    {phase : Nat} (h : outcome setting options p = .ok (.failed .unbounded phase)) :
    phase = 2 ∧ ∃ x d, p.Feasible x ∧ d.length = p.numCosts ∧
      (∀ s, 0 ≤ s → p.Feasible (List.zipWith (fun a b => a + s * b) x d)) ∧
      p.price d < 0 := by
  rcases unbounded_course h with ⟨-, t, hreach, hhalt⟩ | ⟨rfl, t, hstate, c, hchoice⟩
  · exact absurd hhalt (first_not_unbounded hb hb' hreach)
  obtain ⟨hentering, -⟩ := choice_eq_some hchoice
  have hc := Grid.entering_lt hentering
  have hn := second_labels_nodup hstate
  have hray (s : Rat) : t.ray c s = fun k => t.basicValue k + s * (t.ray c 1 k - t.basicValue k) :=
    funext (ray_eq hn hc s)
  have hstart : t.ray c 0 = t.basicValue := by
    rw [hray 0]
    simp
  refine ⟨rfl, tabulate p.numCosts t.basicValue,
    tabulate p.numCosts fun k => t.ray c 1 k - t.basicValue k, ?_, length_tabulate _ _, ?_, ?_⟩
  · rw [← hstart]
    exact second_feasible_ray hstate hb hchoice le_rfl
  · intro s hs
    rw [tabulate_add_mul, ← hray s]
    exact second_feasible_ray hstate hb hchoice hs
  · rw [price_tabulate_sub, ← hstart, price_ray hstate hc, price_ray hstate hc]
    have hcost := Grid.entering_pos hentering
    linarith

/-- A cost that falls along the diagonal. -/
theorem unbounded_diagonal :
    let p := LinearProgram.ofRows (-1) [0] [([1, -1], 1)] []
    outcome Setting.exact {} p = .ok (.failed .unbounded 2) ∧
      ∃ x d, p.Feasible x ∧
        (∀ s, 0 ≤ s → p.Feasible (List.zipWith (fun a b => a + s * b) x d)) ∧ p.price d < 0 := by
  intro p
  have h : outcome Setting.exact {} p = .ok (.failed .unbounded 2) := by decide +kernel
  obtain ⟨-, x, d, hx, -, hfeas, hprice⟩ :=
    unbounded_ray (by decide +kernel) (by decide +kernel) h
  exact ⟨h, x, d, hx, hfeas, hprice⟩

end Solver

end TwoPhase
