import TwoPhase.Problem.Fields
import TwoPhase.Proofs.Loops
import TwoPhase.Proofs.MatrixForms

/-!
Which arrays make a linear program. The costs are a vector or a single column and not empty; of each
block the matrix has as many columns as there are costs, or no rows, and the right-hand side has an
entry for each row. All other arrays are refused. What is accepted is kept entry by entry, and the
arrays of a program make the same program again. Nothing is assumed of the entries, of the sizes or
of the number of dimensions.
-/
namespace TwoPhase

variable {α : Type}

namespace Tensor

def IsColumn (t : Tensor α) (m : Nat) : Prop := t.shape = [m] ∨ t.shape = [m, 1]

def given (t : Option (Tensor α)) : List α := t.elim [] fun t => t.entries.toList

structure Holds (t : Tensor α) (shape : List Nat) (entries : List α) : Prop where
  shape_eq : t.shape = shape
  entries_eq : t.entries.toList = entries

theorem IsColumn.length_entries {t : Tensor α} {m : Nat} (h : t.IsColumn m) :
    t.entries.toList.length = m := by
  rw [Array.length_toList, t.size_entries]
  rcases h with h | h <;> simp [h]

theorem given_eq_nil {t : Tensor α} (h : t.shape.foldr (· * ·) 1 = 0) : given (some t) = [] :=
  List.eq_nil_of_length_eq_zero ((Array.length_toList ..).trans (t.size_entries.trans h))

theorem entries_ofMatrix_ofFn [Zero α] {t : Tensor α} {m n : Nat} (ht : t.shape = [m, n]) :
    (ofMatrix ((Grid.ofFn m n fun i j => t.entries[i * n + j]?.getD 0).matrix m n)).entries =
      t.entries := by
  have hsize : t.entries.size = m * n := by rw [t.size_entries, ht]; simp
  refine Array.ext (by simp [ofMatrix, hsize]) fun k hk hk' => ?_
  have hk'' : k < m * n := hsize ▸ hk'
  have hi : k / n < m := Nat.div_lt_of_lt_mul (by rwa [Nat.mul_comm])
  have hj : k % n < n := Nat.mod_lt k (Nat.pos_of_ne_zero fun hn => by simp [hn] at hk'')
  have hcell : (Grid.ofFn m n fun i j => t.entries[i * n + j]?.getD 0).cell (k / n) (k % n) =
      t.entries[k] := by
    rw [Grid.cell_ofFn _ _ _ hi hj, Nat.div_add_mod', Array.getElem?_eq_getElem hk',
      Option.getD_some]
  simpa [ofMatrix, Grid.matrix_apply] using hcell

end Tensor

open Tensor (given)

namespace Block

variable {n m : Nat} {kind : BlockKind} {a b : Option (Tensor α)}

/-- The arrays that stand for `m` rows of `n` coefficients. -/
inductive MatrixFits (n : Nat) : Nat → Option (Tensor α) → Prop
  | absent : MatrixFits n 0 none
  | empty {a : Tensor α} (h : a.shape = [0]) : MatrixFits n 0 (some a)
  | noRows {a : Tensor α} (w : Nat) (h : a.shape = [0, w]) : MatrixFits n 0 (some a)
  | rows {a : Tensor α} {m : Nat} (h : a.shape = [m, n]) : MatrixFits n m (some a)

inductive RhsFits : Nat → Option (Tensor α) → Prop
  | absent : RhsFits 0 none
  | column {b : Tensor α} {m : Nat} (h : b.IsColumn m) : RhsFits m (some b)

structure Fits (n m : Nat) (a b : Option (Tensor α)) : Prop where
  matrix : MatrixFits n m a
  rhs : RhsFits m b

section Zero

variable [Zero α]

def matrixArray (block : Block α n) : Tensor α :=
  .ofMatrix (block.matrix.matrix block.matrix.height n)

def rhsArray (block : Block α n) : Tensor α := .ofList block.rhs

theorem matrixOfTensor_of_shape (kind : BlockKind) {t : Tensor α} (ht : t.shape = [m, n])
    (hm : m ≠ 0) : matrixOfTensor kind n (some t) =
      .ok ⟨Grid.ofFn m n fun i j => t.entries[i * n + j]?.getD 0, rfl⟩ := by
  simp [matrixOfTensor, ht, hm]

theorem exists_matrixOfTensor (kind : BlockKind) (h : MatrixFits n m a) :
    ∃ g, matrixOfTensor kind n a = .ok g ∧ g.1.height = m ∧
      (Tensor.ofMatrix (g.1.matrix m n)).entries.toList = given a := by
  have hempty {a : Option (Tensor α)} (ha : given a = [])
      (hg : matrixOfTensor kind n a = .ok ⟨Grid.ofFn 0 n fun _ _ => 0, rfl⟩) :
      ∃ g, matrixOfTensor kind n a = .ok g ∧ g.1.height = 0 ∧
        (Tensor.ofMatrix (g.1.matrix 0 n)).entries.toList = given a :=
    ⟨_, hg, Grid.height_ofFn .., by simp [Tensor.ofMatrix, ha]⟩
  cases h with
  | absent => exact hempty rfl rfl
  | empty ht => exact hempty (Tensor.given_eq_nil (by simp [ht])) (by simp [matrixOfTensor, ht])
  | noRows w ht => exact hempty (Tensor.given_eq_nil (by simp [ht])) (by simp [matrixOfTensor, ht])
  | @rows t m ht =>
    by_cases hm : m = 0
    · subst hm
      exact hempty (Tensor.given_eq_nil (by simp [ht])) (by simp [matrixOfTensor, ht])
    · exact ⟨_, matrixOfTensor_of_shape kind ht hm, Grid.height_ofFn ..,
        congrArg Array.toList (Tensor.entries_ofMatrix_ofFn ht)⟩

theorem matrixFits_of_ok {g : { g : Grid α // g.width = n }}
    (h : matrixOfTensor kind n a = .ok g) : MatrixFits n g.1.height a := by
  have hfits {m : Nat} {f : Nat → Nat → α} (hm : MatrixFits n m a) :
      MatrixFits n (Grid.ofFn m n f).height a := (Grid.height_ofFn m n f).symm ▸ hm
  cases a with
  | none =>
    obtain rfl := Except.ok.inj h
    exact hfits .absent
  | some t =>
    rw [matrixOfTensor] at h
    split at h
    case h_1 ht =>
      obtain rfl := Except.ok.inj h
      exact hfits (.empty ht)
    case h_2 m w ht =>
      split at h
      case isTrue hm =>
        obtain rfl := Except.ok.inj h
        exact hfits (.noRows w (hm ▸ ht))
      case isFalse hm =>
        split at h
        case isTrue hw =>
          obtain rfl := Except.ok.inj h
          exact hfits (.rows (hw ▸ ht))
        case isFalse => cases h
    case h_3 => cases h

omit [Zero α] in
theorem exists_rhsOfTensor (kind : BlockKind) (h : RhsFits m b) :
    ∃ xs, rhsOfTensor kind m b = .ok xs ∧ xs.1 = given b := by
  cases h with
  | absent => exact ⟨⟨[], rfl⟩, rfl, rfl⟩
  | @column t m h =>
    have hlength := h.length_entries
    refine ⟨⟨t.entries.toList, hlength⟩, ?_, rfl⟩
    rcases h with h | h <;> simp only [rhsOfTensor, h, hlength, dif_pos]

omit [Zero α] in
theorem rhsFits_of_ok {xs : { xs : List α // xs.length = m }}
    (h : rhsOfTensor kind m b = .ok xs) : RhsFits m b := by
  cases b with
  | none =>
    rw [rhsOfTensor] at h
    split at h
    case isTrue hm => exact hm ▸ .absent
    case isFalse => cases h
  | some t =>
    rw [rhsOfTensor] at h
    have hcolumn (hlength : t.entries.toList.length = m) {k : Nat} (ht : t.IsColumn k) :
        RhsFits m (some t) := .column (hlength ▸ ht.length_entries.symm ▸ ht)
    split at h
    case h_1 k ht =>
      split at h
      case isTrue hlength => exact hcolumn hlength (.inl ht)
      case isFalse => cases h
    case h_2 k ht =>
      split at h
      case isTrue hlength => exact hcolumn hlength (.inr ht)
      case isFalse => cases h
    case h_3 => cases h

theorem exists_ofTensors (kind : BlockKind) (h : Fits n m a b) :
    ∃ block, ofTensors kind n a b = .ok block ∧ block.matrixArray.Holds [m, n] (given a) ∧
      block.rhsArray.Holds [m] (given b) := by
  obtain ⟨⟨g, hwidth⟩, hg, hheight, hgiven⟩ := exists_matrixOfTensor kind h.matrix
  obtain rfl : g.height = m := hheight
  obtain ⟨⟨xs, hlength⟩, hxs, hentries⟩ := exists_rhsOfTensor kind h.rhs
  refine ⟨⟨g, xs, hwidth, hlength⟩, ?_, ⟨rfl, hgiven⟩, ?_⟩
  · rw [ofTensors, hg]
    simp only [bind, Except.bind, hxs]
    rfl
  · exact ⟨congrArg ([·]) hlength, hentries⟩

theorem fits_of_ofTensors {block : Block α n} (h : ofTensors kind n a b = .ok block) :
    ∃ m, Fits n m a b := by
  obtain ⟨g, hg, h⟩ := bind_eq_ok.1 h
  obtain ⟨xs, hxs, -⟩ := bind_eq_ok.1 h
  exact ⟨g.1.height, matrixFits_of_ok hg, rhsFits_of_ok hxs⟩

theorem ofTensors_arrays (kind : BlockKind) (block : Block α n) :
    ofTensors kind n (some block.matrixArray) (some block.rhsArray) = .ok block := by
  obtain ⟨g, xs, hwidth, hlength⟩ := block
  have hg : matrixOfTensor kind n (some (Tensor.ofMatrix (g.matrix g.height n))) =
      .ok ⟨g, hwidth⟩ := by
    subst hwidth
    by_cases hzero : g.height = 0
    · have hsame : (Grid.ofFn 0 g.width fun _ _ => 0) = g :=
        Grid.ext_cell ((Grid.height_ofFn ..).trans hzero.symm) rfl (by simp)
      simp [matrixOfTensor, Tensor.ofMatrix, hzero, hsame]
    · have hsame : (Grid.ofFn g.height g.width fun i j =>
          (Tensor.ofMatrix (g.matrix g.height g.width)).entries[i * g.width + j]?.getD 0) = g := by
        refine (Grid.ofFn_congr fun i hi j hj => ?_).trans g.ofFn_cell
        rw [Tensor.getElem?_ofMatrix _ ⟨i, hi⟩ ⟨j, hj⟩]
        rfl
      rw [matrixOfTensor_of_shape kind rfl hzero]
      exact congrArg Except.ok (Subtype.ext hsame)
  have hxs : rhsOfTensor kind g.height (some (Tensor.ofList xs)) = .ok ⟨xs, hlength⟩ :=
    dif_pos hlength
  simp only [ofTensors, matrixArray, rhsArray, hg, bind, Except.bind, hxs]
  rfl

end Zero

end Block

namespace LinearProgram

variable {c : Tensor α} {a b a' b' : Option (Tensor α)} {n m m' : Nat}

theorem exists_costOfTensor (hn : 0 < n) (h : c.IsColumn n) :
    ∃ xs, costOfTensor c = .ok xs ∧ xs.1 = c.entries.toList := by
  have hne : c.entries.toList ≠ [] := by
    rw [← List.length_pos_iff, h.length_entries]
    exact hn
  refine ⟨⟨c.entries.toList, hne⟩, ?_, rfl⟩
  rcases h with h | h <;> simp only [costOfTensor, h, dif_pos hne]

theorem isColumn_of_costOfTensor {xs : { xs : List α // xs ≠ [] }}
    (h : costOfTensor c = .ok xs) : c.IsColumn xs.1.length := by
  have hcolumn {k : Nat} (hc : c.IsColumn k) : c.IsColumn c.entries.toList.length :=
    hc.length_entries.symm ▸ hc
  rw [costOfTensor] at h
  split at h
  case h_1 k hc =>
    split at h
    case isTrue => exact Except.ok.inj h ▸ hcolumn (.inl hc)
    case isFalse => cases h
  case h_2 k hc =>
    split at h
    case isTrue => exact Except.ok.inj h ▸ hcolumn (.inr hc)
    case isFalse => cases h
  case h_3 => cases h

/-- Arrays that fit together: `n` costs, `m` rows of one block and `m'` rows of the other. -/
structure Consistent (c : Tensor α) (a b a' b' : Option (Tensor α)) (n m m' : Nat) : Prop where
  pos : 0 < n
  cost : c.IsColumn n
  upper : Block.Fits n m a b
  equal : Block.Fits n m' a' b'

variable [Zero α]

def costArray (p : LinearProgram α) : Tensor α := .ofList p.cost

/-- A program whose fields have the shapes of `n` costs and of `m` and `m'` rows, and hold the
entries of these arrays. -/
structure Keeps (p : LinearProgram α) (c : Tensor α) (a b a' b' : Option (Tensor α))
    (n m m' : Nat) : Prop where
  cost : p.costArray.Holds [n] c.entries.toList
  upperMatrix : p.upper.matrixArray.Holds [m, n] (given a)
  upperRhs : p.upper.rhsArray.Holds [m] (given b)
  equalMatrix : p.equal.matrixArray.Holds [m', n] (given a')
  equalRhs : p.equal.rhsArray.Holds [m'] (given b')

theorem Consistent.exists_ofTensors (h : Consistent c a b a' b' n m m') (offset : α) :
    ∃ p, ofTensors c a b a' b' offset = .ok p ∧ p.Keeps c a b a' b' n m m' ∧
      p.offset = offset := by
  obtain ⟨⟨cost, hne⟩, hcost, hentries⟩ := exists_costOfTensor h.pos h.cost
  obtain rfl : cost.length = n := (congrArg List.length hentries).trans h.cost.length_entries
  obtain ⟨upper, hupper, hmatrix, hrhs⟩ := Block.exists_ofTensors .inequality h.upper
  obtain ⟨equal, hequal, hmatrix', hrhs'⟩ := Block.exists_ofTensors .equality h.equal
  refine ⟨⟨cost, upper, equal, offset, hne⟩, ?_,
    ⟨⟨rfl, hentries⟩, hmatrix, hrhs, hmatrix', hrhs'⟩, rfl⟩
  simp only [ofTensors, hcost, bind, Except.bind, hupper, hequal]
  rfl

theorem exists_consistent_of_ofTensors {offset : α} {p : LinearProgram α}
    (h : ofTensors c a b a' b' offset = .ok p) : ∃ n m m', Consistent c a b a' b' n m m' := by
  obtain ⟨xs, hcost, h⟩ := bind_eq_ok.1 h
  obtain ⟨upper, hupper, h⟩ := bind_eq_ok.1 h
  obtain ⟨equal, hequal, -⟩ := bind_eq_ok.1 h
  obtain ⟨m, hm⟩ := Block.fits_of_ofTensors hupper
  obtain ⟨m', hm'⟩ := Block.fits_of_ofTensors hequal
  exact ⟨_, m, m', List.length_pos_iff.2 xs.2, isColumn_of_costOfTensor hcost, hm, hm'⟩

theorem ofTensors_arrays (p : LinearProgram α) :
    ofTensors p.costArray (some p.upper.matrixArray) (some p.upper.rhsArray)
      (some p.equal.matrixArray) (some p.equal.rhsArray) p.offset = .ok p := by
  have hcost : costOfTensor p.costArray = .ok ⟨p.cost, p.cost_ne_nil⟩ := dif_pos p.cost_ne_nil
  simp only [ofTensors, hcost, bind, Except.bind, Block.ofTensors_arrays]
  rfl

omit [Zero α] in
/-- Fields that can be read as arrays make the program of these arrays. -/
theorem ofFields_eq_ofTensors {f : ProblemFields} {v : Value} {c : Tensor Float}
    {a b a' b' : Option (Tensor Float)} {offset : Float} (hcost : f.cost = some v)
    (hc : v.floats = .ok c) (ha : ProblemFields.array? f.upperMatrix = .ok a)
    (hb : ProblemFields.array? f.upperRhs = .ok b)
    (ha' : ProblemFields.array? f.equalMatrix = .ok a')
    (hb' : ProblemFields.array? f.equalRhs = .ok b') (hoffset : f.offset.toFloat = .ok offset) :
    ofFields f = (ofTensors c a b a' b' offset).mapError .mismatch := by
  simp only [ofFields, hcost, hc, ProblemFields.block, ha, hb, ha', hb', hoffset, ofTensors, bind,
    Except.bind, Except.mapError, pure, Except.pure]
  cases costOfTensor c with
  | error mismatch => rfl
  | ok cost =>
    simp only
    cases Block.ofTensors .inequality cost.1.length a b with
    | error mismatch => rfl
    | ok upper =>
      simp only
      cases Block.ofTensors .equality cost.1.length a' b' with
      | error mismatch => rfl
      | ok equal => rfl

/-- Arrays make a program exactly if they fit together, and all others are refused as a mismatch.
The fields of the program then have the shapes that fit and hold the given entries in order, and
from these fields the same program is made. -/
theorem ofTensors_accepts_iff (c : Tensor α) (a b a' b' : Option (Tensor α)) (offset : α) :
    ((∃ p, ofTensors c a b a' b' offset = .ok p) ↔ ∃ n m m', Consistent c a b a' b' n m m') ∧
    ((∃ mismatch, ofTensors c a b a' b' offset = .error mismatch) ↔
      ¬∃ n m m', Consistent c a b a' b' n m m') ∧
    ∀ n m m' p, Consistent c a b a' b' n m m' → ofTensors c a b a' b' offset = .ok p →
      p.Keeps c a b a' b' n m m' ∧ p.offset = offset ∧
      ofTensors p.costArray (some p.upper.matrixArray) (some p.upper.rhsArray)
        (some p.equal.matrixArray) (some p.equal.rhsArray) p.offset = .ok p := by
  have hiff : (∃ p, ofTensors c a b a' b' offset = .ok p) ↔
      ∃ n m m', Consistent c a b a' b' n m m' := by
    constructor
    · rintro ⟨p, hp⟩
      exact exists_consistent_of_ofTensors hp
    · rintro ⟨n, m, m', h⟩
      obtain ⟨p, hp, -⟩ := h.exists_ofTensors offset
      exact ⟨p, hp⟩
  refine ⟨hiff, ?_, fun n m m' p h hp => ?_⟩
  · rw [← hiff]
    cases ofTensors c a b a' b' offset with
    | ok p => exact iff_of_false (by rintro ⟨_, ⟨⟩⟩) (not_not.2 ⟨p, rfl⟩)
    | error mismatch => exact iff_of_true ⟨mismatch, rfl⟩ (by rintro ⟨_, ⟨⟩⟩)
  · obtain ⟨p', hp', hkeeps, hoffset⟩ := h.exists_ofTensors offset
    obtain rfl : p = p' := Except.ok.inj (hp.symm.trans hp')
    exact ⟨hkeeps, hoffset, p.ofTensors_arrays⟩

end LinearProgram

end TwoPhase
