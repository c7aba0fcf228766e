import TwoPhase.Tableau

/-!
A tableau as a text table: one column for each nonbasic variable and the right-hand side, rows
labelled by their variable, then the objective rows. How a cell is written and how the texts are
laid out are parameters.
-/
namespace TwoPhase

structure Renderer (α : Type) where
  cellText : α → String
  /-- A header and the rows under it as one text. -/
  layout : List String → List (List String) → String

namespace Tableau

variable {α : Type}

def varLabel (var : Int) : String := "x" ++ toString var

def objectiveLabels (phase : Int) : List String :=
  if phase = 1 then ["(H)", "(P)"] else ["(P)"]

/-- The table of a tableau, the pivot cell in brackets. A label without a row is a fault. -/
def table (renderer : Renderer α) (t : Tableau α) (phase iteration : Int)
    (pivot : Option (Int × Int)) : Except TableauFault String := do
  let labels := t.basis.map varLabel ++ objectiveLabels phase
  let header := s!"P{phase}:{iteration}" :: t.nonbasis.map varLabel ++ ["RHS"]
  let rows ← labels.zipIdx.mapM fun (label, i) => do
    let cells ← (List.range t.cells.width).mapM fun j : Nat => t.cells.read i j
    let texts := cells.map renderer.cellText
    match pivot with
    | some (row, col) =>
      if row = i then
        match position? col texts.length with
        | some j => return label :: texts.set j ("[" ++ texts[j]?.getD "" ++ "]")
        | none => .error .outOfRange
      else return label :: texts
    | none => return label :: texts
  return renderer.layout header rows

end Tableau

end TwoPhase
