import TwoPhase.Folder
import TwoPhase.Solver.Outcome

/-!
Plots of a run: one figure for each phase that made a pivot, its objective after every pivot.
Without pivots there is no figure and no folder. How a figure is drawn is a parameter.
-/
namespace TwoPhase

namespace Plots

def phases : List Nat := [1, 2]

def fileName (phase : Nat) : String := s!"phase{phase}_objective.png"

def points {α : Type} (phase : Nat) (steps : List (Step α)) : List (Nat × α) :=
  (steps.filter (·.phase = phase)).map fun s => (s.iteration, s.objective)

abbrev Drawing (α : Type) := Nat → List (Nat × α) → ByteArray

def figures {α : Type} (draw : Drawing α) (steps : List (Step α)) : List (String × ByteArray) :=
  (phases.filter fun phase => !(points phase steps).isEmpty).map fun phase =>
    (fileName phase, draw phase (points phase steps))

variable {m : Type → Type} [Monad m] [FileAccess m]

def saveAll (folder : Path) : List (String × ByteArray) → m (Except FileFault (List Path))
  | [] => return .ok []
  | (name, content) :: rest => do
    let path := folder.join (Path.ofString name)
    match ← (FileAccess.write path content : m (Except FileFault Unit)) with
    | .error fault => return .error fault
    | .ok () => return (← saveAll folder rest).map (path :: ·)

def save {α : Type} (draw : Drawing α) (folder : Path) (steps : List (Step α)) :
    m (Except FileFault (List Path)) := do
  if steps.isEmpty then return .ok []
  else
    match ← (FileAccess.makeFolders folder : m (Except FileFault Unit)) with
    | .error fault => return .error fault
    | .ok () => saveAll folder (figures draw steps)

end Plots

end TwoPhase
