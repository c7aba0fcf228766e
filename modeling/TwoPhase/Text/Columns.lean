import TwoPhase.Text.Padding

/-!
Rows of texts in right-aligned columns under a header.
-/
namespace TwoPhase

namespace Columns

/-- A column is two wider than its header, or as wide as its longest cell. -/
def width (header : String) (cells : List String) : Nat :=
  cells.foldl (fun w s => max w s.length) (header.length + 2)

def line (widths : List Nat) (cells : List String) : String :=
  " " ++ " | ".intercalate (List.zipWith Text.padLeft widths cells)

def rule (widths : List Nat) : String :=
  "+".intercalate (widths.map fun w => String.ofList (List.replicate (w + 2) '-'))

def layout (header : List String) (rows : List (List String)) : String :=
  let widths := header.mapIdx fun j head => width head (rows.map fun r => r[j]?.getD "")
  "\n".intercalate (line widths header :: rule widths :: rows.map (line widths))

end Columns

end TwoPhase
