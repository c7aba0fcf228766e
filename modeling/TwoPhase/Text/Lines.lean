/-!
Lines of text. A line ends with a line feed, a carriage return, or both in this order.
-/
namespace TwoPhase

namespace Text

def unifyLineEnds : List Char → List Char
  | [] => []
  | '\r' :: '\n' :: cs => '\n' :: unifyLineEnds cs
  | '\r' :: cs => '\n' :: unifyLineEnds cs
  | c :: cs => c :: unifyLineEnds cs

/-- The pieces between line feeds; a text that ends with one has an empty last piece. -/
def splitLines : List Char → List (List Char)
  | [] => [[]]
  | '\n' :: cs => [] :: splitLines cs
  | c :: cs =>
    match splitLines cs with
    | [] => [[c]]
    | line :: rest => (c :: line) :: rest

def lines (s : String) : List (List Char) := splitLines (unifyLineEnds s.toList)

end Text

end TwoPhase
