/-!
Slash-separated paths. Empty components and single dots are dropped, double dots are kept.
-/
namespace TwoPhase

structure Path where
  absolute : Bool
  parts : List String
  deriving DecidableEq, Repr

namespace Path

def splitSlash : List Char → List (List Char)
  | [] => [[]]
  | '/' :: cs => [] :: splitSlash cs
  | c :: cs =>
    match splitSlash cs with
    | [] => [[c]]
    | part :: rest => (c :: part) :: rest

def ofString (s : String) : Path where
  absolute := s.toList.head? = some '/'
  parts := ((splitSlash s.toList).map String.ofList).filter fun part => part ≠ "" ∧ part ≠ "."

def toString (p : Path) : String :=
  let body := "/".intercalate p.parts
  if p.absolute then "/" ++ body else if p.parts.isEmpty then "." else body

def join (base p : Path) : Path :=
  if p.absolute then p else { base with parts := base.parts ++ p.parts }

def parent (p : Path) : Path := { p with parts := p.parts.dropLast }

/-- The last component from its last dot on. A dot at either end of it starts no suffix. -/
def suffix (p : Path) : String :=
  let name := (p.parts.getLast?.getD "").toList
  let tail := (name.reverse.takeWhile (· ≠ '.')).reverse
  if tail.isEmpty || name.length ≤ tail.length + 1 then ""
  else String.ofList ('.' :: tail)

/-- The path without double dots: each takes back the component in front of it. -/
def normal (p : Path) : Path :=
  { p with
    parts := (p.parts.foldl (fun done part => if part = ".." then done.drop 1 else part :: done)
      []).reverse }

end Path

end TwoPhase
