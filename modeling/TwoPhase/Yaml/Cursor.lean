/-!
A place in a YAML text: what is left of it, and the index, line and column reached. The end of
the text counts as a blank. Line ends are single characters here.
-/
namespace TwoPhase

namespace Yaml

inductive Fault where
  | malformed
  | badNumber
  deriving DecidableEq, Repr

def isBreak (c : Char) : Bool :=
  c = '\n' || c = '\x85' || c = '\u2028' || c = '\u2029'

def breakValue (c : Char) : Char := if c = '\x85' then '\n' else c

def startsBlank : List Char → Bool
  | [] => true
  | c :: _ => c = ' ' || c = '\t' || isBreak c

def byteOrderMark : Char := '\uFEFF'

structure Cursor where
  rest : List Char
  index : Nat := 0
  line : Nat := 0
  column : Nat := 0

namespace Cursor

def peek (c : Cursor) : Option Char := c.rest.head?

def advance (c : Cursor) : Cursor :=
  match c.rest with
  | [] => c
  | x :: rest =>
    if isBreak x then { rest, index := c.index + 1, line := c.line + 1, column := 0 }
    else
      let width := if x = byteOrderMark then 0 else 1
      { rest, index := c.index + 1, line := c.line, column := c.column + width }

def skip (c : Cursor) : Nat → Cursor
  | 0 => c
  | n + 1 => c.advance.skip n

def takeWhile (p : Char → Bool) (c : Cursor) : List Char × Cursor :=
  let run := c.rest.takeWhile p
  (run, c.skip run.length)

def atMarker (mark : Char) (c : Cursor) : Bool :=
  c.rest.take 3 = [mark, mark, mark] && startsBlank (c.rest.drop 3)

def atDocumentMarker (c : Cursor) : Bool := c.atMarker '-' || c.atMarker '.'

end Cursor

def isReadable (c : Char) : Bool :=
  let n := c.toNat
  n = 9 || n = 10 || n = 13 || (32 ≤ n && n ≤ 126) || n = 0x85 || (0xA0 ≤ n && n ≤ 0xFFFD) ||
    0x10000 ≤ n

end Yaml

end TwoPhase
