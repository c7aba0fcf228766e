import TwoPhase.Json.Reader
import TwoPhase.Yaml.Cursor

/-!
The text of scalars. A plain scalar ends before a colon that a blank follows, before a comment
and, inside brackets, before their punctuation; a quoted one at its quote. Line ends fold: one
becomes a space, and of several the first is dropped.
-/
namespace TwoPhase

namespace Yaml

def foldBreaks (first : Char) (more : List Char) : List Char :=
  if first ≠ '\n' then first :: more else if more.isEmpty then [' '] else more

def isFlowMark (c : Char) : Bool :=
  c = ',' || c = '[' || c = ']' || c = '\x7b' || c = '\x7d'

def endsPlain (inFlow : Bool) : List Char → Bool
  | [] => true
  | c :: rest =>
    startsBlank [c] ||
      (c = ':' && (startsBlank rest || (inFlow && rest.head?.any isFlowMark))) ||
      (inFlow && (isFlowMark c || c = '?'))

def plainRun (inFlow : Bool) : List Char → List Char
  | [] => []
  | c :: rest => if endsPlain inFlow (c :: rest) then [] else c :: plainRun inFlow rest

def plainBreaks : Nat → Cursor → Option (List Char) × Cursor
  | 0, c => (some [], c)
  | fuel + 1, c =>
    match c.peek with
    | none => (some [], c)
    | some x =>
      if x = ' ' then plainBreaks fuel c.advance
      else if isBreak x then
        if c.advance.atDocumentMarker then (none, c.advance)
        else
          let (more, c) := plainBreaks fuel c.advance
          (more.map (breakValue x :: ·), c)
      else (some [], c)

def plainSpace (c : Cursor) : List Char × Bool × Cursor :=
  let (spaces, c) := c.takeWhile (· = ' ')
  match c.peek with
  | none => (spaces, false, c)
  | some x =>
    if isBreak x then
      if c.advance.atDocumentMarker then ([], true, c.advance)
      else
        match plainBreaks c.rest.length c.advance with
        | (none, c) => ([], true, c)
        | (some more, c) => (foldBreaks (breakValue x) more, true, c)
    else (spaces, false, c)

/-- A plain scalar, and whether a break stands behind it. Outside brackets its lines have to be
indented to `indent`. -/
def plain (inFlow : Bool) (indent : Int) : Nat → Cursor → List Char × Bool × Cursor
  | 0, c => ([], false, c)
  | fuel + 1, c =>
    let run := plainRun inFlow c.rest
    let (space, broken, after) := plainSpace (c.skip run.length)
    let next := plainRun inFlow after.rest
    if space.isEmpty || after.peek = some '#' || (!inFlow && after.column < indent) ||
        next.isEmpty then
      (run, broken, after)
    else
      let (more, broken, after) := plain inFlow indent fuel after
      (run ++ space ++ more, broken, after)

def escapeLetter? : Char → Option Char
  | '0' => some '\x00'
  | 'a' => some '\x07'
  | 'b' => some '\x08'
  | 't' | '\t' => some '\t'
  | 'n' => some '\n'
  | 'v' => some '\x0b'
  | 'f' => some '\x0c'
  | 'r' => some '\r'
  | 'e' => some '\x1b'
  | ' ' => some ' '
  | '"' => some '"'
  | '\\' => some '\\'
  | '/' => some '/'
  | 'N' => some '\x85'
  | '_' => some '\xa0'
  | 'L' => some '\u2028'
  | 'P' => some '\u2029'
  | _ => none

def escapeDigits? : Char → Option Nat
  | 'x' => some 2
  | 'u' => some 4
  | 'U' => some 8
  | _ => none

def quotedBreaks : Nat → Cursor → Except Fault (List Char × Cursor)
  | 0, c => .ok ([], c)
  | fuel + 1, c =>
    if c.atDocumentMarker then .error .malformed
    else
      let (_, c) := c.takeWhile fun x => x = ' ' || x = '\t'
      match c.peek with
      | none => .ok ([], c)
      | some x =>
        if isBreak x then do
          let (more, c) ← quotedBreaks fuel c.advance
          return (breakValue x :: more, c)
        else .ok ([], c)

def escaped (c : Cursor) : Except Fault (List Char × Cursor) :=
  match c.peek with
  | none => .error .malformed
  | some x =>
    match escapeLetter? x, escapeDigits? x with
    | some y, _ => .ok ([y], c.advance)
    | none, some count =>
      let digits := c.advance.rest.take count
      match digits.mapM Json.hexDigit? with
      | some ds =>
        let code := ds.foldl (fun n d => 16 * n + d) 0
        if digits.length < count then .error .malformed
        else if 0x10FFFF < code then .error .badNumber
        else .ok ([Json.unitChar code], c.advance.skip count)
      | none => .error .malformed
    | none, none => if isBreak x then quotedBreaks c.rest.length c.advance else .error .malformed

def quotedSpace (c : Cursor) : Except Fault (List Char × Cursor) :=
  let (spaces, c) := c.takeWhile fun x => x = ' ' || x = '\t'
  match c.peek with
  | none => .error .malformed
  | some x =>
    if isBreak x then do
      let (more, c) ← quotedBreaks c.rest.length c.advance
      return (foldBreaks (breakValue x) more, c)
    else .ok (spaces, c)

/-- A quoted scalar from behind its opening quote to behind its closing one. A single quote is
doubled in a text in single quotes; escapes count in double quotes alone. -/
def quoted (double : Bool) : Nat → Cursor → Except Fault (List Char × Cursor)
  | 0, _ => .error .malformed
  | fuel + 1, c =>
    let quote := if double then '"' else '\x27'
    match c.rest with
    | [] => .error .malformed
    | x :: rest =>
      let step (part : List Char × Cursor) : Except Fault (List Char × Cursor) := do
        let (more, c) ← quoted double fuel part.2
        return (part.1 ++ more, c)
      if x = quote then
        if !double && rest.head? = some quote then step ([quote], c.skip 2)
        else .ok ([], c.advance)
      else if startsBlank [x] then do step (← quotedSpace c)
      else if double && x = '\\' then do step (← escaped c.advance)
      else step ([x], c.advance)

end Yaml

end TwoPhase
