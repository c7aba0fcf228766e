import TwoPhase.Yaml.Scalar

/-!
Tokens of a YAML text. Block collections open and close by indentation. A scalar or a bracketed
collection may turn out to be a key once a colon follows it; its place is kept until then, for
one line and 1024 characters at most.
-/
namespace TwoPhase

namespace Yaml

inductive Token where
  | documentStart
  | documentEnd
  | blockSequence
  | blockMapping
  | blockEnd
  | flowSequence
  | flowSequenceEnd
  | flowMapping
  | flowMappingEnd
  | entry
  | comma
  | key
  | value
  | scalar (text : String) (plain : Bool)
  deriving DecidableEq, Repr

/-- A place where a key may have begun. A required one has to become a key. -/
structure PossibleKey where
  required : Bool
  token : Nat
  index : Nat
  line : Nat
  column : Nat

/-- A run of the scanner: the innermost collection comes first in `indents` and `keys`, which has
one place for each open bracket and one for the block context. -/
structure Scan where
  cursor : Cursor
  tokens : Array Token := #[]
  indent : Int := -1
  indents : List Int := []
  keys : List (Option PossibleKey) := [none]
  keyAllowed : Bool := true

namespace Scan

def inFlow (s : Scan) : Bool := 1 < s.keys.length

def push (s : Scan) (t : Token) : Scan := { s with tokens := s.tokens.push t }

def skip (s : Scan) (n : Nat) : Scan := { s with cursor := s.cursor.skip n }

def forget : Option PossibleKey → Except Fault (Option PossibleKey)
  | some k => if k.required then .error .malformed else .ok none
  | none => .ok none

def forgetKey (s : Scan) : Except Fault Scan := do
  match s.keys with
  | [] => return s
  | k :: rest => return { s with keys := (← forget k) :: rest }

def forgetStale (s : Scan) : Except Fault Scan := do
  let keys ← s.keys.mapM fun k =>
    match k with
    | some p =>
      if p.line ≠ s.cursor.line ∨ 1024 < s.cursor.index - p.index then forget k else .ok k
    | none => .ok k
  return { s with keys }

def noteKey (s : Scan) : Except Fault Scan := do
  if !s.keyAllowed then return s
  else
    let s ← s.forgetKey
    let c := s.cursor
    let k : PossibleKey :=
      { required := !s.inFlow && s.indent = c.column
        token := s.tokens.size
        index := c.index
        line := c.line
        column := c.column }
    return { s with keys := some k :: s.keys.drop 1 }

def unwind (s : Scan) (column : Int) : Scan :=
  if s.inFlow then s else go s s.indents
where
  go (s : Scan) : List Int → Scan
    | [] => s
    | outer :: rest =>
      if column < s.indent then
        go { (s.push .blockEnd) with indent := outer, indents := rest } rest
      else s

def deepen (s : Scan) (column : Nat) : Scan × Bool :=
  if s.indent < column then
    ({ s with indent := column, indents := s.indent :: s.indents }, true)
  else (s, false)

def insert (s : Scan) (i : Nat) (t : Token) : Scan :=
  { s with tokens := (s.tokens.toList.insertIdx i t).toArray }

def skipBlank : Nat → Scan → Scan
  | 0, s => s
  | fuel + 1, s =>
    let (_, c) := s.cursor.takeWhile (· = ' ')
    let (_, c) :=
      if c.peek = some '#' then c.takeWhile fun x => !isBreak x else (([] : List Char), c)
    match c.peek with
    | some x =>
      if isBreak x then
        skipBlank fuel { s with cursor := c.advance, keyAllowed := s.keyAllowed || !s.inFlow }
      else { s with cursor := c }
    | none => { s with cursor := c }

def marker (s : Scan) (t : Token) : Except Fault Scan := do
  let s ← (s.unwind (-1)).forgetKey
  return ({ s with keyAllowed := false }.push t).skip 3

def openFlow (s : Scan) (t : Token) : Except Fault Scan := do
  let s ← s.noteKey
  return ({ s with keys := none :: s.keys, keyAllowed := true }.push t).skip 1

def closeFlow (s : Scan) (t : Token) : Except Fault Scan := do
  let s ← s.forgetKey
  if !s.inFlow then .error .malformed
  else return ({ s with keys := s.keys.drop 1, keyAllowed := false }.push t).skip 1

def comma (s : Scan) : Except Fault Scan := do
  let s ← { s with keyAllowed := true }.forgetKey
  return (s.push .comma).skip 1

def openBlock (s : Scan) (t : Token) : Except Fault Scan :=
  if s.inFlow then .ok s
  else if !s.keyAllowed then .error .malformed
  else
    match s.deepen s.cursor.column with
    | (s, true) => .ok (s.push t)
    | (s, false) => .ok s

def dash (s : Scan) : Except Fault Scan := do
  let s ← s.openBlock .blockSequence
  let s ← { s with keyAllowed := true }.forgetKey
  return (s.push .entry).skip 1

def question (s : Scan) : Except Fault Scan := do
  let s ← s.openBlock .blockMapping
  let s ← { s with keyAllowed := !s.inFlow }.forgetKey
  return (s.push .key).skip 1

def colon (s : Scan) : Except Fault Scan := do
  match s.keys with
  | some k :: rest =>
    let s := { s with keys := none :: rest }.insert k.token .key
    let s :=
      if s.inFlow then s
      else
        match s.deepen k.column with
        | (s, true) => s.insert k.token .blockMapping
        | (s, false) => s
    return ({ s with keyAllowed := false }.push .value).skip 1
  | _ =>
    let s ← s.openBlock .blockMapping
    let s ← { s with keyAllowed := !s.inFlow }.forgetKey
    return (s.push .value).skip 1

def quotedScalar (s : Scan) (double : Bool) : Except Fault Scan := do
  let s ← s.noteKey
  let (cs, c) ← quoted double s.cursor.rest.length s.cursor.advance
  return { s with cursor := c, keyAllowed := false }.push (.scalar (String.ofList cs) false)

def plainScalar (s : Scan) : Except Fault Scan := do
  let s ← s.noteKey
  let (cs, broken, c) := plain s.inFlow (s.indent + 1) s.cursor.rest.length s.cursor
  return { s with cursor := c, keyAllowed := broken }.push (.scalar (String.ofList cs) true)

def indicators : List Char :=
  ['-', '?', ':', ',', '[', ']', '\x7b', '\x7d', '#', '&', '*', '!', '|', '>', '\x27', '"', '%',
   '@', Char.ofNat 96]

def startsPlain (inFlow : Bool) : List Char → Bool
  | [] => false
  | x :: rest =>
    (!startsBlank [x] && !indicators.contains x) ||
      (!startsBlank rest && (x = '-' || (!inFlow && (x = '?' || x = ':'))))

def token (s : Scan) (x : Char) : Except Fault Scan :=
  let after := s.cursor.rest.drop 1
  let margin := s.cursor.column = 0
  if margin && s.cursor.atMarker '-' then s.marker .documentStart
  else if margin && s.cursor.atMarker '.' then s.marker .documentEnd
  else if x = '[' then s.openFlow .flowSequence
  else if x = '\x7b' then s.openFlow .flowMapping
  else if x = ']' then s.closeFlow .flowSequenceEnd
  else if x = '\x7d' then s.closeFlow .flowMappingEnd
  else if x = ',' then s.comma
  else if x = '-' && startsBlank after then s.dash
  else if x = '?' && (s.inFlow || startsBlank after) then s.question
  else if x = ':' && (s.inFlow || startsBlank after) then s.colon
  else if x = '\x27' then s.quotedScalar false
  else if x = '"' then s.quotedScalar true
  else if startsPlain s.inFlow s.cursor.rest then s.plainScalar
  else .error .malformed

def run : Nat → Scan → Except Fault Scan
  | 0, _ => .error .malformed
  | fuel + 1, s => do
    let s ← (skipBlank (s.cursor.rest.length + 1) s).forgetStale
    match s.cursor.peek with
    | none => (s.unwind (-1)).forgetKey
    | some x => run fuel (← (s.unwind s.cursor.column).token x)

end Scan

def tokens (cs : List Char) : Except Fault (List Token) := do
  if !cs.all isReadable then .error .malformed
  else
    let start : Cursor := { rest := cs }
    let start := if start.peek = some byteOrderMark then start.advance else start
    let s ← Scan.run (cs.length + 1) { cursor := start }
    return s.tokens.toList

end Yaml

end TwoPhase
