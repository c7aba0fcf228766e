import TwoPhase.Yaml.Token

/-!
YAML documents as trees. Every function takes tokens and returns a node with the tokens behind
it. Missing keys and values are empty plain scalars.

The functions recurse on fuel. A token is met by a bounded number of them, so four levels for
each token are enough.
-/
namespace TwoPhase

namespace Yaml

inductive Node where
  | scalar (text : String) (plain : Bool)
  | sequence (items : List Node)
  | mapping (entries : List (Node × Node))

def Node.empty : Node := .scalar "" true

def nextIn (ts : List Token) (stop : List Token) : Bool :=
  match ts with
  | [] => true
  | t :: _ => stop.contains t

def flowStart (first : Bool) (close : Token) (ts : List Token) : Option (List Token) :=
  match ts with
  | t :: rest => if t = close || first then some ts else if t = .comma then some rest else none
  | [] => none

mutual

/-- A node. Block collections are read only where `block` allows them, and a sequence without
indentation of its own only where `flat` does. -/
def node (block flat : Bool) : Nat → List Token → Except Fault (Node × List Token)
  | 0, _ => .error .malformed
  | fuel + 1, ts =>
    match ts with
    | .scalar text plain :: ts => .ok (.scalar text plain, ts)
    | .flowSequence :: ts => do
      let (items, ts) ← flowItems true fuel ts
      return (.sequence items, ts)
    | .flowMapping :: ts => do
      let (entries, ts) ← flowEntries true fuel ts
      return (.mapping entries, ts)
    | .entry :: _ =>
      if flat then do
        let (items, ts) ← flatItems fuel ts
        return (.sequence items, ts)
      else .error .malformed
    | .blockSequence :: ts =>
      if block then do
        let (items, ts) ← blockItems fuel ts
        return (.sequence items, ts)
      else .error .malformed
    | .blockMapping :: ts =>
      if block then do
        let (entries, ts) ← blockEntries fuel ts
        return (.mapping entries, ts)
      else .error .malformed
    | _ => .error .malformed

def nodeOrEmpty (block flat : Bool) (stop : List Token) :
    Nat → List Token → Except Fault (Node × List Token)
  | 0, _ => .error .malformed
  | fuel + 1, ts => if nextIn ts stop then .ok (.empty, ts) else node block flat fuel ts

def valueOrEmpty (block flat : Bool) (stop : List Token) :
    Nat → List Token → Except Fault (Node × List Token)
  | 0, _ => .error .malformed
  | fuel + 1, ts =>
    match ts with
    | .value :: ts => nodeOrEmpty block flat stop fuel ts
    | ts => .ok (.empty, ts)

def blockItems : Nat → List Token → Except Fault (List Node × List Token)
  | 0, _ => .error .malformed
  | fuel + 1, ts =>
    match ts with
    | .entry :: ts => do
      let (item, ts) ← nodeOrEmpty true false [.entry, .blockEnd] fuel ts
      let (items, ts) ← blockItems fuel ts
      return (item :: items, ts)
    | .blockEnd :: ts => .ok ([], ts)
    | _ => .error .malformed

def flatItems : Nat → List Token → Except Fault (List Node × List Token)
  | 0, _ => .error .malformed
  | fuel + 1, ts =>
    match ts with
    | .entry :: ts => do
      let (item, ts) ← nodeOrEmpty true false [.entry, .key, .value, .blockEnd] fuel ts
      let (items, ts) ← flatItems fuel ts
      return (item :: items, ts)
    | ts => .ok ([], ts)

def blockEntries : Nat → List Token → Except Fault (List (Node × Node) × List Token)
  | 0, _ => .error .malformed
  | fuel + 1, ts =>
    match ts with
    | .key :: ts => do
      let (key, ts) ← nodeOrEmpty true true [.key, .value, .blockEnd] fuel ts
      let (value, ts) ← valueOrEmpty true true [.key, .value, .blockEnd] fuel ts
      let (entries, ts) ← blockEntries fuel ts
      return ((key, value) :: entries, ts)
    | .blockEnd :: ts => .ok ([], ts)
    | _ => .error .malformed

/-- The items up to the closing bracket; each after the first has a comma in front of it, and a
comma may stand behind the last. A key makes an item a mapping of one entry. -/
def flowItems (first : Bool) : Nat → List Token → Except Fault (List Node × List Token)
  | 0, _ => .error .malformed
  | fuel + 1, ts =>
    match flowStart first .flowSequenceEnd ts with
    | none => .error .malformed
    | some (.flowSequenceEnd :: ts) => .ok ([], ts)
    | some (.key :: ts) => do
      let (key, ts) ← nodeOrEmpty false false [.value, .comma, .flowSequenceEnd] fuel ts
      let (value, ts) ← valueOrEmpty false false [.comma, .flowSequenceEnd] fuel ts
      let (items, ts) ← flowItems false fuel ts
      return (.mapping [(key, value)] :: items, ts)
    | some ts => do
      let (item, ts) ← node false false fuel ts
      let (items, ts) ← flowItems false fuel ts
      return (item :: items, ts)

def flowEntries (first : Bool) : Nat → List Token → Except Fault (List (Node × Node) × List Token)
  | 0, _ => .error .malformed
  | fuel + 1, ts =>
    match flowStart first .flowMappingEnd ts with
    | none => .error .malformed
    | some (.flowMappingEnd :: ts) => .ok ([], ts)
    | some (.key :: ts) => do
      let (key, ts) ← nodeOrEmpty false false [.value, .comma, .flowMappingEnd] fuel ts
      let (value, ts) ← valueOrEmpty false false [.comma, .flowMappingEnd] fuel ts
      let (entries, ts) ← flowEntries false fuel ts
      return ((key, value) :: entries, ts)
    | some ts => do
      let (key, ts) ← node false false fuel ts
      let (entries, ts) ← flowEntries false fuel ts
      return ((key, .empty) :: entries, ts)

end

def Node.ofTokens (ts : List Token) : Except Fault (Option Node) := do
  let fuel := 4 * ts.length + 8
  if ts.isEmpty then return none
  else
    let (root, rest) ←
      match ts with
      | .documentStart :: rest => nodeOrEmpty true false [.documentStart, .documentEnd] fuel rest
      | ts => node true false fuel ts
    if (rest.dropWhile (· = .documentEnd)).isEmpty then return some root
    else .error .malformed

end Yaml

end TwoPhase
