import TwoPhase.Decimal.Notation
import TwoPhase.Text.Padding

/-!
The text of a vector of doubles: all entries in one notation, points below points, lines of
bounded width. Entries have at most six decimals. The notation is positional unless an entry
reaches `1e8`; then all have an exponent and the same number of decimals. Of a vector of more
than a thousand entries the first and the last three are shown.
-/
namespace TwoPhase

namespace VectorText

def maxPlaces : Nat := 6

def lineWidth : Nat := 74

def threshold : Nat := 1000

def edgeCount : Nat := 3

def largest : Nat := 100000000

structure Pieces where
  whole : String
  places : String
  exponent : Int

inductive Entry where
  | finite (p : Pieces)
  | word (s : String)

def trimZeros (cs : List Char) : List Char := (cs.reverse.dropWhile (· = '0')).reverse

def positionalPieces (negative : Bool) (m : Nat) (e : Int) : Pieces :=
  let (num, den) := Binary64.fraction m e
  let cs := (Decimal.insertPoint (toString (Decimal.onGrid num den (-maxPlaces))) maxPlaces).toList
  { whole := Decimal.signed negative (String.ofList (cs.takeWhile (· ≠ '.')))
    places := String.ofList (trimZeros ((cs.dropWhile (· ≠ '.')).drop 1))
    exponent := 0 }

/-- A number with one digit before the point: the fewest digits that read back, rounded where
there are too many of them. -/
def scientificPieces (negative : Bool) (m : Nat) (e : Int) : Pieces :=
  let short := Decimal.shortest m e
  let d :=
    if (toString short.digits).length ≤ maxPlaces + 1 then short
    else (Decimal.significant m e (maxPlaces + 1)).trim
  let cs := (toString d.digits).toList
  { whole := Decimal.signed negative (String.ofList (cs.take 1))
    places := String.ofList (trimZeros (cs.drop 1))
    exponent := d.magnitude }

def isLarge (x : Float) : Bool :=
  match Binary64.ofFloat x with
  | .finite _ m e =>
    let (num, den) := Binary64.fraction m e
    decide (largest * den ≤ num)
  | _ => false

def entry (useExponent : Bool) (x : Float) : Entry :=
  match Binary64.ofFloat x with
  | .nan => .word "nan"
  | .infinite negative => .word (Decimal.signed negative "inf")
  | .finite negative m e =>
    .finite (if useExponent then scientificPieces negative m e else positionalPieces negative m e)

def Entry.pieces? : Entry → Option Pieces
  | .finite p => some p
  | .word _ => none

def Entry.word? : Entry → Option String
  | .finite _ => none
  | .word s => some s

def widest (lengths : List Nat) : Nat := lengths.foldl max 0

structure Widths where
  whole : Nat
  places : Nat
  exponent : Option Nat

def Widths.tail (w : Widths) : Nat :=
  match w.exponent with
  | some digits => w.places + 2 + digits
  | none => w.places

def exponentDigits (p : Pieces) : Nat := max 2 (toString p.exponent.natAbs).length

/-- Each piece is as wide as the widest; a word that needs more room widens the front. -/
def widths (useExponent : Bool) (entries : List Entry) : Widths :=
  let finite := entries.filterMap Entry.pieces?
  let plain : Widths :=
    { whole := widest (finite.map (·.whole.length))
      places := widest (finite.map (·.places.length))
      exponent := if useExponent then some (widest (finite.map exponentDigits)) else none }
  let words := (entries.filterMap Entry.word?).map (·.length - (plain.tail + 1))
  { plain with whole := max plain.whole (widest words) }

def Entry.text (w : Widths) : Entry → String
  | .word s => Text.padLeft (w.whole + w.tail + 1) s
  | .finite p =>
    let front := Text.padLeft w.whole p.whole ++ "."
    match w.exponent with
    | none => front ++ Text.padRight w.places p.places
    | some digits =>
      let power := toString p.exponent.natAbs
      front ++ p.places ++ Decimal.zeros (w.places - p.places.length) ++
        (if p.exponent < 0 then "e-" else "e+") ++ Decimal.zeros (digits - power.length) ++ power

def entryTexts (xs : List Float) : List String :=
  let useExponent := xs.any isLarge
  let entries := xs.map (entry useExponent)
  entries.map (Entry.text (widths useExponent entries))

def words (xs : List Float) : List String :=
  if xs.length ≤ threshold then entryTexts xs
  else
    let shown := entryTexts (xs.take edgeCount ++ xs.drop (xs.length - edgeCount))
    shown.take edgeCount ++ ["..."] ++ shown.drop edgeCount

def trimEnd (s : String) : String :=
  String.ofList (s.toList.reverse.dropWhile (· = ' ')).reverse

/-- Words put behind an unfinished line, in which at least the indent stands. A word that does
not fit starts a new line, unless the line holds nothing else. -/
def fill (line : String) : List String → String
  | [] => line
  | word :: rest =>
    let last := if rest.isEmpty then "" else " "
    if lineWidth < line.length + word.length ∧ 1 < line.length then
      trimEnd line ++ "\n" ++ fill (" " ++ word ++ last) rest
    else fill (line ++ word ++ last) rest

def render (xs : List Float) : String :=
  "[" ++ String.ofList ((fill " " (words xs)).toList.drop 1) ++ "]"

end VectorText

end TwoPhase
