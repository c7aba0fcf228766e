import TwoPhase.Decimal.Reading
import TwoPhase.Power
import TwoPhase.Tensor

/-!
Arrays in binary files: a magic number and a version, a header that names the type of the cells,
the shape and the order of the axes, and then the cells. Cells are integers, floating-point
numbers or truth values of either byte order, and come out as doubles.
-/
namespace TwoPhase

namespace Typed

inductive Fault where
  | empty
  | malformed
  deriving DecidableEq, Repr

inductive Piece where
  | mark (c : Char)
  | text (s : List Char)
  | word (s : List Char)
  deriving DecidableEq, Repr

def isMark (c : Char) : Bool :=
  c = '\x7b' || c = '\x7d' || c = '(' || c = ')' || c = ',' || c = ':'

def isWordChar (c : Char) : Bool := c.isAlphanum || c = '_' || c = '-' || c = '+'

def pieces : Nat → List Char → Option (List Piece)
  | 0, _ => none
  | _, [] => some []
  | fuel + 1, c :: cs =>
    if c = ' ' || c = '\n' || c = '\t' then pieces fuel cs
    else if isMark c then (pieces fuel cs).map (.mark c :: ·)
    else if c = '\x27' || c = '"' then
      let body := cs.takeWhile (· ≠ c)
      if body.length = cs.length || body.contains '\\' then none
      else (pieces fuel (cs.drop (body.length + 1))).map (.text body :: ·)
    else if isWordChar c then
      let body := (c :: cs).takeWhile isWordChar
      (pieces fuel ((c :: cs).drop body.length)).map (.word body :: ·)
    else none

structure Header where
  kind : List Char
  columnMajor : Bool
  shape : List Nat

def length? (cs : List Char) : Option Nat :=
  if cs.all Char.isDigit && (cs.head? ≠ some '0' || cs.length = 1) then
    some (Decimal.natOfDigits cs)
  else none

/-- The lengths of a shape up to its closing bracket; each may have a comma behind it, and a
single one has to. -/
def shape? : List Piece → Option (List Nat × List Piece)
  | .mark ')' :: rest => some ([], rest)
  | .word w :: .mark ',' :: rest => do
    let n ← length? w
    let (ns, rest) ← shape? rest
    return (n :: ns, rest)
  | .word w :: .mark ')' :: rest => do return ([← length? w], rest)
  | _ => none

structure Fields where
  kind : Option (List Char) := none
  columnMajor : Option Bool := none
  shape : Option (List Nat) := none

def field (name : List Char) (f : Fields) : List Piece → Option (Fields × List Piece)
  | .text s :: rest =>
    if name = "descr".toList then some ({ f with kind := some s }, rest) else none
  | .word w :: rest =>
    if name ≠ "fortran_order".toList then none
    else if w = "True".toList then some ({ f with columnMajor := some true }, rest)
    else if w = "False".toList then some ({ f with columnMajor := some false }, rest)
    else none
  | .mark '(' :: rest => do
    if name ≠ "shape".toList then none
    else
      let single := match rest with
        | .word _ :: .mark ')' :: _ => true
        | _ => false
      if single then none
      else
        let (ns, rest) ← shape? rest
        return ({ f with shape := some ns }, rest)
  | _ => none

def fields : Nat → Fields → List Piece → Option Fields
  | 0, _, _ => none
  | _, f, [.mark '\x7d'] => some f
  | fuel + 1, f, .text name :: .mark ':' :: rest => do
    let (f, rest) ← field name f rest
    match rest with
    | .mark ',' :: rest => fields fuel f rest
    | rest => if rest = [.mark '\x7d'] then return f else none
  | _, _, _ => none

def header? (cs : List Char) : Option Header := do
  match ← pieces (cs.length + 1) cs with
  | .mark '\x7b' :: rest =>
    let f ← fields (rest.length + 1) {} rest
    return { kind := ← f.kind, columnMajor := ← f.columnMajor, shape := ← f.shape }
  | _ => none

def littleEndian (bytes : List Nat) : Nat := bytes.foldr (fun b n => b + 256 * n) 0

def ofFloatBits (exponentBits fractionBits bits : Nat) : Float :=
  let negative := decide (twoTo (exponentBits + fractionBits) ≤ bits)
  let exponent : Nat := bits / twoTo fractionBits % twoTo exponentBits
  let fraction := bits % twoTo fractionBits
  let least : Int := 2 - twoTo (exponentBits - 1) - fractionBits
  let value (m : Nat) (e : Int) : Float :=
    let (num, den) := Binary64.fraction m e
    (Binary64.ofFraction? negative num den).getD (Binary64.infinity negative)
  if exponent + 1 = twoTo exponentBits then
    if fraction = 0 then Binary64.infinity negative else 0 / 0
  else if exponent = 0 then value fraction least
  else value (twoTo fractionBits + fraction) (least + exponent - 1)

def cellOf? (kind : Char) (size bits : Nat) : Option Float :=
  let signed : Int := if twoTo (8 * size - 1) ≤ bits then (bits : Int) - twoTo (8 * size) else bits
  let integral := size = 1 || size = 2 || size = 4 || size = 8
  if kind = 'f' && size = 8 then some (Float.ofBits (UInt64.ofNat bits))
  else if kind = 'f' && size = 4 then some (ofFloatBits 8 23 bits)
  else if kind = 'f' && size = 2 then some (ofFloatBits 5 10 bits)
  else if kind = 'i' && integral then Binary64.ofInt? signed
  else if kind = 'u' && integral then Binary64.ofInt? bits
  else if kind = 'b' && size = 1 then some (if bits = 0 then 0 else 1)
  else none

/-- The type of a cell: whether the most significant byte comes first, the kind and the size. -/
def cellType? (cs : List Char) : Option (Bool × Char × Nat) := do
  let (order, rest) :=
    match cs with
    | '<' :: rest | '=' :: rest | '|' :: rest => (false, rest)
    | '>' :: rest => (true, rest)
    | rest => (false, rest)
  match rest with
  | kind :: digits =>
    if digits.isEmpty then none
    else
      let size ← length? digits
      -- a type that has a value for zero is known
      let _ ← cellOf? kind size 0
      return (order, kind, size)
  | [] => none

def columnMajorIndex : List Nat → Nat → Nat
  | [], _ => 0
  | n :: rest, k =>
    let size := rest.foldr (· * ·) 1
    k / size + n * columnMajorIndex rest (k % size)

def cells? (h : Header) (data : Array UInt8) : Option (Tensor Float) := do
  let (bigEndian, kind, size) ← cellType? h.kind
  let count := h.shape.foldr (· * ·) 1
  if data.size < count * size then none
  else
    let entries ← (List.range count).mapM fun k =>
      let i := if h.columnMajor then columnMajorIndex h.shape k else k
      let bytes := (List.range size).map fun b => (data[i * size + b]?.getD 0).toNat
      cellOf? kind size (littleEndian (if bigEndian then bytes.reverse else bytes))
    (Tensor.ofList entries).reshape? h.shape

def magic : List Nat := [0x93, 0x4E, 0x55, 0x4D, 0x50, 0x59]

def read (file : Array UInt8) : Except Fault (Tensor Float) :=
  let bytes := file.toList.map UInt8.toNat
  if bytes.isEmpty then .error .empty
  else if bytes.take 6 ≠ magic then .error .malformed
  else
    let lengthSize? : Option Nat :=
      match (bytes.drop 6).take 2 with
      | [1, 0] => some 2
      | [2, 0] | [3, 0] => some 4
      | _ => none
    let tensor? : Option (Tensor Float) := do
      let lengthSize ← lengthSize?
      let length := littleEndian ((bytes.drop 8).take lengthSize)
      let start := 8 + lengthSize
      let text := (bytes.drop start).take length
      if text.length < length ∨ bytes.length < start then none
      else
        let h ← header? (text.map Char.ofNat)
        cells? h (file.extract (start + length) file.size)
    tensor?.elim (.error .malformed) .ok

end Typed

end TwoPhase
