import TwoPhase.Number

/-!
Loosely typed data: what a configuration, a record or a matrix cell may hold. A dictionary keeps
its entries in the order in which their keys came first, and a later value of a key takes the
place of an earlier one.
-/
namespace TwoPhase

inductive Value where
  | null
  | bool (b : Bool)
  | int (i : Int)
  | float (x : Float)
  | fraction (q : Rat)
  | text (s : String)
  | list (items : List Value)
  | dict (entries : List (Value × Value))
  | set (items : List Value)
  /-- An array or one cell of an array, held as the nested lists of its cells: numbers that a list
  could hold as well. -/
  | array (cells : Value)

namespace Value

instance : Inhabited Value := ⟨.null⟩

/-- A value as a number; truth values count as zero and one. -/
def number? : Value → Option Number
  | .bool b => some (.int (if b then 1 else 0))
  | .int i => some (.int i)
  | .float x => some (.float x)
  | .fraction q => some (.fraction q)
  | _ => none

def ofNumber : Number → Value
  | .int i => .int i
  | .fraction q => .fraction q
  | .float x => .float x

def isTrue : Value → Bool
  | .null => false
  | .text s => !s.isEmpty
  | .list items => !items.isEmpty
  | .dict entries => !entries.isEmpty
  | .set items => !items.isEmpty
  | .array cells => isTrue cells
  | v => v.number?.any fun n => !n.isZero

def isScalar : Value → Bool
  | .list _ | .dict _ | .set _ => false
  | .array cells => isScalar cells
  | _ => true

/-- Whether two keys are the same one. Numbers of different kinds are compared by value. -/
def sameKey : Value → Value → Bool
  | .null, .null => true
  | .text s, .text t => s == t
  | .array a, b => sameKey a b
  | a, .array b => sameKey a b
  | a, b =>
    match a.number?, b.number? with
    | some m, some n => m.eq n
    | _, _ => false

def insert (key value : Value) : List (Value × Value) → List (Value × Value)
  | [] => [(key, value)]
  | (k, v) :: rest =>
    if sameKey k key then (k, value) :: rest else (k, v) :: insert key value rest

def ofPairs (pairs : List (Value × Value)) : List (Value × Value) :=
  pairs.foldl (fun entries (k, v) => insert k v entries) []

def lookup (key : String) (entries : List (Value × Value)) : Option Value :=
  (entries.find? fun (k, _) => sameKey k (.text key)).map Prod.snd

def get? (v : Value) (key : String) : Option Value :=
  match v with
  | .dict entries => lookup key entries
  | _ => none

/-- The items of a value that can be listed: a text has its characters, a dictionary its keys,
an array its parts. -/
def items? : Value → Option (List Value)
  | .list vs | .set vs => some vs
  | .text s | .array (.text s) => some (s.toList.map fun c => .text (String.singleton c))
  | .dict entries => some (entries.map Prod.fst)
  | .array (.list vs) => some (vs.map .array)
  | _ => none

end Value

end TwoPhase
