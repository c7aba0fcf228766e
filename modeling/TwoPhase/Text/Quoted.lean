import TwoPhase.Text.Printable

/-!
Quoted text. The quote is single unless the text holds a single quote and no double quote; what
is not printable is written as the shortest escape that holds its code point.
-/
namespace TwoPhase

namespace Text

def hex (width n : Nat) : String :=
  let digits := Nat.toDigits 16 n
  String.ofList (List.replicate (width - digits.length) '0' ++ digits)

def escape (quote c : Char) : String :=
  if c = quote then "\\" ++ String.singleton c
  else
    match c with
    | '\\' => "\\\\"
    | '\n' => "\\n"
    | '\r' => "\\r"
    | '\t' => "\\t"
    | c =>
      if isPrintable c then String.singleton c
      else if c.toNat < 0x100 then "\\x" ++ hex 2 c.toNat
      else if c.toNat < 0x10000 then "\\u" ++ hex 4 c.toNat
      else "\\U" ++ hex 8 c.toNat

def quoted (s : String) : String :=
  let quote := if s.toList.contains '\x27' && !s.toList.contains '"' then '"' else '\x27'
  String.singleton quote ++ String.join (s.toList.map (escape quote)) ++ String.singleton quote

end Text

end TwoPhase
