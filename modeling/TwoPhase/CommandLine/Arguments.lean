import TwoPhase.Decimal.Reading
import TwoPhase.Solver.Outcome
import TwoPhase.Text.Quoted

/-!
Arguments of the command line. Every word is first classed as an option, a value, or neither; then
the words are read from left to right, and an option that needs a value takes the next word. An
option may be shortened to any beginning that no other option shares, and may carry its value
behind an equals sign. The last occurrence of an option counts.
-/
namespace TwoPhase

namespace CommandLine

def programName : String := "lp-solve"

inductive Flag where
  | help
  | config
  | out
  | verbose
  | maxIterations
  | check
  | logLevel
  deriving DecidableEq, Repr

namespace Flag

def all : List Flag := [.help, .config, .out, .verbose, .maxIterations, .check, .logLevel]

def name : Flag → String
  | .help => "--help"
  | .config => "--config"
  | .out => "--out"
  | .verbose => "--verbose"
  | .maxIterations => "--max-iterations"
  | .check => "--check"
  | .logLevel => "--log-level"

def takesValue : Flag → Bool
  | .help | .verbose | .check => false
  | .config | .out | .maxIterations | .logLevel => true

def shown : Flag → String
  | .help => "-h/--help"
  | flag => flag.name

def startingWith (cs : List Char) : List Flag :=
  all.filter fun flag => cs.isPrefixOf flag.name.toList

end Flag

inductive ArgumentFault where
  | ambiguous (word : String) (candidates : List Flag)
  | missingValue (flag : Flag)
  | unexpectedValue (flag : Flag) (value : String)
  | notInteger (value : String)
  | notSeverity (value : String)
  | missingConfig
  | unrecognized (words : List String)
  deriving DecidableEq, Repr

namespace ArgumentFault

def about (flag : Flag) (s : String) : String := "argument " ++ flag.shown ++ ": " ++ s

def message : ArgumentFault → String
  | .ambiguous word candidates =>
    "ambiguous option: " ++ word ++ " could match " ++ ", ".intercalate (candidates.map Flag.name)
  | .missingValue flag => about flag "expected one argument"
  | .unexpectedValue flag value => about flag ("ignored explicit argument " ++ Text.quoted value)
  | .notInteger value => about .maxIterations ("invalid int value: " ++ Text.quoted value)
  | .notSeverity value =>
    about .logLevel <|
      "invalid choice: " ++ Text.quoted value ++ " (choose from " ++
        ", ".intercalate (Severity.all.map fun s => Text.quoted s.label) ++ ")"
  | .missingConfig => "the following arguments are required: " ++ Flag.config.name
  | .unrecognized words => "unrecognized arguments: " ++ " ".intercalate words

def line (f : ArgumentFault) : String := programName ++ ": error: " ++ f.message

end ArgumentFault

def usage : String :=
  "usage: " ++ programName ++ " [-h] --config CONFIG [--out OUT] [--verbose] " ++
    "[--max-iterations MAX_ITERATIONS] [--check] [--log-level \x7b" ++
    ",".intercalate (Severity.all.map Severity.label) ++ "\x7d]"

inductive Word where
  | plain (s : String)
  | option (flag : Flag) (value : Option String)
  /-- The letter for help, and what follows it in the same word. -/
  | letter (rest : List Char)
  | unknown (s : String)
  /-- Two dashes; no option follows them. -/
  | separator
  deriving DecidableEq, Repr

namespace Word

/-- Whether a text is a dash and a decimal without exponent; a line end may follow. -/
def isNegativeNumber (cs : List Char) : Bool :=
  let isDigit (c : Char) : Bool := (Text.digit? c).isSome
  let body := if cs.getLast? = some '\n' then cs.dropLast else cs
  match body with
  | '-' :: ds =>
    match ds.dropWhile isDigit with
    | [] => !ds.isEmpty
    | '.' :: places => !places.isEmpty && places.all isDigit
    | _ => false
  | _ => false

def splitValue (cs : List Char) : List Char × Option String :=
  match cs.dropWhile (· ≠ '=') with
  | [] => (cs, none)
  | _ :: value => (cs.takeWhile (· ≠ '='), some (String.ofList value))

def classify (s : String) : Except ArgumentFault Word :=
  let cs := s.toList
  let other : Word :=
    if isNegativeNumber cs || cs.contains ' ' then .plain s else .unknown s
  match cs with
  | ['-', '-'] => .ok .separator
  | '-' :: 'h' :: rest => .ok (.letter rest)
  | '-' :: '-' :: _ =>
    let (beginning, value) := splitValue cs
    match Flag.all.find? (fun flag => flag.name.toList = beginning) with
    | some flag => .ok (.option flag value)
    | none =>
      match Flag.startingWith beginning with
      | [] => .ok other
      | [flag] => .ok (.option flag value)
      | candidates => .error (.ambiguous s candidates)
  | '-' :: _ :: _ => .ok other
  | _ => .ok (.plain s)

def classifyAll : List String → Except ArgumentFault (List Word)
  | [] => .ok []
  | s :: rest => do
    match ← classify s with
    | .separator => return .separator :: rest.map .plain
    | word => return word :: (← classifyAll rest)

/-- Letters behind the one for help: they may ask for help again, but carry no value. -/
def checkLetters : List Char → Except ArgumentFault Unit
  | 'h' :: rest => checkLetters rest
  | '=' :: value => .error (.unexpectedValue .help (String.ofList value))
  | '-' :: value => .error (.unexpectedValue .help (String.ofList ('-' :: value)))
  | _ => .ok ()

end Word

structure Draft where
  config : Option String := none
  out : Option String := none
  verbose : Bool := false
  maxIterations : Option Int := none
  check : Bool := false
  severity : Severity := .warning
  unrecognized : List String := []

namespace Draft

def assign (d : Draft) (flag : Flag) (value : String) : Except ArgumentFault Draft :=
  match flag with
  | .config => .ok { d with config := some value }
  | .out => .ok { d with out := some value }
  | .maxIterations =>
    match Decimal.readInt? value with
    | some i => .ok { d with maxIterations := some i }
    | none => .error (.notInteger value)
  | .logLevel =>
    match Severity.all.find? (·.label = value) with
    | some severity => .ok { d with severity }
    | none => .error (.notSeverity value)
  | _ => .ok d

def reject (d : Draft) (word : String) : Draft :=
  { d with unrecognized := d.unrecognized ++ [word] }

def set (d : Draft) (flag : Flag) : Draft :=
  match flag with
  | .verbose => { d with verbose := true }
  | .check => { d with check := true }
  | _ => d

def consume (d : Draft) : List Word → Except ArgumentFault (Option Draft)
  | [] => .ok (some d)
  | .plain s :: rest => (d.reject s).consume rest
  | .unknown s :: rest => (d.reject s).consume rest
  | .separator :: rest => (d.reject "--").consume rest
  | .letter letters :: _ => (Word.checkLetters letters).map fun _ => none
  | .option flag (some value) :: rest =>
    if flag.takesValue then (d.assign flag value).bind fun d => d.consume rest
    else .error (.unexpectedValue flag value)
  | .option flag none :: rest =>
    if flag.takesValue then
      match rest with
      | .plain value :: rest => (d.assign flag value).bind fun d => d.consume rest
      | _ => .error (.missingValue flag)
    else if flag = .help then .ok none
    else (d.set flag).consume rest

end Draft

structure Arguments where
  config : String
  out : Option String := none
  verbose : Bool := false
  maxIterations : Option Int := none
  check : Bool := false
  severity : Severity := .warning
  deriving DecidableEq, Repr

/-- The arguments that words spell; none if help is asked for. -/
def Arguments.ofWords (words : List String) : Except ArgumentFault (Option Arguments) := do
  match ← ({} : Draft).consume (← Word.classifyAll words) with
  | none => return none
  | some d =>
    match d.config with
    | none => .error .missingConfig
    | some config =>
      if d.unrecognized.isEmpty then
        return some
          { config
            out := d.out
            verbose := d.verbose
            maxIterations := d.maxIterations
            check := d.check
            severity := d.severity }
      else .error (.unrecognized d.unrecognized)

end CommandLine

end TwoPhase
