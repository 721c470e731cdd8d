/-! Options and operands among the words of a command line. Options have a long name and perhaps a
letter; some take a value, which follows them or is attached. No option may be given twice. What is no
option is an operand, and so is all that stands after `--`. -/

namespace TypeSketch.CommandLine

inductive Usage
  | help
  | version
  | nothing
  | malformed
  deriving DecidableEq, Repr

def Usage.exitCode : Usage → Nat
  | .help | .version => 0
  | .nothing | .malformed => 2

structure OptionSpec where
  name : String
  letter : Option Char := none
  accepts : Option (String → Bool) := none
  shows : Option Usage := none

structure Given where
  options : List (String × String) := []
  operands : List String := []
  deriving DecidableEq, Repr

structure Form where
  options : List OptionSpec
  operands : List (String → Bool) := []
  stops : List String := []

namespace Given

def value? (g : Given) (name : String) : Option String :=
  g.options.lookup name

def has (g : Given) (name : String) : Bool :=
  (g.value? name).isSome

def take (g : Given) (o : OptionSpec) (value : String) : Except Usage Given :=
  if g.has o.name || !o.accepts.all (· value) then .error .malformed
  else
    match o.shows with
    | some usage => .error usage
    | none => .ok { g with options := g.options ++ [(o.name, value)] }

end Given

namespace Form

def takeOperand (f : Form) (g : Given) (w : String) : Except Usage Given :=
  match f.operands[g.operands.length]? with
  | some accepts =>
    if accepts w then .ok { g with operands := g.operands ++ [w] } else .error .malformed
  | none => .error .malformed

def takeOperands (f : Form) (g : Given) : List String → Except Usage Given
  | [] => .ok g
  | w :: ws => (f.takeOperand g w).bind (f.takeOperands · ws)

/-- Takes an option by its name, with a value attached by an equals sign or not. An option that waits
for its value is given back. -/
def takeNamed (f : Form) (g : Given) (cs : List Char) :
    Except Usage (Option OptionSpec × Given) :=
  let name := String.ofList (cs.takeWhile (· != '='))
  match f.options.find? (·.name == name), cs.dropWhile (· != '=') with
  | none, _ => .error .malformed
  | some o, [] =>
    if o.accepts.isSome then .ok (some o, g) else (g.take o "").map fun g => (none, g)
  | some o, _ :: value =>
    if o.accepts.isSome then (g.take o (String.ofList value)).map fun g => (none, g)
    else .error .malformed

def withoutEquals : List Char → List Char
  | '=' :: cs => cs
  | cs => cs

def takeLetters (f : Form) (g : Given) : List Char → Except Usage (Option OptionSpec × Given)
  | [] => .ok (none, g)
  | c :: cs =>
    match f.options.find? (·.letter == some c) with
    | none => .error .malformed
    | some o =>
      if o.accepts.isSome then
        if cs.isEmpty then .ok (some o, g)
        else (g.take o (String.ofList (withoutEquals cs))).map fun g => (none, g)
      else
        match g.take o "" with
        | .error usage => .error usage
        | .ok g => f.takeLetters g cs

def takeWord (f : Form) (g : Given) (w : String) : Except Usage (Option OptionSpec × Given) :=
  match w.toList with
  | '-' :: '-' :: cs => f.takeNamed g cs
  | '-' :: c :: cs => f.takeLetters g (c :: cs)
  | _ => (f.takeOperand g w).map fun g => (none, g)

def isOptionWord (w : String) : Bool :=
  match w.toList with
  | '-' :: _ :: _ => true
  | _ => false

def takeAll (f : Form) : Option OptionSpec → Given → List String →
    Except Usage (Given × List String)
  | some _, _, [] => .error .malformed
  | none, g, [] => .ok (g, [])
  | some o, g, w :: ws =>
    if isOptionWord w then .error .malformed
    else
      match g.take o w with
      | .error usage => .error usage
      | .ok g => f.takeAll none g ws
  | none, g, w :: ws =>
    if w ∈ f.stops then .ok (g, w :: ws)
    else if w = "--" then (f.takeOperands g ws).map fun g => (g, [])
    else
      match f.takeWord g w with
      | .error usage => .error usage
      | .ok (waiting, g) => f.takeAll waiting g ws

end Form
end TypeSketch.CommandLine
