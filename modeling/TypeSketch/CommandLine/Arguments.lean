import TypeSketch.CommandLine.Words
import TypeSketch.Decimal.Numeral
import TypeSketch.Settings

/-! The commands and their arguments. Options that concern every command may stand in front of the
command's name or behind it; behind it they win. -/

namespace TypeSketch.CommandLine

open Emit.TypeScript (Style)

inductive Target
  | all
  | typescript
  | zod
  | query
  | form
  | defaults
  deriving DecidableEq, Repr

def Target.named : List (String × Target) :=
  [("all", .all), ("typescript", .typescript), ("zod", .zod), ("query", .query), ("form", .form),
    ("defaults", .defaults)]

def Target.ofName? (name : String) : Option Target :=
  Target.named.lookup name

structure Wish where
  clear : Bool := false
  toggle : Bool := false
  isOptional : Option Bool := none
  key : Option String := none
  type : Option String := none
  deriving DecidableEq, Repr

inductive Command
  | generate (input : String) (target : Target)
  | infer (input : String)
  | add (input path key value : String) (inPlace : Bool)
  | remove (input path : String) (inPlace : Bool)
  | set (input path value : String) (inPlace : Bool)
  | modify (id : String) (wish : Wish)
  | serve (port : Nat)
  deriving DecidableEq, Repr

structure Arguments where
  config : Option String := none
  mods : Option String := none
  rootName : Option String := none
  style : Option Style := none
  separateNested : Bool := false
  camelCase : Bool := false
  verbose : Bool := false
  command : Command
  deriving DecidableEq, Repr

def Command.input? : Command → Option String
  | .generate input _ | .infer input => some input
  | .add input .. | .remove input .. | .set input .. => some input
  | .modify .. | .serve _ => none

def Arguments.paths (a : Arguments) : List String :=
  a.config.toList ++ a.mods.toList ++ a.command.input?.toList

def isAny (_ : String) : Bool := true

def isPath (s : String) : Bool := s ≠ ""

def style? (s : String) : Option Style :=
  (styleNamed s).toOption

def bool? (s : String) : Option Bool :=
  if s = "true" then some true else if s = "false" then some false else none

def port? (s : String) : Option Nat :=
  (Decimal.int64? s.toList).bind fun n => if 0 ≤ n ∧ n ≤ 65535 then some n.toNat else none

def valueOption (name : String) (letter : Option Char) (accepts : String → Bool) : OptionSpec where
  name := name
  letter := letter
  accepts := some accepts

def flagOption (name : String) (letter : Option Char) : OptionSpec where
  name := name
  letter := letter

def helpOption : OptionSpec :=
  { name := "help", letter := 'h', shows := some .help }

def versionOption : OptionSpec :=
  { name := "version", letter := 'V', shows := some .version }

def commonOptions : List OptionSpec :=
  [valueOption "config" 'c' isPath, valueOption "mods" 'm' isPath,
    valueOption "root-name" none isAny, valueOption "declaration" none fun s => (style? s).isSome,
    flagOption "separate-nested" none, flagOption "camel-case" none, flagOption "verbose" 'v',
    helpOption]

def inPlaceOption : OptionSpec := flagOption "in-place" 'i'

def commandForms : List (String × Form) :=
  [("generate",
      { options := [valueOption "target" 't' fun s => (Target.ofName? s).isSome]
        operands := [isPath] }),
    ("infer", { options := [], operands := [isPath] }),
    ("add", { options := [inPlaceOption], operands := [isPath, isAny, isAny, isAny] }),
    ("remove", { options := [inPlaceOption], operands := [isPath, isAny] }),
    ("set", { options := [inPlaceOption], operands := [isPath, isAny, isAny] }),
    ("modify",
      { options :=
          [flagOption "toggle-optional" none, valueOption "optional" none fun s => (bool? s).isSome,
            valueOption "rename" none isAny, valueOption "type" none isAny,
            flagOption "clear" none]
        operands := [isAny] }),
    ("serve", { options := [valueOption "port" 'p' fun s => (port? s).isSome] })]

def commandNames : List String :=
  commandForms.map Prod.fst

def helpCommand : String := "help"

def outerForm : Form where
  options := versionOption :: commonOptions
  stops := helpCommand :: commandNames

def defaultPort : Nat := 8080

def defaultValueText : String := "\"\""

def command? (name : String) (g : Given) : Option Command :=
  let inPlace := g.has inPlaceOption.name
  match name, g.operands with
  | "generate", [input] =>
    some (.generate input (((g.value? "target").bind Target.ofName?).getD .all))
  | "infer", [input] => some (.infer input)
  | "add", [input, path, key] => some (.add input path key defaultValueText inPlace)
  | "add", [input, path, key, value] => some (.add input path key value inPlace)
  | "remove", [input, path] => some (.remove input path inPlace)
  | "set", [input, path, value] => some (.set input path value inPlace)
  | "modify", [id] =>
    some (.modify id
      { clear := g.has "clear"
        toggle := g.has "toggle-optional"
        isOptional := (g.value? "optional").bind bool?
        key := g.value? "rename"
        type := g.value? "type" })
  | "serve", [] => some (.serve (((g.value? "port").bind port?).getD defaultPort))
  | _, _ => none

def arguments (inner outer : Given) (command : Command) : Arguments :=
  let value? (name : String) := (inner.value? name).or (outer.value? name)
  { config := value? "config"
    mods := value? "mods"
    rootName := value? "root-name"
    style := (value? "declaration").bind style?
    separateNested := (value? "separate-nested").isSome
    camelCase := (value? "camel-case").isSome
    verbose := (value? "verbose").isSome
    command }

def readHelp : List String → Usage
  | [] => .help
  | [name] => if name ∈ helpCommand :: commandNames then .help else .malformed
  | _ => .malformed

def readCommand (outer : Given) (name : String) (ws : List String) : Except Usage Arguments :=
  match commandForms.lookup name with
  | none => .error .malformed
  | some form =>
    match { form with options := form.options ++ commonOptions : Form }.takeAll none {} ws with
    | .error usage => .error usage
    | .ok (inner, _) =>
      match command? name inner with
      | some command => .ok (arguments inner outer command)
      | none => .error .malformed

def Arguments.ofWords (ws : List String) : Except Usage Arguments :=
  match outerForm.takeAll none {} ws with
  | .error usage => .error usage
  | .ok (outer, []) => .error (if outer.options.isEmpty then .nothing else .malformed)
  | .ok (outer, name :: ws) =>
    if name = helpCommand then .error (readHelp ws) else readCommand outer name ws

end TypeSketch.CommandLine
