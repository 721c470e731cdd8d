import TypeSketch.Text.Blank

/-! Templates. A placeholder is a name in double braces, with any blanks around it; rendering puts the
variable's value in its place, or leaves the placeholder if there is no such variable. What was put in
is not looked at again. -/

namespace TypeSketch.Template

open Text (isBlank dropBlanks)

/-- Variables and their values; the last value that was set comes first. -/
abbrev Context := List (String × String)

def Context.set (ctx : Context) (name value : String) : Context :=
  (name, value) :: ctx

def Context.get? (ctx : Context) (name : String) : Option String :=
  ctx.lookup name

def isNameStart (c : Char) : Bool := c.isAlpha || c == '_'

def isNamePart (c : Char) : Bool := c.isAlphanum || c == '_'

def placeholder? : List Char → Option (List Char × List Char)
  | '\x7b' :: '\x7b' :: s =>
    match dropBlanks s with
    | [] => none
    | c :: s =>
      if isNameStart c then
        match dropBlanks (s.dropWhile isNamePart) with
        | '\x7d' :: '\x7d' :: rest => some (c :: s.takeWhile isNamePart, rest)
        | _ => none
      else none
  | _ => none

/-- Renders the text after its first `skip` characters. Placeholders are found from left to right and
do not overlap. -/
def renderFrom (ctx : Context) : Nat → List Char → List Char
  | _, [] => []
  | skip + 1, _ :: s => renderFrom ctx skip s
  | 0, c :: s =>
    match placeholder? (c :: s) with
    | none => c :: renderFrom ctx 0 s
    | some (name, rest) =>
      let length := (c :: s).length - rest.length
      let shown :=
        match ctx.get? (String.ofList name) with
        | some value => value.toList
        | none => (c :: s).take length
      shown ++ renderFrom ctx (length - 1) s

def render (ctx : Context) (template : String) : String :=
  String.ofList (renderFrom ctx 0 template.toList)

end TypeSketch.Template
