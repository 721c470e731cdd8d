import TypeSketch.Text.Case
import TypeSketch.Text.Hex
import TypeSketch.Text.HiddenTable

/-! Texts quoted for a reader: double quotes around, and every character that could mislead the eye
spelled out. This is the form in which messages cite a text; documents are written by the JSON
writer. -/

namespace TypeSketch.Text

def citeChar : Char → List Char
  | '\x00' => ['\\', '0']
  | '\t' => ['\\', 't']
  | '\r' => ['\\', 'r']
  | '\n' => ['\\', 'n']
  | '"' => ['\\', '"']
  | '\\' => ['\\', '\\']
  | c =>
    if inRanges hiddenRanges c then ['\\', 'u', '\x7b'] ++ hex c.toNat ++ ['\x7d'] else [c]

def cited (s : String) : String :=
  String.ofList ('"' :: s.toList.flatMap citeChar ++ ['"'])

end TypeSketch.Text
