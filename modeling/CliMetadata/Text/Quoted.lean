import CliMetadata.Text.Ascii
import CliMetadata.Text.Escaped

set_option autoImplicit false

namespace CliMetadata.Text

def openBrace : String := "\x7b"
def closeBrace : String := "\x7d"

def quoteChar (c : Char) : String :=
  if c == '\x00' then "\\0"
  else if c == '\t' then "\\t"
  else if c == '\r' then "\\r"
  else if c == '\n' then "\\n"
  else if c == '\\' || c == '"' then "\\" ++ c.toString
  else if c.toNat < 0x20 || c.toNat == 0x7F || isEscaped c then
    "\\u" ++ openBrace ++ Hex.lower 1 c.toNat ++ closeBrace
  else c.toString

def quoted (s : String) : String :=
  "\"" ++ String.join (s.toList.map quoteChar) ++ "\""

def field (entry : String × String) : String := entry.1 ++ ": " ++ entry.2

def record (name : String) (fields : List (String × String)) : String :=
  name ++ " " ++ openBrace ++ " " ++ ", ".intercalate (fields.map field) ++ " " ++ closeBrace

def openRecord (name : String) (fields : List (String × String)) : String :=
  name ++ " " ++ openBrace ++ " " ++ ", ".intercalate (fields.map field ++ [".."]) ++ " " ++
    closeBrace

def optional (text : Option String) : String :=
  match text with
  | some text => "Some(" ++ text ++ ")"
  | none => "None"

def flagWord (flags : Nat) : String := "0x" ++ Hex.lower 4 flags

end CliMetadata.Text
