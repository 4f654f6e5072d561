import GeneratorBench.Text.CharClass

/-!
Texts in quotes for a reader: the quote, the backslash and what cannot be seen are escaped, all
else stands as it is.
-/

namespace GeneratorBench.Text

def codePoint (c : Char) : String := String.ofList (Nat.toDigits 16 c.toNat)

def escapeChar (c : Char) : String :=
  if c = '\x00' then "\\0"
  else if c = '\t' then "\\t"
  else if c = '\r' then "\\r"
  else if c = '\n' then "\\n"
  else if c = '"' then "\\\""
  else if c = '\\' then "\\\\"
  else if isPrintable c then c.toString
  else "\\u\x7b" ++ codePoint c ++ "\x7d"

def quoted (text : String) : String :=
  "\"" ++ String.join (text.toList.map escapeChar) ++ "\""

end GeneratorBench.Text
