/-!
Whether one text occurs in another.
-/

namespace GeneratorBench.Text

def occursIn (part : List Char) : List Char → Bool
  | [] => part.isEmpty
  | c :: cs => part.isPrefixOf (c :: cs) || occursIn part cs

def contains (text part : String) : Bool := occursIn part.toList text.toList

end GeneratorBench.Text
