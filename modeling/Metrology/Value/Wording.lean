import Metrology.Quantity.Rendering

/-!
Values in words. Messages quote a value so that its sort can be seen, with texts between quotes; a
text on its own and a quantity on its own are shown without them.
-/

namespace Metrology.Value

variable {K : Type} [Scalar K]

/-- Items between parentheses; a single one is followed by a comma. -/
def tupleText : List String → String
  | [t] => "(" ++ t ++ ",)"
  | ts => "(" ++ String.intercalate ", " ts ++ ")"

/-- Texts as messages quote a tuple of them. -/
def quotedTexts (ss : List String) : String := tupleText (ss.map Text.quote)

/-- An entry as messages quote it. -/
def quotedEntry (e : Entry K) : String :=
  "PrefixDefinition(atom=" ++ Text.quote e.atom ++ ", aliases=" ++ quotedTexts e.aliases ++
    ", scalar=" ++ e.factor.quoted ++ ")"

/-- A unit as messages quote it. -/
def quotedUnit (u : UnitEntry K) : String :=
  "UnitDefinition(atom=" ++ Text.quote u.atom ++ ", aliases=" ++ quotedTexts u.aliases ++
    ", scalar=" ++ u.factor.quoted ++ ", kind=" ++ Text.quote u.kind ++
    ", numerator=" ++ quotedTexts u.numerator ++
    ", denominator=" ++ quotedTexts u.denominator ++ ")"

mutual

/-- The value as messages quote it. -/
def quoted : Value K → Action K String
  | absent => return "None"
  | truth b => return if b then "True" else "False"
  | number n => return n.quoted
  | text s => return Text.quote s
  | list vs => do return "[" ++ String.intercalate ", " (← quotedAll vs) ++ "]"
  | tuple vs => do return tupleText (← quotedAll vs)
  | mapping es => do return "\x7b" ++ String.intercalate ", " (← quotedEntries es) ++ "\x7d"
  | record scalar numerator denominator => do
    return "ScalarAndUnit(scalar=" ++ (← quoted scalar) ++
      ", numerator=" ++ tupleText (← quotedAll numerator) ++
      ", denominator=" ++ tupleText (← quotedAll denominator) ++ ")"
  | quantity q => q.quotedText
  | dimension d => return d.text
  | unitEntry u => return quotedUnit u
  | prefixEntry p => return quotedEntry p
  | registry n => return "<UnitsRegistry " ++ toString n ++ ">"
  | tokenizer n => return "<UnitTokenizer " ++ toString n ++ ">"
  | formatter _ => return "<function>"

def quotedAll : List (Value K) → Action K (List String)
  | [] => return []
  | v :: vs => do return (← quoted v) :: (← quotedAll vs)

def quotedEntries : List (Value K × Value K) → Action K (List String)
  | [] => return []
  | e :: es => do
    let k ← quoted e.1
    let t ← quoted e.2
    return (k ++ ": " ++ t) :: (← quotedEntries es)

end

/-- The value as it is shown on its own. -/
def shown : Value K → Action K String
  | text s => return s
  | quantity q => q.render none
  | v => v.quoted

end Metrology.Value
