import Metrology.Text.Printable

/-!
Texts as messages quote them: between single quotes, or between double quotes where the text holds
single ones only, with a backslash before quotes and backslashes and with characters that do not
show written by their code points.
-/

namespace Metrology.Text

def isPrintable (c : Char) : Bool :=
  !(Printable.hidden.any fun r => decide (r.1 ≤ c.toNat ∧ c.toNat ≤ r.2))

/-- The last `width` hexadecimal digits of a number. -/
def hex : Nat → Nat → List Char
  | 0, _ => []
  | width + 1, n => hex width (n / 16) ++ [Nat.digitChar (n % 16)]

/-- A character between quotes of the kind `quote`. -/
def escaped (quote c : Char) : List Char :=
  if c = quote ∨ c = '\\' then ['\\', c]
  else if c = '\t' then ['\\', 't']
  else if c = '\n' then ['\\', 'n']
  else if c = '\r' then ['\\', 'r']
  else if isPrintable c then [c]
  else if c.toNat < 0x100 then '\\' :: 'x' :: hex 2 c.toNat
  else if c.toNat < 0x10000 then '\\' :: 'u' :: hex 4 c.toNat
  else '\\' :: 'U' :: hex 8 c.toNat

/-- The quoted form of a text. -/
def quoted (s : List Char) : List Char :=
  let quote := if s.contains '\'' && !s.contains '"' then '"' else '\''
  quote :: (s.flatMap (escaped quote) ++ [quote])

/-- The quoted form of a text, as a string. -/
def quote (s : String) : String := String.ofList (quoted s.toList)

end Metrology.Text
