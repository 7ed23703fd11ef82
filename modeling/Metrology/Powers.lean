import Metrology.Fault
import Metrology.Text.Blank

/-!
Powers in unit expressions. A name with an exponent, written `m2`, `m^2` or `m**2`, is repeated;
with a negative one it moves to the denominator. Exponents are single digits up to four. Digits
before a letter belong to a name, and a longer run of digits right after a name is no exponent.
-/

namespace Metrology.Powers

open Text

/-- The greatest exponent. -/
def greatest : Nat := 4

/-- The characters of names: all but separators, carets and ASCII digits. -/
def isNameChar (c : Char) : Bool := !(isSeparator c || c == '^' || isDigit c)

/-- A name with a run of digits after it. -/
structure Term where
  name : List Char
  /-- Whether a caret or two stars stand before the digits. -/
  marked : Bool
  negative : Bool
  digits : List Char
deriving DecidableEq, Repr

/-- What follows the mark of an exponent at the beginning of a text. -/
def afterMark? : List Char → Option (List Char)
  | '^' :: s => some s
  | '*' :: '*' :: s => some s
  | _ => none

/-- The term that a name and the text after it begin with, and the rest; none if they are no term.
The sign of an exponent without a mark is the last character of the name. -/
def readTerm (name text : List Char) : Option (Term × List Char) :=
  let marked := (afterMark? text).isSome
  let s := (afterMark? text).getD text
  let signed := s.head? == some '-'
  let swallowed := !marked && name.getLast? == some '-'
  let s := if signed then s.tail else s
  let digits := s.takeWhile isDigit
  let rest := s.dropWhile isDigit
  if digits.isEmpty || rest.head?.any isLetter then none
  else
    let unsigned := if !signed && swallowed then name.dropLast else name
    some (⟨unsigned, marked, signed || swallowed, digits⟩, rest)

/-- A text with its powers written out, and the names that belong to the other side. -/
structure Expansion where
  kept : List Char
  moved : List (List Char)
deriving DecidableEq, Repr

namespace Expansion

def empty : Expansion := ⟨[], []⟩

def keep (s : List Char) (e : Expansion) : Expansion := { e with kept := s ++ e.kept }

def append (e f : Expansion) : Expansion := ⟨e.kept ++ f.kept, e.moved ++ f.moved⟩

end Expansion

/-- The value of a single digit. -/
def digitValue : List Char → Nat
  | [c] => c.toNat - '0'.toNat
  | _ => 0

/-- A name a number of times, each time with a blank after it. -/
def repeated (n : Nat) (name : List Char) : List Char :=
  (List.replicate n (name ++ [' '])).flatten

/-- What a term stands for. A zero power stands for nothing, but its name has to be a unit. -/
def Term.expand (allowNegative : Bool) (isUnit : List Char → Bool) (t : Term) :
    Except ParseFault Expansion :=
  let power := digitValue t.digits
  if t.name.isEmpty then .error .exponentWithoutUnit
  else if t.negative && !allowNegative then .error (.negativeExponent (String.ofList t.name))
  else if 1 < t.digits.length ∨ greatest < power then
    .error (.exponentOutOfRange (String.ofList t.name))
  else if power = 0 then
    if isUnit t.name then .ok .empty else .error (.unknownUnit (String.ofList t.name))
  else if t.negative then .ok ⟨[], List.replicate power t.name⟩
  else .ok ⟨repeated power t.name, []⟩

theorem length_rest_le_of_readTerm {name text rest : List Char} {t : Term}
    (h : readTerm name text = some (t, rest)) : rest.length ≤ text.length := by
  have mark : ((afterMark? text).getD text).length ≤ text.length := by
    unfold afterMark?
    split <;> simp only [Option.getD_some, Option.getD_none, List.length_cons] <;> omega
  have sign : (if ((afterMark? text).getD text).head? == some '-' then
      ((afterMark? text).getD text).tail else (afterMark? text).getD text).length ≤
        ((afterMark? text).getD text).length := by
    split <;> simp
  unfold readTerm at h
  extract_lets marked s signed swallowed s' digits rest' at h
  split at h
  · cases h
  · rw [← (Prod.mk.inj (Option.some.inj h)).2]
    exact Nat.le_trans (List.dropWhile_suffix _).length_le (Nat.le_trans sign mark)

/-- Writes out the powers of one side of a unit expression, from left to right. -/
def expand (allowNegative : Bool) (isUnit : List Char → Bool) :
    List Char → Except ParseFault Expansion
  | [] => .ok .empty
  | c :: s =>
    if isNameChar c then
      have : (s.dropWhile isNameChar).length ≤ s.length := (List.dropWhile_suffix _).length_le
      match h : readTerm (c :: s.takeWhile isNameChar) (s.dropWhile isNameChar) with
      | none =>
        (expand allowNegative isUnit (s.dropWhile isNameChar)).map
          (.keep (c :: s.takeWhile isNameChar))
      | some (t, rest) =>
        have := length_rest_le_of_readTerm h
        if 1 < t.digits.length ∧ !t.marked then
          (expand allowNegative isUnit rest).map
            (.keep (c :: s.takeWhile isNameChar ++ t.digits))
        else
          match t.expand allowNegative isUnit with
          | .error e => .error e
          | .ok e => (expand allowNegative isUnit rest).map e.append
    else (expand allowNegative isUnit s).map (.keep [c])
termination_by s => s.length
decreasing_by all_goals simp only [List.length_cons]; omega

/-- The texts that are not empty, with a blank between them. -/
def joinBlank (parts : List (List Char)) : List Char :=
  List.intercalate [' '] (parts.filter (!·.isEmpty))

/-- Writes out the powers of both sides; negative powers are allowed in the numerator alone, and the
names that they move come last in the denominator. -/
def expandSides (isUnit : List Char → Bool) (top bottom : List Char) :
    Except ParseFault (List Char × List Char) :=
  match expand true isUnit top with
  | .error e => .error e
  | .ok t =>
    match expand false isUnit bottom with
    | .error e => .error e
    | .ok b => .ok (t.kept, joinBlank (trim b.kept :: t.moved))

end Metrology.Powers
