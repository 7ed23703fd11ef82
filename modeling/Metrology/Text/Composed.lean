import Metrology.Text.Decomposition
import Metrology.Text.CombiningClass

/-!
Composed text: every character is taken apart into a base and its marks, the marks of a base are put
into the order of their classes, and bases and marks are put together again. Two spellings that look
the same, such as the ohm sign and the capital omega, become one.
-/

namespace Metrology.Text

namespace Hangul

def syllables : Nat := 0xAC00
def leads : Nat := 0x1100
def vowels : Nat := 0x1161
def tails : Nat := 0x11A7
def leadCount : Nat := 19
def vowelCount : Nat := 21
def tailCount : Nat := 28

def isSyllable (n : Nat) : Bool :=
  decide (syllables ≤ n ∧ n < syllables + leadCount * vowelCount * tailCount)

/-- The letters of a syllable. -/
def letters (n : Nat) : List Nat :=
  let i := n - syllables
  let lead := leads + i / (vowelCount * tailCount)
  let vowel := vowels + i % (vowelCount * tailCount) / tailCount
  if i % tailCount = 0 then [lead, vowel] else [lead, vowel, tails + i % tailCount]

/-- The syllable that a lead and a vowel begin, or that a tail completes. -/
def join (n m : Nat) : Option Nat :=
  if leads ≤ n ∧ n < leads + leadCount ∧ vowels ≤ m ∧ m < vowels + vowelCount then
    some (syllables + ((n - leads) * vowelCount + (m - vowels)) * tailCount)
  else if isSyllable n ∧ (n - syllables) % tailCount = 0 ∧ tails < m ∧ m < tails + tailCount then
    some (n + (m - tails))
  else none

end Hangul

namespace Composed

/-- The members of a stretch of compatibility ideographs. -/
def ideograph? (n : Nat) : Option Nat :=
  Decomposition.ideographs.findSome? fun r => if r.1 ≤ n then r.2[n - r.1]? else none

/-- One step of taking a code point apart. -/
def parts? (n : Nat) : Option (List Nat) :=
  if n < 0xC0 then none
  else if Hangul.isSyllable n then some (Hangul.letters n)
  else match (Decomposition.joined ++ Decomposition.parted).lookup n with
    | some (a, b) => some [a, b]
    | none => (Decomposition.renamed.lookup n <|> ideograph? n).map ([·])

/-- A code point taken apart as far as it goes; the fuel bounds the depth, which is four. -/
def takeApart : Nat → Nat → List Nat
  | 0, n => [n]
  | fuel + 1, n =>
    match parts? n with
    | none => [n]
    | some ps => ps.flatMap (takeApart fuel)

/-- The combining class of a code point. -/
def rank (n : Nat) : Nat :=
  if n < 0x300 then 0
  else (CombiningClass.ranges.findSome? fun r =>
    if r.1 ≤ n ∧ n ≤ r.2.1 then some r.2.2 else none).getD 0

/-- Puts a ranked code point before a reversed text, below the marks of higher rank. -/
def place (x : Nat × Nat) : List (Nat × Nat) → List (Nat × Nat)
  | [] => [x]
  | y :: ys => if x.2 ≠ 0 ∧ x.2 < y.2 then y :: place x ys else x :: y :: ys

/-- Code points with their ranks, the marks of each base in order of rank. -/
def ordered (ns : List Nat) : List (Nat × Nat) :=
  (ns.foldl (fun out n => place (n, rank n) out) []).reverse

/-- The code point that two others make. -/
def join (n m : Nat) : Option Nat :=
  match Hangul.join n m with
  | some s => some s
  | none => (Decomposition.joined.find? fun t => t.2.1 == n && t.2.2 == m).map (·.1)

/-- Puts the text together again. `held` are the marks after the current base, last one first, that
could not be joined to it; one of them hides every mark of no higher rank from the base. -/
def assemble (base : Nat) (held : List (Nat × Nat)) : List (Nat × Nat) → List Nat
  | [] => base :: held.reverse.map (·.1)
  | (n, r) :: rest =>
    let hidden := match held with
      | [] => false
      | (_, s) :: _ => decide (r ≤ s)
    match (if hidden then none else join base n) with
    | some c => assemble c held rest
    | none =>
      if r = 0 then base :: (held.reverse.map (·.1) ++ assemble n [] rest)
      else assemble base ((n, r) :: held) rest

/-- Starts to put together at the first code point that is a base. -/
def assembleAll : List (Nat × Nat) → List Nat
  | [] => []
  | (n, r) :: rest => if r = 0 then assemble n [] rest else n :: assembleAll rest

end Composed

/-- The composed form of a text. A text of characters below the combining marks is composed already.
-/
def composed (s : List Char) : List Char :=
  if s.all (·.toNat < 0x300) then s
  else
    (Composed.assembleAll
      (Composed.ordered (s.flatMap fun c => Composed.takeApart 5 c.toNat))).map Char.ofNat

@[simp] theorem composed_nil : composed [] = [] := rfl

end Metrology.Text
