import Metrology.Numeral

/-!
The shortest decimal that reads back as a given binary number: of all decimals nearer to it than to
its neighbours the one with the fewest digits, and of those the nearest one.
-/

namespace Metrology.Shortest

/-- The numbers that round to `center · 2 ^ (power - 2)`: they lie between `lower` and `upper`
quarter units, and the ends belong to them when `closed` holds. -/
structure Neighbourhood where
  lower : Nat
  center : Nat
  upper : Nat
  power : Int
  closed : Bool

/-- The neighbourhood of `significand · 2 ^ power`. Below the first significand of a binade the next
number is only half as far away, which `narrow` says. Ties go to even significands. -/
def Neighbourhood.ofBinary (significand : Nat) (power : Int) (narrow : Bool) : Neighbourhood where
  lower := 4 * significand - (if narrow then 1 else 2)
  center := 4 * significand
  upper := 4 * significand + 2
  power := power
  closed := significand % 2 = 0

namespace Neighbourhood

variable (n : Neighbourhood)

/-- A quarter unit on the grid of the multiples of `10 ^ k`, as a fraction of natural numbers. -/
def scale (k : Int) : Nat × Nat :=
  (Nat.pow 2 (n.power - 2).toNat * Nat.pow 10 (-k).toNat,
    Nat.pow 2 (2 - n.power).toNat * Nat.pow 10 k.toNat)

/-- Whether `d · 10 ^ k` lies in the neighbourhood. -/
def contains (k : Int) (d : Nat) : Bool :=
  let s := n.scale k
  if n.closed then decide (n.lower * s.1 ≤ d * s.2 ∧ d * s.2 ≤ n.upper * s.1)
  else decide (n.lower * s.1 < d * s.2 ∧ d * s.2 < n.upper * s.1)

/-- The point of the grid in the neighbourhood that is nearest to the center; an even one wins a
tie. -/
def nearest? (k : Int) : Option Nat :=
  let s := n.scale k
  let c := n.center * s.1
  let below := c / s.2
  let above := below + 1
  match n.contains k below, n.contains k above with
  | true, false => some below
  | false, true => some above
  | false, false => none
  | true, true =>
    let down := c - below * s.2
    let up := above * s.2 - c
    if down < up ∨ (down = up ∧ below % 2 = 0) then some below else some above

/-- The first grid with a point in the neighbourhood, tried from coarse to fine. -/
def search : Nat → Int → Decimal
  | 0, k => ⟨false, n.center, k⟩
  | steps + 1, k =>
    match n.nearest? k with
    | some d => (Decimal.mk false d k).trim
    | none => search steps (k - 1)

/-- A power of ten at or above every number of the neighbourhood. -/
def ceiling : Int :=
  ((n.center.log2 : Int) + n.power) * 30103 / 100000 + 2

/-- The shortest decimal in the neighbourhood; seventeen digits always suffice for a significand of
fifty-three bits. -/
def shortest : Decimal := n.search 24 n.ceiling

end Neighbourhood

end Metrology.Shortest
