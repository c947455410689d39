import DomainColoring.Decimal.Basic

/-!
# The shortest decimal of a binary64 number

Of all decimals that read back as a given number, the shortest has the fewest digits, and
among those of that length it is the one nearest to the number. `Shortest.of` looks through
the lengths in order. On each it tests the two neighbours of the number on the decimal grid:
if any grid point reads back, one of these does.
-/

namespace DomainColoring.Decimal.Shortest

/-- Which of two equally near decimals is the shortest one. -/
inductive Tie where
  | up
  | toEven
deriving DecidableEq, Repr

/-- Whether `10 ^ e` is at most `n` units. -/
def powerAtMost (e : Int) (n : Nat) : Bool :=
  if 0 ≤ e then Nat.pow 10 e.toNat * Binary64.one ≤ n
  else Binary64.one ≤ n * Nat.pow 10 (-e).toNat

/-- The exponent `e` with `10 ^ e ≤ n < 10 ^ (e + 1)`, for `n` units with `n` positive. The
logarithm to base two gives a guess that is wrong by at most one. -/
def leadingExponent (n : Nat) : Int :=
  let guess := ((n.log2 : Int) - 1074) * 30103 / 100000
  if powerAtMost (guess + 1) n then guess + 1
  else if powerAtMost guess n then guess
  else guess - 1

/-- The two multiples of `10 ^ e` around `n` units, the nearer one first. -/
def neighbours (tie : Tie) (n : Nat) (e : Int) : List Decimal :=
  let num := if 0 ≤ e then n else n * Nat.pow 10 (-e).toNat
  let den := if 0 ≤ e then Binary64.one * Nat.pow 10 e.toNat else Binary64.one
  let low : Decimal := ⟨num / den, e⟩
  let high : Decimal := ⟨num / den + 1, e⟩
  let lowFirst :=
    if 2 * (num % den) < den then true
    else if den < 2 * (num % den) then false
    else match tie with
      | .up => false
      | .toEven => low.coefficient % 2 = 0
  if lowFirst then [low, high] else [high, low]

/-- All digits of `n` units: a unit is `5 ^ 1074 / 10 ^ 1074`. -/
def exact (n : Nat) : Decimal :=
  ⟨n * Nat.pow 5 1074, -1074⟩

/-- The shortest decimal of the magnitude of a finite number. Seventeen digits are always
enough; the exact decimal stands behind them, so that what is returned reads back whatever
the search does. -/
def of (tie : Tie) (x : Float) : Decimal :=
  let n := Binary64.units x
  if n = 0 then ⟨0, 0⟩
  else
    let lead := leadingExponent n
    let readsBack (d : Decimal) : Bool := Binary64.units d.toFloat == n && d.toFloat.isFinite
    let found := (List.range 17).findSome? fun (more : Nat) =>
      (neighbours tie n (lead - more)).find? readsBack
    (found.getD (exact n)).trimmed

end DomainColoring.Decimal.Shortest
