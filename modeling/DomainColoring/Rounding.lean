/-!
# Rounding a quotient of naturals

One rule serves the conversion of decimals to binary and the cutting of decimals to a
number of places: the nearest natural, a half going to the even neighbour.
-/

namespace DomainColoring.Rounding

/-- The natural nearest to `num / den`; a quotient halfway between two goes to the even one. -/
def halfEven (num den : Nat) : Nat :=
  let low := num / den
  let rest := num % den
  if 2 * rest < den then low
  else if den < 2 * rest then low + 1
  else if low % 2 = 0 then low
  else low + 1

theorem halfEven_of_dvd {num den : Nat} (positive : 0 < den) (divides : den ∣ num) :
    halfEven num den = num / den := by
  have noRest : num % den = 0 := Nat.mod_eq_zero_of_dvd divides
  simp [halfEven, noRest, positive]

end DomainColoring.Rounding
