import Mathlib

/-!
# Numbers that are words

Sums, products and differences of words, taken as naturals. There is no result if it is no word
again, or if there is nothing to subtract from or to divide by.
-/

namespace DomainColoring.Word

/-- A natural as a word, if it is one. -/
def ofNat? (n : Nat) : Option UInt64 :=
  if n < 2 ^ 64 then some (UInt64.ofNat n) else none

def add? (a b : UInt64) : Option UInt64 :=
  ofNat? (a.toNat + b.toNat)

def mul? (a b : UInt64) : Option UInt64 :=
  ofNat? (a.toNat * b.toNat)

def sub? (a b : UInt64) : Option UInt64 :=
  if b.toNat ≤ a.toNat then ofNat? (a.toNat - b.toNat) else none

def div? (a b : UInt64) : Option UInt64 :=
  if b.toNat = 0 then none else ofNat? (a.toNat / b.toNat)

def mod? (a b : UInt64) : Option UInt64 :=
  if b.toNat = 0 then none else ofNat? (a.toNat % b.toNat)

/-- The place of a column in a row, counted row by row. -/
def index? (row width column : UInt64) : Option UInt64 := do
  add? (← mul? row width) column

variable {a b row width column : UInt64}

/-- A word is found from its number. -/
theorem ofNat?_eq {n : Nat} (number : a.toNat = n) : ofNat? n = some a := by
  subst number
  rw [ofNat?, if_pos a.toNat_lt, UInt64.ofNat_toNat]

theorem add?_eq (isWord : a.toNat + b.toNat < 2 ^ 64) : add? a b = some (a + b) :=
  ofNat?_eq (by rw [UInt64.toNat_add, Nat.mod_eq_of_lt isWord])

theorem toNat_mul (isWord : a.toNat * b.toNat < 2 ^ 64) :
    (a * b).toNat = a.toNat * b.toNat := by
  rw [UInt64.toNat_mul, Nat.mod_eq_of_lt isWord]

theorem mul?_eq (isWord : a.toNat * b.toNat < 2 ^ 64) : mul? a b = some (a * b) :=
  ofNat?_eq (toNat_mul isWord)

theorem sub?_eq (enough : b ≤ a) : sub? a b = some (a - b) := by
  rw [sub?, if_pos (UInt64.le_iff_toNat_le.mp enough)]
  exact ofNat?_eq (UInt64.toNat_sub_of_le a b enough)

theorem div?_eq (positive : 0 < b.toNat) : div? a b = some (a / b) := by
  rw [div?, if_neg positive.ne']
  exact ofNat?_eq (UInt64.toNat_div a b)

theorem mod?_eq (positive : 0 < b.toNat) : mod? a b = some (a % b) := by
  rw [mod?, if_neg positive.ne']
  exact ofNat?_eq (UInt64.toNat_mod a b)

/-- As a word, a place may wrap around. -/
theorem toNat_index_eq_mod (row width column : UInt64) :
    (row * width + column).toNat = (row.toNat * width.toNat + column.toNat) % 2 ^ 64 := by
  rw [UInt64.toNat_add, UInt64.toNat_mul, Nat.mod_add_mod]

theorem toNat_index (isWord : row.toNat * width.toNat + column.toNat < 2 ^ 64) :
    (row * width + column).toNat = row.toNat * width.toNat + column.toNat := by
  rw [toNat_index_eq_mod, Nat.mod_eq_of_lt isWord]

theorem index?_eq (isWord : row.toNat * width.toNat + column.toNat < 2 ^ 64) :
    index? row width column = some (row * width + column) := by
  rw [index?, mul?_eq (by omega)]
  exact ofNat?_eq (by rw [toNat_index isWord, toNat_mul (by omega)])

end DomainColoring.Word
