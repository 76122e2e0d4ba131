/-! The binary floating-point number of 64 bits nearest to a decimal one. Exact arithmetic
on natural numbers decides each step; no hardware number is involved. -/
namespace SurveyTables.Binary64

/-- The magnitude `mantissa * 2 ^ exponent`. -/
structure Magnitude where
  mantissa : Nat
  exponent : Int
deriving DecidableEq, Repr

/-- The integer nearest to a quotient; a half goes to the even neighbour. -/
def roundedQuotient (num den : Nat) : Nat :=
  let q := num / den
  let twice := 2 * (num % den)
  if twice < den then q
  else if den < twice then q + 1
  else if q % 2 = 0 then q else q + 1

/-- The quotient `num / den` scaled by a power of two, as numerator and denominator. -/
def scaled (num den : Nat) (power : Int) : Nat × Nat :=
  if 0 ≤ power then (num * Nat.pow 2 power.toNat, den)
  else (num, den * Nat.pow 2 (-power).toNat)

/-- The largest power of two that is at most `num / den`, for positive arguments. -/
def floorLog2 (num den : Nat) : Int :=
  let guess : Int := (num.log2 : Int) - (den.log2 : Int)
  let (n, d) := scaled num den (-guess)
  if d ≤ n then guess else guess - 1

/-- The number nearest to `num / den`, ties to the even mantissa of 53 bits. Below
`2 ^ (-1022)` the spacing stays `2 ^ (-1074)`; from the midpoint above the largest finite
number on there is none. -/
def nearest (num den : Nat) : Option Magnitude :=
  if num = 0 then some ⟨0, 0⟩
  else
    let exponent := max (floorLog2 num den - 52) (-1074)
    let (n, d) := scaled num den (-exponent)
    let mantissa := roundedQuotient n d
    if exponent > 971 ∨ (exponent = 971 ∧ Nat.pow 2 53 ≤ mantissa) then none
    else some ⟨mantissa, exponent⟩

def digitCount (n : Nat) : Nat := (Nat.toDigits 10 n).length

/-- The number nearest to `significand * 10 ^ scale`. Scales that put the value beyond
`10 ^ 310` or below `10 ^ (-330)` are answered without computing the power. -/
def ofDecimal (significand : Nat) (scale : Int) : Option Magnitude :=
  let leading : Int := digitCount significand + scale
  if significand = 0 then some ⟨0, 0⟩
  else if leading > 310 then none
  else if leading < -330 then some ⟨0, 0⟩
  else if 0 ≤ scale then nearest (significand * Nat.pow 10 scale.toNat) 1
  else nearest significand (Nat.pow 10 (-scale).toNat)

def Magnitude.toNat? (m : Magnitude) : Option Nat :=
  if 0 ≤ m.exponent then some (m.mantissa * Nat.pow 2 m.exponent.toNat)
  else
    let unit := Nat.pow 2 (-m.exponent).toNat
    if m.mantissa % unit = 0 then some (m.mantissa / unit) else none

example : (ofDecimal 70 (-1)).bind Magnitude.toNat? = some 7 := by decide +kernel
example : (ofDecimal 75 (-1)).bind Magnitude.toNat? = none := by decide +kernel
example : (ofDecimal 90071992547409930 (-1)).bind Magnitude.toNat? = some 9007199254740992 := by
  decide +kernel
example : ofDecimal 1 400 = none := by decide +kernel
example : ofDecimal 5 (-324) = some ⟨1, -1074⟩ := by decide +kernel

end SurveyTables.Binary64
