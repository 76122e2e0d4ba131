/-! Decimal numerals in ASCII digits: writing natural numbers and integers, and reading
the numerals whose value fits a signed word of 64 bits. -/
namespace SurveyTables.Text

def digit? (c : Char) : Option (Fin 10) :=
  if h : 48 ≤ c.toNat ∧ c.toNat < 58 then some ⟨c.toNat - 48, by omega⟩ else none

def digitChar (d : Fin 10) : Char := Char.ofNat (48 + d.val)

def leadingDigits : List Char → List (Fin 10) × List Char
  | [] => ([], [])
  | c :: cs =>
    match digit? c with
    | some d => let (ds, rest) := leadingDigits cs; (d :: ds, rest)
    | none => ([], c :: cs)

/-- The number that digits denote, the most significant first. -/
def ofDigits (ds : List (Fin 10)) : Nat := ds.foldl (fun n d => 10 * n + d.val) 0

def natNumeral (n : Nat) : String := String.ofList (Nat.toDigits 10 n)

theorem natNumeral_injective {m n : Nat} (h : natNumeral m = natNumeral n) : m = n := by
  have digits : Nat.toDigits 10 m = Nat.toDigits 10 n := String.ofList_injective h
  have values := congrArg (Nat.ofDigitChars 10 · 0) digits
  simpa only [Nat.ofDigitChars_ten_toDigits] using values

def intNumeral (n : Int) : String :=
  if n < 0 then "-" ++ natNumeral n.natAbs else natNumeral n.natAbs

def readNat? (cs : List Char) : Option Nat :=
  match leadingDigits cs with
  | (d :: ds, []) => some (ofDigits (d :: ds))
  | _ => none

/-- Reads a numeral with at most one sign in front of its digits. -/
def readInt? : List Char → Option Int
  | '-' :: cs => (readNat? cs).map fun n => -(n : Int)
  | '+' :: cs => (readNat? cs).map Int.ofNat
  | cs => (readNat? cs).map Int.ofNat

def int64Bound : Nat := 9223372036854775808

def fitsInt64 (n : Int) : Bool := -(int64Bound : Int) ≤ n && n < (int64Bound : Int)

def readInt64? (s : String) : Option Int := (readInt? s.toList).filter fitsInt64

example : readInt64? "+07" = some 7 := by decide +kernel
example : readInt64? "-9223372036854775808" = some (-9223372036854775808) := by decide +kernel
example : readInt64? "9223372036854775808" = none := by decide +kernel
example : readInt64? "-" = none := by decide +kernel

end SurveyTables.Text
