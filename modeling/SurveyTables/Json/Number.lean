import SurveyTables.Text.Numeral

/-! Numbers as JSON spells them. Every digit is kept, so a number is written back as it was
read, but for its exponent, which is always written with a small `e` and a sign. -/
namespace SurveyTables.Json

open SurveyTables.Text

structure Exponent where
  negative : Bool
  lead : Fin 10
  rest : List (Fin 10)
deriving DecidableEq, Repr

/-- The whole part has no leading zeros, so it is kept as a number. An empty fraction
stands for a number without a decimal point. -/
structure Number where
  negative : Bool
  whole : Nat
  fraction : List (Fin 10)
  exponent : Option Exponent
deriving DecidableEq, Repr

namespace Exponent

def chars (e : Exponent) : List Char :=
  'e' :: (if e.negative then '-' else '+') :: (e.lead :: e.rest).map digitChar

def value (e : Exponent) : Int :=
  let magnitude : Int := ofDigits (e.lead :: e.rest)
  if e.negative then -magnitude else magnitude

def read? : List Char → Option (Option Exponent)
  | [] => some none
  | c :: cs =>
    if c = 'e' ∨ c = 'E' then
      let (negative, cs) := match cs with
        | '-' :: cs => (true, cs)
        | '+' :: cs => (false, cs)
        | cs => (false, cs)
      match leadingDigits cs with
      | (lead :: rest, []) => some (some ⟨negative, lead, rest⟩)
      | _ => none
    else none

end Exponent

namespace Number

def ofInt (n : Int) : Number := ⟨decide (n < 0), n.natAbs, [], none⟩

def ofNat (n : Nat) : Number := ⟨false, n, [], none⟩

def chars (n : Number) : List Char :=
  (if n.negative then ['-'] else []) ++ Nat.toDigits 10 n.whole ++
  (if n.fraction.isEmpty then [] else '.' :: n.fraction.map digitChar) ++
  n.exponent.elim [] Exponent.chars

def text (n : Number) : String := String.ofList n.chars

/-- Reads what follows the sign. A whole part of several digits must not begin with nought, and
a point must have digits on both sides. -/
def readUnsigned? (negative : Bool) (cs : List Char) : Option Number :=
  match leadingDigits cs with
  | ([], _) => none
  | (0 :: _ :: _, _) => none
  | (ds, '.' :: cs) =>
    match leadingDigits cs with
    | ([], _) => none
    | (fraction, cs) => (Exponent.read? cs).map (⟨negative, ofDigits ds, fraction, ·⟩)
  | (ds, cs) => (Exponent.read? cs).map (⟨negative, ofDigits ds, [], ·⟩)

def read? : List Char → Option Number
  | '-' :: cs => readUnsigned? true cs
  | cs => readUnsigned? false cs

def isPlain (n : Number) : Bool := n.fraction.isEmpty && n.exponent.isNone

def signed (n : Number) : Int := if n.negative then -(n.whole : Int) else n.whole

/-- The integer of a plain numeral, if it fits a signed word of 64 bits. -/
def int64? (n : Number) : Option Int :=
  if n.isPlain && fitsInt64 n.signed then some n.signed else none

/-- The digits of the number without its point, as a natural number. -/
def significand (n : Number) : Nat :=
  n.fraction.foldl (fun s d => 10 * s + d.val) n.whole

def scale (n : Number) : Int :=
  n.exponent.elim 0 Exponent.value - n.fraction.length

example : (read? "1E05".toList).map text = some "1e+05" := by decide +kernel
example : (read? "-0.50".toList).map text = some "-0.50" := by decide +kernel
example : read? "01".toList = none ∧ read? "1.".toList = none ∧ read? "+1".toList = none := by
  decide +kernel
example : (read? "-0".toList).bind int64? = some 0 := by decide +kernel
example : (read? "1e2".toList).bind int64? = none := by decide +kernel

end Number

end SurveyTables.Json
