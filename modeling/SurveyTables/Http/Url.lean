import SurveyTables.Text.Hex
import SurveyTables.Text.Segment
import SurveyTables.Text.Utf8

/-! Addresses of requests: their path, their query, and the percent signs in both. -/
namespace SurveyTables.Http

/-- Percent signs followed by two hexadecimal digits stand for a byte; all other characters,
percent signs too, stand for themselves. -/
def percentBytes : List Char → List UInt8
  | '%' :: a :: b :: cs =>
    match Text.hexDigit? a, Text.hexDigit? b with
    | some high, some low => UInt8.ofNat (16 * high + low) :: percentBytes cs
    | _, _ => Text.encode "%" ++ percentBytes (a :: b :: cs)
  | c :: cs => Text.encode (String.ofList [c]) ++ percentBytes cs
  | [] => []

def segmentText? (segment : String) : Option String :=
  Text.decode? (percentBytes segment.toList)

/-- The text that a name or value of a query stands for, in which a plus sign is a space. -/
def queryText? (s : String) : Option String :=
  Text.decode? (percentBytes (s.toList.map fun c => if c = '+' then ' ' else c))

structure Url where
  path : String
  query : String
deriving DecidableEq, Repr

namespace Url

def cutAt (c : Char) (cs : List Char) : List Char × List Char :=
  (cs.takeWhile (· ≠ c), (cs.dropWhile (· ≠ c)).drop 1)

def isProtocolChar (c : Char) : Bool := c.isAlphanum || c = '+' || c = '-' || c = '.'

/-- What follows protocol and host in an address in full, and all of one that begins with its
path. No other address has a path. -/
def fromPath : List Char → List Char
  | '/' :: cs => '/' :: cs
  | cs =>
    match cs.dropWhile isProtocolChar with
    | ':' :: '/' :: '/' :: rest => rest.dropWhile fun c => c ≠ '/' && c ≠ '?' && c ≠ '#'
    | _ => []

/-- A fragment is not part of what is asked for. -/
def read (s : String) : Url :=
  let (path, query) := cutAt '?' (cutAt '#' (fromPath s.toList)).1
  ⟨String.ofList path, String.ofList query⟩

/-- The names and values of the query; a part without an equals sign has an empty value. -/
def queryPairs (url : Url) : List (Option String × Option String) :=
  ((Text.split '&' url.query).filter (!·.isEmpty)).map fun part =>
    let (name, value) := cutAt '=' part.toList
    (queryText? (String.ofList name), queryText? (String.ofList value))

end Url

example : segmentText? "%C3%A9%zz" = some "é%zz" := by decide +kernel
example : (Url.read "/a?x=%2B1&&y=+#f").queryPairs =
    [(some "x", some "+1"), (some "y", some " ")] := by decide +kernel
example : Url.read "http://h:80/a?x" = ⟨"/a", "x"⟩ ∧ Url.read "a" = ⟨"", ""⟩ := by decide +kernel

end SurveyTables.Http
