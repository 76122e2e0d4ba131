/-! Blank characters and the two readings of a text that pass over them: `trim` drops
them at both ends, `words` keeps what stands between runs of them. -/
namespace SurveyTables.Text

/-- The code points with Unicode's White_Space property, as closed ranges. -/
def blankRanges : List (Nat × Nat) :=
  [(0x09, 0x0D), (0x20, 0x20), (0x85, 0x85), (0xA0, 0xA0), (0x1680, 0x1680), (0x2000, 0x200A),
   (0x2028, 0x2029), (0x202F, 0x202F), (0x205F, 0x205F), (0x3000, 0x3000)]

def isBlank (c : Char) : Bool :=
  blankRanges.any fun range => range.1 ≤ c.toNat && c.toNat ≤ range.2

def trimmed (cs : List Char) : List Char :=
  ((cs.dropWhile isBlank).reverse.dropWhile isBlank).reverse

def trim (s : String) : String := String.ofList (trimmed s.toList)

def addToRuns (c : Char) : List Char × List (List Char) → List Char × List (List Char)
  | (run, later) =>
    if isBlank c then ([], if run.isEmpty then later else run :: later) else (c :: run, later)

/-- The maximal runs of characters that are not blank. The first component is the run that
the text begins with, empty if it begins with a blank. -/
def runs (cs : List Char) : List Char × List (List Char) := cs.foldr addToRuns ([], [])

def words (s : String) : List String :=
  let (run, later) := runs s.toList
  (if run.isEmpty then later else run :: later).map String.ofList

example : trim "\u00a0 a b\u3000\n" = "a b" := by decide +kernel
example : words " 1\u2003\t2  3\u200b" = ["1", "2", "3\u200b"] := by decide +kernel
example : words " " = [] := by decide +kernel

end SurveyTables.Text
