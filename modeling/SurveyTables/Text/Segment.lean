/-! Sequences cut at a separator, and the last segment of a slash-separated path. -/
namespace SurveyTables.Text

/-- The part before the first separator, and the parts after each separator. -/
def cut {α : Type} [DecidableEq α] (separator : α) (xs : List α) : List α × List (List α) :=
  xs.foldr
    (fun x (part, later) => if x = separator then ([], part :: later) else (x :: part, later))
    ([], [])

def parts {α : Type} [DecidableEq α] (separator : α) (xs : List α) : List (List α) :=
  (cut separator xs).1 :: (cut separator xs).2

def split (separator : Char) (s : String) : List String :=
  (parts separator s.toList).map String.ofList

def lastSegment (cs : List Char) : List Char :=
  (cs.reverse.takeWhile (· ≠ '/')).reverse

def startsWith (start s : String) : Bool := start.toList.isPrefixOf s.toList

/-- The leaf of a path: the text after its last slash. -/
def leaf (path : String) : String := String.ofList (lastSegment path.toList)

example : split '/' "a//b" = ["a", "", "b"] := by decide +kernel
example : leaf "children/childs_name" = "childs_name" := by decide +kernel
example : leaf "a/" = "" := by decide +kernel

end SurveyTables.Text
