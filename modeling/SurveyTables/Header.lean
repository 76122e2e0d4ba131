import SurveyTables.Text.DecimalDigit
import SurveyTables.Text.Numeral
import SurveyTables.Text.Segment

/-! Headers of exported columns. A field inside a repeat group is exported under a path that
tells the round by an index, as in `children[1]/age`; a clean header is the leaf of such a
path without any index. -/
namespace SurveyTables.Header

/-- What follows the digits and the closing bracket of an index, of which at least one digit
is read when `seen` says so. -/
def afterIndex? (seen : Bool) : List Char → Option (List Char)
  | [] => none
  | c :: cs =>
    if Text.isDecimalDigit c then afterIndex? true cs
    else if seen && c = ']' then some cs
    else none

theorem length_lt_of_afterIndex? {seen : Bool} {cs rest : List Char}
    (h : afterIndex? seen cs = some rest) : rest.length < cs.length := by
  induction cs generalizing seen with
  | nil => simp [afterIndex?] at h
  | cons c cs ih =>
    rw [afterIndex?] at h
    split at h
    · have := ih h; simp only [List.length_cons]; omega
    · split at h
      · simp only [Option.some.injEq] at h; subst h; simp
      · simp at h

/-- Removes every index, a bracketed run of decimal digits, in one pass from the left. -/
def withoutIndices : List Char → List Char
  | [] => []
  | c :: cs =>
    match _h : (if c = '[' then afterIndex? false cs else none) with
    | some rest => withoutIndices rest
    | none => c :: withoutIndices cs
termination_by cs => cs.length
decreasing_by
  · split at _h
    · have := length_lt_of_afterIndex? _h; simp only [List.length_cons]; omega
    · simp at _h
  · simp

def clean (header : String) : String :=
  String.ofList (Text.lastSegment (withoutIndices header.toList))

def cleanAll (headers : List String) : List String := headers.map clean

/-- The path of a field as seen from its repeat group. A field whose path does not continue
the group's path keeps its whole path. -/
def relativePath (repeatPath fieldPath : List Char) : List Char :=
  if repeatPath.isPrefixOf fieldPath then
    (fieldPath.drop repeatPath.length).dropWhile (· = '/')
  else fieldPath

def ofRound (repeatPath fieldPath : String) (round : Nat) : String :=
  repeatPath ++ "[" ++ Text.natNumeral round ++ "]/" ++
    String.ofList (relativePath repeatPath.toList fieldPath.toList)

example : clean "household[2]/members[10]/details/age" = "age" := by decide +kernel
example : clean "a/b[[1]2]" = "b[2]" := by decide +kernel
example : ofRound "children" "children/details/age" 1 = "children[1]/details/age" := by
  decide +kernel

end SurveyTables.Header
