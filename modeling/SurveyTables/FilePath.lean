import SurveyTables.Text.Segment

/-! Paths of files: texts whose segments are separated by slashes. A path that begins with a
slash is absolute. -/
namespace SurveyTables.FilePath

def isAbsolute (path : String) : Bool := Text.startsWith "/" path

/-- The path of something below a directory. An absolute path is not below it and stays as it
is; a slash is put between the two unless the directory is empty or ends in one. -/
def join (directory path : String) : String :=
  if isAbsolute path then path
  else if directory.isEmpty || directory.toList.getLast? = some '/' then directory ++ path
  else directory ++ "/" ++ path

def isIdle (segment : String) : Bool := segment.isEmpty || segment = "."

def dropIdle : List String → List String
  | [] => []
  | first :: rest => first :: (rest.reverse.dropWhile isIdle).reverse

/-- The directory that a path leads into before its last name, empty for a single name. -/
def parent (path : String) : String :=
  let segments := dropIdle (dropIdle (Text.split '/' path)).dropLast
  if segments = [""] then "/" else String.intercalate "/" segments

example : join "a" "b/c" = "a/b/c" ∧ join "" "b" = "b" := by decide +kernel
example : join "a" "" = "a/" ∧ join "a" "/b" = "/b" := by decide +kernel
example : parent "a/b.yaml" = "a" ∧ parent "b.yaml" = "" ∧ parent "/b.yaml" = "/" ∧
    parent "a/./b.yaml" = "a" ∧ parent "./b.yaml" = "." := by decide +kernel

end SurveyTables.FilePath
