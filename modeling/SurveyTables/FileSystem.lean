import SurveyTables.FilePath
import SurveyTables.Keyed

/-! Files and directories, as far as an export sees them: a tree with a working directory, in
which paths are resolved segment by segment. -/
namespace SurveyTables

inductive FileTree where
  | file (content : List UInt8)
  | directory (entries : List (String × FileTree))

namespace FileTree

def isDirectory : FileTree → Bool
  | file _ => false
  | directory _ => true

def at? : FileTree → List String → Option FileTree
  | tree, [] => some tree
  | directory entries, name :: names => (Keyed.get? entries name).bind (at? · names)
  | file _, _ :: _ => none

/-- Puts something where the names lead, in directories that are made if they are missing.
Nothing can be put below a file. -/
def put : FileTree → List String → FileTree → FileTree
  | _, [], new => new
  | directory entries, name :: names, new =>
    directory (Keyed.insert name
      (put ((Keyed.get? entries name).getD (directory [])) names new) entries)
  | file content, _ :: _, _ => file content

def remove : FileTree → List String → FileTree
  | tree, [] => tree
  | directory entries, [name] => directory (entries.filter (·.1 ≠ name))
  | directory entries, name :: names =>
    match Keyed.get? entries name with
    | some child => directory (Keyed.insert name (remove child names) entries)
    | none => directory entries
  | file content, _ :: _ => file content

end FileTree

inductive ReadFailure where
  | absent
  | notAFile
  | pathTooLong
deriving DecidableEq, Repr

structure FileSystem where
  root : FileTree
  workingDirectory : List String

namespace FileSystem

/-- Goes on from a directory by one segment. Two dots lead to the enclosing directory, from
the root to the root. -/
def follow (fs : FileSystem) (here : List String) (segment : String) : Option (List String) :=
  match fs.root.at? here with
  | some (.directory entries) =>
    if FilePath.isIdle segment then some here
    else if segment = ".." then some here.dropLast
    else if (Keyed.get? entries segment).isSome then some (here ++ [segment])
    else none
  | _ => none

def origin (fs : FileSystem) (path : String) : List String :=
  if FilePath.isAbsolute path then [] else fs.workingDirectory

/-- The number of bytes from which on a path is too long to lead anywhere. -/
def pathLimit : Nat := 4096

def nameLimit : Nat := 255

def resolve? (fs : FileSystem) (path : String) : Option (List String) :=
  if path.isEmpty || pathLimit ≤ path.utf8ByteSize then none
  else (Text.split '/' path).foldlM fs.follow (fs.origin path)

def lookup? (fs : FileSystem) (path : String) : Option FileTree :=
  (fs.resolve? path).bind fs.root.at?

def isDirectory (fs : FileSystem) (path : String) : Bool :=
  (fs.lookup? path).any FileTree.isDirectory

def read (fs : FileSystem) (path : String) : Except ReadFailure (List UInt8) :=
  if pathLimit ≤ path.utf8ByteSize then .error .pathTooLong
  else
    match fs.lookup? path with
    | none => .error .absent
    | some (.directory _) => .error .notAFile
    | some (.file content) => .ok content

def isNameable (path name : String) : Bool :=
  !FilePath.isIdle name && name ≠ ".." && name.utf8ByteSize ≤ nameLimit &&
    path.utf8ByteSize < pathLimit

/-- Makes a file with the given content, in place of the file that is there. The directory
must exist, and the path must end in a name that no directory has. -/
def create? (fs : FileSystem) (path : String) (content : List UInt8) : Option FileSystem := do
  let segments := Text.split '/' path
  let name ← segments.getLast?
  if !isNameable path name then none
  let directory ← segments.dropLast.foldlM fs.follow (fs.origin path)
  match fs.root.at? directory with
  | some (.directory entries) =>
    if (Keyed.get? entries name).any FileTree.isDirectory then none
    else some { fs with root := fs.root.put (directory ++ [name]) (.file content) }
  | _ => none

def enter (state : FileSystem × List String) (segment : String) : FileSystem × List String :=
  let (fs, here) := state
  if FilePath.isIdle segment then (fs, here)
  else if segment = ".." then (fs, here.dropLast)
  else
    let names := here ++ [segment]
    if (fs.root.at? names).isSome then (fs, names)
    else ({ fs with root := fs.root.put names (.directory []) }, names)

def makeDirectory (fs : FileSystem) (path : String) : FileSystem :=
  ((Text.split '/' path).foldl enter (fs, fs.origin path)).1

def place (fs : FileSystem) (path : String) (content : List UInt8) : FileSystem :=
  let segments := Text.split '/' path
  let (fs, directory) := segments.dropLast.foldl enter (fs, fs.origin path)
  { fs with root := fs.root.put (directory ++ segments.getLast?.toList) (.file content) }

def remove (fs : FileSystem) (path : String) : FileSystem :=
  match fs.resolve? path with
  | some names => { fs with root := fs.root.remove names }
  | none => fs

end FileSystem

end SurveyTables
