import SurveyTables.CommandLine.Run

/-! The program. It looks up the files that a command names, lets the command run on them, and
puts the result on the standard output or into the output file. -/
namespace SurveyTables.Main

open CommandLine

def isDirectory (path : String) : IO Bool := do
  try
    (← IO.FS.realPath path).isDir
  catch _ => return false

/-- Adds what the disk has at a path: a directory without its entries, or a whole file. -/
def look (files : FileSystem) (path : String) : IO FileSystem := do
  if ← isDirectory path then return files.makeDirectory path
  try
    return files.place path (← IO.FS.readBinFile path).data.toList
  catch _ => return files

def lookUpForms (files : FileSystem) (config : Config) (uuid : Uuid) : IO FileSystem := do
  let mut files ← look files config.dataDirectory
  for publication in config.publications do
    if publication.uuid = uuid then
      let directory := FilePath.join config.dataDirectory publication.form
      files ← look files directory
      files ← look files (FilePath.join directory Directory.formFile)
      files ← look files (FilePath.join directory Directory.submissionsFile)
  return files

def lookUpConfig (files : FileSystem) (path : String) (uuid : Uuid) : IO FileSystem := do
  let files ← look files path
  match ((files.read path).toOption.bind Text.decode?).bind Config.read? with
  | some config => lookUpForms files (config.locate path) uuid
  | none => return files

/-- Adds the directory of the output file, and what is there in the file's place. -/
def lookUpOutput (files : FileSystem) (path : String) : IO FileSystem := do
  let directory := FilePath.parent path
  let files ← if directory.isEmpty then pure files else look files directory
  look files path

def lookUp (arguments : List String) : IO FileSystem := do
  let path := (← IO.currentDir).toString
  let files := FileSystem.makeDirectory ⟨.directory [], []⟩ path
  let files := { files with workingDirectory := (files.resolve? path).getD [] }
  match Command.read? arguments with
  | none => return files
  | some (.schema config uuid) => lookUpConfig files config uuid
  | some (.data request) =>
    let files ← lookUpConfig files request.config request.uuid
    match request.output with
    | some output => lookUpOutput files output
    | none => return files

def writeOutput (files : FileSystem) (path : String) : IO Unit := do
  match files.read path with
  | .ok content => IO.FS.writeBinFile path ⟨content.toArray⟩
  | .error _ => return ()

def outputOf (arguments : List String) : Option String :=
  match Command.read? arguments with
  | some (.data request) => request.output
  | _ => none

end SurveyTables.Main

open SurveyTables in
def main (arguments : List String) : IO UInt32 := do
  let outcome := CommandLine.run (← Main.lookUp arguments) arguments
  (← IO.getStdout).putStr outcome.stdout
  match outcome.message with
  | some message => (← IO.getStderr).putStrLn message
  | none => pure ()
  match Main.outputOf arguments with
  | some path => Main.writeOutput outcome.files path
  | none => pure ()
  return UInt32.ofNat outcome.exitCode
