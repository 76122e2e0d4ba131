/-! Options of a command line. Each takes one value, which follows as the next argument, after
an equals sign, or right behind a short name. -/
namespace SurveyTables.CommandLine

/-- An option is known by a long name after two dashes and perhaps by a letter after one. -/
structure OptionName where
  long : String
  short : Option Char
deriving DecidableEq, Repr

/-- A text that can be the value of the option before it: it does not begin with a dash,
unless it is nothing else. -/
def isValue (argument : String) : Bool :=
  argument = "-" || argument.toList.head? ≠ some '-'

def readOption? (known : List OptionName) (argument : String) :
    Option (OptionName × Option String) :=
  match argument.toList with
  | '-' :: '-' :: cs => do
    let long := cs.takeWhile (· ≠ '=')
    let name ← known.find? (·.long = String.ofList long)
    match cs.dropWhile (· ≠ '=') with
    | [] => return (name, none)
    | _ :: value => return (name, some (String.ofList value))
  | '-' :: c :: cs => do
    let name ← known.find? (·.short = some c)
    match cs with
    | [] => return (name, none)
    | '=' :: value => return (name, some (String.ofList value))
    | value => return (name, some (String.ofList value))
  | _ => none

/-- Adds an option to those that come after it, unless it is given again there. -/
def addOption (name : OptionName) (value : String) (later : List (OptionName × String)) :
    Option (List (OptionName × String)) :=
  if (later.lookup name).isSome then none else some ((name, value) :: later)

/-- Reads options to the end. Two dashes alone end the options; nothing may follow them. -/
def readOptions? (known : List OptionName) : List String → Option (List (OptionName × String))
  | [] => some []
  | ["--"] => some []
  | argument :: rest =>
    match readOption? known argument with
    | none => none
    | some (name, some value) => do addOption name value (← readOptions? known rest)
    | some (name, none) =>
      match rest with
      | value :: rest =>
        if isValue value then do addOption name value (← readOptions? known rest) else none
      | [] => none

def readLeading? (known : List OptionName) :
    List String → Option (List (OptionName × String) × List String)
  | [] => some ([], [])
  | argument :: rest =>
    if isValue argument then some ([], argument :: rest)
    else
      match readOption? known argument with
      | none => none
      | some (name, some value) => do
        let (later, remaining) ← readLeading? known rest
        return (← addOption name value later, remaining)
      | some (name, none) =>
        match rest with
        | value :: rest =>
          if isValue value then do
            let (later, remaining) ← readLeading? known rest
            return (← addOption name value later, remaining)
          else none
        | [] => none

end SurveyTables.CommandLine
