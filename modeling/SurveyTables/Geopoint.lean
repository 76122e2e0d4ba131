import SurveyTables.Keyed
import SurveyTables.Text.Blank

/-! Answers to geopoint questions. A position is stored as up to four words; each has a column
of its own. -/
namespace SurveyTables.Geopoint

def parts : List String := ["latitude", "longitude", "altitude", "precision"]

def column (stem fieldName part : String) : String := stem ++ "_" ++ fieldName ++ "_" ++ part

def columns (stem fieldName : String) : List String := parts.map (column stem fieldName)

/-- The words of a stored position, one for each part: words beyond the fourth are dropped,
parts that are not given are empty. -/
def words (stored : String) : List String :=
  let given := Text.words stored
  (List.range parts.length).map fun place => given.getD place ""

def unpack (stem fieldName stored : String) : Keyed String :=
  Keyed.ofList ((columns stem fieldName).zip (words stored))

end SurveyTables.Geopoint
