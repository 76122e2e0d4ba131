import SurveyTables.Submission

/-! Links to uploaded files. The answer to a media question is the name of a file; the export
holds the address from which the file can be fetched. -/
namespace SurveyTables.MediaLink

def isAbsolute (url : String) : Bool :=
  Text.startsWith "http://" url || Text.startsWith "https://" url

/-- The address of an attachment. A relative address continues the base address. -/
def address (baseUrl : String) (attachment : Attachment) : String :=
  if isAbsolute attachment.downloadUrl then attachment.downloadUrl
  else baseUrl ++ attachment.downloadUrl

/-- The link for a stored file name: the address of the first attachment whose base name is
the last segment of the stored name, or the name itself if there is none. -/
def resolve (baseUrl : String) (attachments : List Attachment) (stored : String) : String :=
  match attachments.find? fun attachment => attachment.basename = Text.leaf stored with
  | some attachment => address baseUrl attachment
  | none => stored

end SurveyTables.MediaLink
