import SurveyTables.MediaLink
import SurveyTables.Proofs.Text.Segment

/-! Which file a stored name is linked to. Names are compared by their last segments, and the first
attachment that agrees is taken. So a name that no attachment agrees with stays as it is, and the
name of an attachment leads to that attachment unless another file, of the same name in another
directory, is listed before it. -/
namespace SurveyTables.MediaLink

open Text (SameEnd)

/-- An address that names its protocol. -/
def Absolute (url : String) : Prop := ∃ rest, url = "http://" ++ rest ∨ url = "https://" ++ rest

theorem isAbsolute_iff {url : String} : isAbsolute url = true ↔ Absolute url := by
  rw [isAbsolute, Bool.or_eq_true, Text.startsWith_iff, Text.startsWith_iff, Absolute, exists_or]

/-- The address from which an attachment is fetched. -/
inductive LeadsTo (baseUrl : String) (attachment : Attachment) : String → Prop
  | absolute (whole : Absolute attachment.downloadUrl) :
      LeadsTo baseUrl attachment attachment.downloadUrl
  | relative (continued : ¬Absolute attachment.downloadUrl) :
      LeadsTo baseUrl attachment (baseUrl ++ attachment.downloadUrl)

theorem leadsTo_address (baseUrl : String) (attachment : Attachment) :
    LeadsTo baseUrl attachment (address baseUrl attachment) := by
  unfold address
  split
  · next whole => exact .absolute (isAbsolute_iff.1 whole)
  · next continued => exact .relative fun whole => continued (isAbsolute_iff.2 whole)

/-- The first attachment of a list whose file name meets a condition. -/
def First (meets : String → Prop) (attachments : List Attachment) (attachment : Attachment) : Prop :=
  ∃ before after, attachments = before ++ attachment :: after ∧ meets attachment.filename ∧
    ∀ other ∈ before, ¬meets other.filename

theorem find?_eq_some_iff {meets : String → Prop} [DecidablePred meets]
    {attachments : List Attachment} {attachment : Attachment} :
    attachments.find? (fun other => meets other.filename) = some attachment ↔
      First meets attachments attachment := by
  rw [List.find?_eq_some_iff_append, decide_eq_true_eq]
  constructor
  · rintro ⟨holds, before, after, listed, earlier⟩
    exact ⟨before, after, listed, holds, by simpa using earlier⟩
  · rintro ⟨before, after, listed, holds, earlier⟩
    exact ⟨holds, before, after, listed, by simpa using earlier⟩

theorem First.congr {meets meets' : String → Prop} {attachments : List Attachment}
    {attachment : Attachment} (first : First meets attachments attachment)
    (same : ∀ path, meets path ↔ meets' path) : First meets' attachments attachment := by
  obtain ⟨before, after, listed, holds, earlier⟩ := first
  exact ⟨before, after, listed, (same _).1 holds,
    fun other member => mt (same _).2 (earlier other member)⟩

theorem First.append {meets : String → Prop} {attachments : List Attachment}
    {attachment : Attachment} (first : First meets attachments attachment)
    (more : List Attachment) : First meets (attachments ++ more) attachment := by
  obtain ⟨before, after, rfl, holds, earlier⟩ := first
  exact ⟨before, after ++ more, by simp, holds, earlier⟩

theorem First.mem {meets : String → Prop} {attachments : List Attachment}
    {attachment : Attachment} (first : First meets attachments attachment) :
    attachment ∈ attachments := by
  obtain ⟨before, after, rfl, -, -⟩ := first
  exact List.mem_append_right before List.mem_cons_self

theorem resolve_of_first {baseUrl stored : String} {attachments : List Attachment}
    {attachment : Attachment} (first : First (SameEnd · stored) attachments attachment) :
    resolve baseUrl attachments stored = address baseUrl attachment := by
  have found : attachments.find? (fun other => Text.leaf other.filename = Text.leaf stored) =
      some attachment :=
    find?_eq_some_iff.2 (first.congr fun _ => Text.leaf_eq_leaf_iff.symm)
  unfold resolve Attachment.basename
  rw [found]

theorem resolve_of_forall_not {baseUrl stored : String} {attachments : List Attachment}
    (none : ∀ attachment ∈ attachments, ¬SameEnd attachment.filename stored) :
    resolve baseUrl attachments stored = stored := by
  have missing : attachments.find? (fun other => Text.leaf other.filename = Text.leaf stored) =
      Option.none := by
    rw [List.find?_eq_none]
    intro other member
    simpa [Text.leaf_eq_leaf_iff] using none other member
  unfold resolve Attachment.basename
  rw [missing]

/-- How a stored name is linked. -/
structure Links (baseUrl : String) (attachments : List Attachment) (stored link : String) :
    Prop where
  unmatched : (∀ attachment ∈ attachments, ¬SameEnd attachment.filename stored) → link = stored
  matched : ∀ first, First (SameEnd · stored) attachments first → LeadsTo baseUrl first link
  /-- the file that has the stored name is linked if no file before it ends in the same segment -/
  meant : ∀ before own after, attachments = before ++ own :: after → own.filename = stored →
    (∀ other ∈ before, ¬SameEnd other.filename stored) → LeadsTo baseUrl own link
  /-- otherwise another file is linked in its place -/
  missed : ∀ before own after, attachments = before ++ own :: after → own.filename = stored →
    (∀ other ∈ before, other.filename ≠ stored) →
      ∀ other, First (SameEnd · stored) before other →
        other.filename ≠ stored ∧ LeadsTo baseUrl other link

/-- A stored name is linked to the first attachment that ends in the same segment, whether or not
that is the file of this name. -/
theorem links_resolve (baseUrl : String) (attachments : List Attachment) (stored : String) :
    Links baseUrl attachments stored (resolve baseUrl attachments stored) := by
  have matched (first : Attachment) (leads : First (SameEnd · stored) attachments first) :
      LeadsTo baseUrl first (resolve baseUrl attachments stored) := by
    rw [resolve_of_first leads]
    exact leadsTo_address baseUrl first
  refine ⟨resolve_of_forall_not, matched, ?meant, ?missed⟩
  case meant =>
    intro before own after listed named apart
    exact matched own ⟨before, after, listed, named ▸ Text.sameEnd_self stored, apart⟩
  case missed =>
    intro before own after listed named others other first
    refine ⟨others other first.mem, matched other ?_⟩
    rw [listed]
    exact first.append (own :: after)

def photographs : List Attachment :=
  [⟨"monday/roof.jpg", "/files/1", none⟩, ⟨"tuesday/roof.jpg", "/files/2", none⟩]

theorem links_photographs :
    address "https://host" ⟨"tuesday/roof.jpg", "/files/2", none⟩ = "https://host/files/2" ∧
      resolve "https://host" photographs "tuesday/roof.jpg" = "https://host/files/1" ∧
      Links "https://host" photographs "tuesday/roof.jpg" "https://host/files/1" := by
  have first : resolve "https://host" photographs "tuesday/roof.jpg" = "https://host/files/1" := by
    decide +kernel
  have links := links_resolve "https://host" photographs "tuesday/roof.jpg"
  rw [first] at links
  exact ⟨by decide +kernel, first, links⟩

end SurveyTables.MediaLink
