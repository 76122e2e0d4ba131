import Mathlib.Data.List.Basic
import SurveyTables.FileSystem
import SurveyTables.Proofs.Text.Segment

/-! Paths that lead somewhere, and what they lead to. -/
namespace SurveyTables

namespace FilePath

theorem isAbsolute_append {front : String} (some : front ≠ "") (back : String) :
    isAbsolute (front ++ back) = isAbsolute front := by
  obtain ⟨c, cs, begins⟩ := List.exists_cons_of_ne_nil (mt String.toList_eq_nil_iff.1 some)
  rw [isAbsolute, isAbsolute, Text.startsWith, Text.startsWith, String.toList_append, begins]
  rfl

theorem isAbsolute_of_not_mem {path : String} (whole : '/' ∉ path.toList) :
    isAbsolute path = false := by
  rw [isAbsolute, Text.startsWith]
  cases begins : path.toList with
  | nil => rfl
  | cons c cs =>
    have other : '/' ≠ c := fun same => whole (begins ▸ same ▸ List.mem_cons_self)
    rw [show "/".toList = ['/'] from rfl, List.isPrefixOf_cons_cons, beq_false_of_ne other,
      Bool.false_and]

theorem exists_append {directory file : String} (whole : '/' ∉ file.toList) :
    ∃ rest, join directory file = directory ++ rest := by
  rw [join, isAbsolute_of_not_mem whole]
  split
  · contradiction
  · split
    · exact ⟨file, rfl⟩
    · exact ⟨"/" ++ file, String.append_assoc ..⟩

theorem join_ne_empty {directory path : String} (named : path ≠ "") : join directory path ≠ "" := by
  unfold join
  split
  · exact named
  · split <;> simp [named]

/-- A file is named behind the one slash that the directory's path ends in, or is given. -/
theorem exists_stem {directory file : String} (named : directory ≠ "")
    (whole : '/' ∉ file.toList) :
    ∃ stem, join directory file = String.ofList (stem ++ '/' :: file.toList) ∧
      (directory = String.ofList stem ∨ directory = String.ofList (stem ++ ['/'])) := by
  have nonempty : directory.isEmpty = false := by simpa using named
  simp only [join, isAbsolute_of_not_mem whole, nonempty, Bool.false_eq_true, if_false,
    Bool.false_or, decide_eq_true_eq]
  split
  · next ends =>
    obtain ⟨stem, slashed⟩ := List.getLast?_eq_some_iff.1 ends
    refine ⟨stem, ?_, .inr ?_⟩
    · rw [← String.toList_inj]
      simp [slashed]
    · rw [← slashed, String.ofList_toList]
  · refine ⟨directory.toList, ?_, .inl String.ofList_toList.symm⟩
    rw [← String.toList_inj]
    simp

def slashes (n : Nat) : String := String.ofList (List.replicate n '/')

theorem utf8ByteSize_slashes (n : Nat) : (slashes n).utf8ByteSize = n := by
  induction n with
  | zero => rfl
  | succ n ih =>
    have longer : slashes (n + 1) = slashes n ++ "/" := by
      rw [← String.toList_inj, String.toList_append, slashes, slashes, String.toList_ofList,
        String.toList_ofList, List.replicate_succ']
      rfl
    rw [longer, String.utf8ByteSize_append, ih]
    rfl

end FilePath

namespace FileSystem

theorem exists_entries_of_follow {fs : FileSystem} {here there : List String} {segment : String}
    (leads : fs.follow here segment = some there) :
    ∃ entries, fs.root.at? here = some (.directory entries) := by
  unfold follow at leads
  split at leads
  · next entries found => exact ⟨entries, found⟩
  · contradiction

/-- A slash behind the path of a directory changes nothing. -/
theorem foldlM_follow_slash {fs : FileSystem} {stem : List Char} {start here : List String}
    {entries : List (String × FileTree)}
    (leads : (Text.split '/' (String.ofList stem)).foldlM fs.follow start = some here)
    (found : fs.root.at? here = some (.directory entries)) :
    (Text.split '/' (String.ofList (stem ++ ['/']))).foldlM fs.follow start = some here := by
  have idle : fs.follow here "" = some here := by simp [follow, found, FilePath.isIdle]
  have empty : Text.split '/' (String.ofList []) = [""] := rfl
  rw [Text.split_append_cons, empty, List.foldlM_append, leads]
  simp [idle]

theorem resolve?_eq_some_iff {fs : FileSystem} {path : String} {names : List String} :
    fs.resolve? path = some names ↔ path ≠ "" ∧ path.utf8ByteSize < pathLimit ∧
      (Text.split '/' path).foldlM fs.follow (fs.origin path) = some names := by
  simp [resolve?, and_assoc]

theorem lookup?_eq_some_iff {fs : FileSystem} {path : String} {tree : FileTree} :
    fs.lookup? path = some tree ↔
      ∃ names, fs.resolve? path = some names ∧ fs.root.at? names = some tree :=
  Option.bind_eq_some_iff

theorem read_eq_ok_iff {fs : FileSystem} {path : String} {content : List UInt8} :
    fs.read path = .ok content ↔ fs.lookup? path = some (.file content) := by
  rw [read]
  split
  · next long =>
    simp [lookup?, resolve?, long]
  · cases fs.lookup? path with
    | none => simp
    | some tree => cases tree <;> simp

theorem read_eq_notAFile_iff {fs : FileSystem} {path : String} :
    fs.read path = .error .notAFile ↔ fs.isDirectory path = true := by
  rw [read, isDirectory]
  split
  · next long =>
    simp [lookup?, resolve?, long]
  · cases fs.lookup? path with
    | none => simp
    | some tree => cases tree <;> simp [FileTree.isDirectory]

theorem isDirectory_of_read {fs : FileSystem} {directory file : String} {content : List UInt8}
    (named : directory ≠ "") (whole : '/' ∉ file.toList)
    (there : fs.read (FilePath.join directory file) = .ok content) :
    fs.isDirectory directory = true := by
  obtain ⟨names, leads, -⟩ := lookup?_eq_some_iff.1 (read_eq_ok_iff.1 there)
  obtain ⟨-, short, leads⟩ := resolve?_eq_some_iff.1 leads
  obtain ⟨rest, longer⟩ : ∃ rest, FilePath.join directory file = directory ++ rest :=
    FilePath.exists_append whole
  obtain ⟨stem, joined, directed⟩ := FilePath.exists_stem named whole
  have origin : fs.origin (FilePath.join directory file) = fs.origin directory := by
    rw [origin, origin, longer, FilePath.isAbsolute_append named]
  have single : Text.split '/' (String.ofList file.toList) = [file] := by
    rw [String.ofList_toList, Text.split_of_not_mem whole]
  rw [origin, joined, Text.split_append_cons, single, List.foldlM_append] at leads
  obtain ⟨here, stepped, leads⟩ := Option.bind_eq_some_iff.1 leads
  rw [List.foldlM_cons] at leads
  obtain ⟨_, followed, -⟩ := Option.bind_eq_some_iff.1 leads
  obtain ⟨entries, found⟩ := exists_entries_of_follow followed
  have walked : (Text.split '/' directory).foldlM fs.follow (fs.origin directory) = some here := by
    rcases directed with plain | slashed
    · rwa [← plain] at stepped
    · have slash := foldlM_follow_slash stepped found
      rwa [← slashed] at slash
  have shorter : directory.utf8ByteSize < pathLimit := by
    rw [longer, String.utf8ByteSize_append] at short
    omega
  have resolved : fs.resolve? directory = some here :=
    resolve?_eq_some_iff.2 ⟨named, shorter, walked⟩
  simp [isDirectory, lookup?, resolved, found, FileTree.isDirectory]

theorem isDirectory_slashes {fs : FileSystem} {entries : List (String × FileTree)}
    (root : fs.root = .directory entries) {n : Nat} (some : 0 < n) (short : n < pathLimit) :
    fs.isDirectory (FilePath.slashes n) = true := by
  have idle : fs.follow [] "" = .some [] := by
    simp [follow, root, FileTree.at?, FilePath.isIdle]
  have walked (m : Nat) : (List.replicate m "").foldlM fs.follow [] = .some [] := by
    induction m with
    | zero => rfl
    | succ m ih => simp [List.replicate_succ, idle, ih]
  have split : Text.split '/' (FilePath.slashes n) = List.replicate (n + 1) "" := by
    rw [Text.split, FilePath.slashes, String.toList_ofList, Text.parts_replicate,
      List.map_replicate]
  have origin : fs.origin (FilePath.slashes n) = [] := by
    obtain ⟨m, rfl⟩ := Nat.exists_eq_add_of_lt some
    simp [FileSystem.origin, FilePath.isAbsolute, Text.startsWith, FilePath.slashes,
      List.replicate_succ]
  have leads : fs.resolve? (FilePath.slashes n) = .some [] := by
    refine resolve?_eq_some_iff.2 ⟨?_, ?_, ?_⟩
    · intro empty
      have size := FilePath.utf8ByteSize_slashes n
      rw [empty] at size
      exact absurd size (Nat.ne_of_lt some)
    · rwa [FilePath.utf8ByteSize_slashes]
    · rw [split, origin, walked]
  simp [isDirectory, lookup?, leads, FileTree.at?, root, FileTree.isDirectory]

end FileSystem

end SurveyTables
