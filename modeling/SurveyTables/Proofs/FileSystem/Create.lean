import SurveyTables.Proofs.FileSystem.Lookup

/-! Files that are made. A file that is made, or made again with other content, is found where its
path leads, and whatever other paths lead to is what it was. -/
namespace SurveyTables

namespace FileTree

def content? : FileTree → Option (List UInt8)
  | file content => some content
  | directory _ => none

theorem at?_put_self {tree : FileTree} {here : List String} {entries : List (String × FileTree)}
    (found : tree.at? here = some (directory entries)) (name : String) (new : FileTree) :
    (tree.put (here ++ [name]) new).at? (here ++ [name]) = some new := by
  induction here generalizing tree with
  | nil =>
    cases found
    simp [put, at?, Keyed.get?_insert]
  | cons first rest ih =>
    cases tree with
    | file content => contradiction
    | directory above =>
      obtain ⟨child, under, below⟩ := Option.bind_eq_some_iff.1 found
      have inside := ih below
      simp [put, at?, Keyed.get?_insert, under, inside]

/-- A file that is put somewhere changes nothing anywhere else, if no directory was there. -/
theorem map_content?_at?_put {tree : FileTree} {here : List String}
    {entries : List (String × FileTree)} (found : tree.at? here = some (directory entries))
    {name : String} (plain : (Keyed.get? entries name).any isDirectory = false)
    (content : List UInt8) {names : List String} (other : names ≠ here ++ [name]) :
    ((tree.put (here ++ [name]) (file content)).at? names).map content? =
      (tree.at? names).map content? := by
  induction here generalizing tree names with
  | nil =>
    cases found
    cases names with
    | nil => rfl
    | cons step names =>
      by_cases same : step = name
      · subst same
        cases names with
        | nil => contradiction
        | cons next later =>
          cases there : Keyed.get? entries step with
          | none => simp [put, at?, Keyed.get?_insert, there]
          | some child =>
            cases child with
            | file old => simp [put, at?, Keyed.get?_insert, there]
            | directory inside => simp [there, isDirectory] at plain
      · simp [put, at?, Keyed.get?_insert, same]
  | cons first rest ih =>
    cases tree with
    | file content => contradiction
    | directory above =>
      obtain ⟨child, under, below⟩ := Option.bind_eq_some_iff.1 found
      cases names with
      | nil => rfl
      | cons step names =>
        by_cases same : step = first
        · subst same
          have unchanged := ih below fun equal : names = rest ++ [name] => other (equal ▸ rfl)
          simp [put, at?, Keyed.get?_insert, under, unchanged]
        · simp [put, at?, Keyed.get?_insert, same]

theorem at?_append (tree : FileTree) (names more : List String) :
    tree.at? (names ++ more) = (tree.at? names).bind (at? · more) := by
  induction names generalizing tree with
  | nil => rfl
  | cons name names ih =>
    cases tree with
    | file content => rfl
    | directory entries =>
      rw [List.cons_append, at?, at?, Option.bind_assoc]
      exact congrArg _ (funext fun child => ih child)

end FileTree

namespace FileSystem

/-- What stands at a place: nothing, a directory, or a file with its content. -/
def contentAt? (fs : FileSystem) (names : List String) : Option (Option (List UInt8)) :=
  (fs.root.at? names).map FileTree.content?

/-- Where a segment leads hangs on what stands at two places. -/
theorem follow_eq (fs : FileSystem) (here : List String) (segment : String) :
    fs.follow here segment =
      if fs.contentAt? here = some none then
        if FilePath.isIdle segment then some here
        else if segment = ".." then some here.dropLast
        else if (fs.contentAt? (here ++ [segment])).isSome then some (here ++ [segment])
        else none
      else none := by
  have below := fs.root.at?_append here [segment]
  unfold follow contentAt?
  rw [below]
  cases fs.root.at? here with
  | none => rfl
  | some tree =>
    cases tree with
    | file content => rfl
    | directory entries =>
      cases found : Keyed.get? entries segment <;> simp [FileTree.at?, FileTree.content?, found]

theorem read_eq (fs : FileSystem) (path : String) :
    fs.read path =
      if pathLimit ≤ path.utf8ByteSize then .error .pathTooLong
      else
        match (fs.resolve? path).bind fs.contentAt? with
        | none => .error .absent
        | some none => .error .notAFile
        | some (some content) => .ok content := by
  rw [read, lookup?]
  split
  · rfl
  · cases fs.resolve? path with
    | none => rfl
    | some names =>
      simp only [Option.bind_some, contentAt?]
      cases fs.root.at? names with
      | none => rfl
      | some tree => cases tree <;> rfl

/-- The first file system but for a file at one place, where it has no directory. -/
structure Replaces (fs later : FileSystem) (target : List String) (content : List UInt8) :
    Prop where
  workingDirectory : later.workingDirectory = fs.workingDirectory
  there : later.contentAt? target = some (some content)
  before : fs.contentAt? target ≠ some none
  elsewhere : ∀ names, names ≠ target → later.contentAt? names = fs.contentAt? names

namespace Replaces

variable {fs later : FileSystem} {target : List String} {content : List UInt8}

theorem follow_cases (replaces : Replaces fs later target content) (here : List String)
    (segment : String) :
    later.follow here segment = fs.follow here segment ∨
      later.follow here segment = some target ∧ fs.follow here segment = none := by
  rw [follow_eq, follow_eq]
  by_cases inside : here = target
  · rw [inside, replaces.there, if_neg (by simp), if_neg replaces.before]
    exact .inl rfl
  · rw [replaces.elsewhere here inside]
    by_cases last : here ++ [segment] = target
    · rw [last, replaces.there, if_pos Option.isSome_some]
      split_ifs <;> simp
    · rw [replaces.elsewhere _ last]
      exact .inl rfl

theorem follow_target (replaces : Replaces fs later target content) (segment : String) :
    later.follow target segment = none := by
  rw [follow_eq, replaces.there, if_neg (by simp)]

theorem foldlM_follow_cases (replaces : Replaces fs later target content)
    (segments start : List String) :
    segments.foldlM later.follow start = segments.foldlM fs.follow start ∨
      segments.foldlM later.follow start = some target ∧
        segments.foldlM fs.follow start = none := by
  induction segments generalizing start with
  | nil => exact .inl rfl
  | cons segment rest ih =>
    rw [List.foldlM_cons, List.foldlM_cons]
    rcases replaces.follow_cases start segment with same | ⟨found, missing⟩
    · rw [same]
      cases fs.follow start segment with
      | none => exact .inl rfl
      | some next => exact ih next
    · rw [found, missing]
      cases rest with
      | nil => exact .inr ⟨rfl, rfl⟩
      | cons further rest =>
        left
        simp [replaces.follow_target]

theorem resolve?_cases (replaces : Replaces fs later target content) (path : String) :
    later.resolve? path = fs.resolve? path ∨
      later.resolve? path = some target ∧ fs.resolve? path = none := by
  have start : later.origin path = fs.origin path := by
    rw [origin, origin, replaces.workingDirectory]
  rw [resolve?, resolve?, start]
  split
  · exact .inl rfl
  · exact replaces.foldlM_follow_cases _ _

theorem follow_last {here : List String} {name : String}
    (replaces : Replaces fs later (here ++ [name]) content)
    (inside : fs.contentAt? here = some none) (named : FilePath.isIdle name = false)
    (up : name ≠ "..") : later.follow here name = some (here ++ [name]) := by
  have apart : here ≠ here ++ [name] := by simp
  rw [follow_eq, replaces.elsewhere here apart, inside, named, replaces.there]
  simp [up]

theorem read_target (replaces : Replaces fs later target content) {path : String}
    (leads : later.resolve? path = some target) : later.read path = .ok content := by
  obtain ⟨tree, found, file⟩ := Option.map_eq_some_iff.1 replaces.there
  cases tree with
  | directory entries => cases file
  | file stored =>
    cases file
    exact read_eq_ok_iff.2 (lookup?_eq_some_iff.2 ⟨target, leads, found⟩)

theorem read_other (replaces : Replaces fs later target content) {path : String}
    (other : later.resolve? path ≠ some target) : later.read path = fs.read path := by
  have same : later.resolve? path = fs.resolve? path :=
    (replaces.resolve?_cases path).resolve_right fun leads => other leads.1
  rw [read_eq, read_eq, same]
  rw [same] at other
  cases leads : fs.resolve? path with
  | none => rfl
  | some names =>
    have apart : names ≠ target := fun equal => other (by rw [leads, equal])
    rw [Option.bind_some, Option.bind_some, replaces.elsewhere names apart]

end Replaces

/-- A file is made in a directory, under a name that no directory has. -/
theorem exists_of_create? {fs later : FileSystem} {path : String} {content : List UInt8}
    (made : fs.create? path content = some later) : ∃ segments name directory entries,
      Text.split '/' path = segments ++ [name] ∧ isNameable path name = true ∧
      segments.foldlM fs.follow (fs.origin path) = some directory ∧
      fs.root.at? directory = some (.directory entries) ∧
      (Keyed.get? entries name).any FileTree.isDirectory = false ∧
      later = { fs with root := fs.root.put (directory ++ [name]) (.file content) } := by
  simp only [create?, bind, Option.bind_eq_some_iff] at made
  obtain ⟨name, last, made⟩ := made
  obtain ⟨segments, split⟩ := List.getLast?_eq_some_iff.1 last
  split at made
  · contradiction
  · next nameable =>
    obtain ⟨directory, leads, made⟩ := Option.bind_eq_some_iff.1 made
    rw [split, List.dropLast_concat] at leads
    split at made
    · next entries found =>
      split at made
      · contradiction
      · next plain =>
        refine ⟨segments, name, directory, entries, split, by simpa using nameable, leads, found,
          Bool.eq_false_iff.2 plain, ?_⟩
        exact (Option.some.inj made).symm
    · contradiction

theorem replaces_put {fs : FileSystem} {directory : List String}
    {entries : List (String × FileTree)} (found : fs.root.at? directory = some (.directory entries))
    {name : String} (plain : (Keyed.get? entries name).any FileTree.isDirectory = false)
    (content : List UInt8) :
    Replaces fs { fs with root := fs.root.put (directory ++ [name]) (.file content) }
      (directory ++ [name]) content where
  workingDirectory := rfl
  there := by
    rw [contentAt?, FileTree.at?_put_self found]
    rfl
  before := by
    rw [contentAt?, FileTree.at?_append, found]
    cases there : Keyed.get? entries name with
    | none => simp [FileTree.at?, there]
    | some tree =>
      cases tree with
      | file stored => simp [FileTree.at?, there, FileTree.content?]
      | directory inside => simp [there, FileTree.isDirectory] at plain
  elsewhere names other := FileTree.map_content?_at?_put found plain content other

/-- A file is made where its path leads, and nothing else is changed. -/
theorem replaces_of_create? {fs later : FileSystem} {path : String} {content : List UInt8}
    (made : fs.create? path content = some later) :
    ∃ target, Replaces fs later target content ∧ later.resolve? path = some target := by
  obtain ⟨segments, name, directory, entries, split, nameable, leads, found, plain, rfl⟩ :=
    exists_of_create? made
  have replaces := replaces_put found plain content
  simp only [isNameable, Bool.and_eq_true, Bool.not_eq_true', decide_eq_true_eq] at nameable
  obtain ⟨⟨⟨named, up⟩, -⟩, short⟩ := nameable
  refine ⟨directory ++ [name], replaces, resolve?_eq_some_iff.2 ⟨?_, short, ?_⟩⟩
  · rintro rfl
    obtain ⟨rfl, rfl⟩ : segments = [] ∧ name = "" := by
      have alone : [""] = segments ++ [name] := split
      simpa [List.singleton_eq_append_iff] using alone
    contradiction
  · have walked := (replaces.foldlM_follow_cases segments (fs.origin path)).resolve_right
      fun failed => by rw [leads] at failed; cases failed.2
    have inside : fs.contentAt? directory = some none := by
      rw [contentAt?, found]
      rfl
    have last := replaces.follow_last inside named up
    have start (root : FileTree) : origin { fs with root := root } path = fs.origin path := rfl
    rw [split, List.foldlM_append, start, walked, leads]
    simpa using last

theorem read_create? {fs later : FileSystem} {path : String} {content : List UInt8}
    (made : fs.create? path content = some later) : later.read path = .ok content := by
  obtain ⟨target, replaces, leads⟩ := replaces_of_create? made
  exact replaces.read_target leads

/-- Paths that lead elsewhere, or nowhere, are read as before. -/
theorem read_create?_of_ne {fs later : FileSystem} {path other : String} {content : List UInt8}
    (made : fs.create? path content = some later)
    (apart : later.resolve? other ≠ later.resolve? path) : later.read other = fs.read other := by
  obtain ⟨target, replaces, leads⟩ := replaces_of_create? made
  exact replaces.read_other (leads ▸ apart)

end FileSystem

end SurveyTables
