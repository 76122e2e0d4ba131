import Mathlib.Data.List.Perm.Basic
import SurveyTables.Config
import SurveyTables.Proofs.Store.Lookup
import SurveyTables.Proofs.Uuid
import SurveyTables.Proofs.Yaml.Fields

/-! Configurations that are accepted. No two publications of one have the same identifier, however
the file spells it, so an identifier is looked up as if the list had no order: it opens the one
publication that has it. A list in which an identifier comes twice is refused, wherever the two
stand. -/
namespace SurveyTables

namespace Publication

/-- An entry of a list of publications spells an identifier. -/
def Spelled (entry : Yaml) (u : Uuid) : Prop :=
  ∃ field s, entry.Gives "uuid" field ∧ field.text? = some s ∧ u.Spells s.toList

theorem spelled_iff {entry : Yaml} {publication : Publication}
    (read : ofYaml? entry = some publication) {u : Uuid} :
    Spelled entry u ↔ publication.uuid = u := by
  simp only [ofYaml?, bind, Option.bind_eq_some_iff] at read
  obtain ⟨found, fields, own, asked, name, -, form, -, active, -, ⟨⟩⟩ := read
  obtain ⟨field, there, taken⟩ := Option.bind_eq_some_iff.1 asked
  obtain ⟨s, text, spelled⟩ := Option.bind_eq_some_iff.1 taken
  have gives (other : Yaml) : found.get? "uuid" = some other ↔ entry.Gives "uuid" other :=
    Yaml.get?_of_fields? fields (by decide)
  constructor
  · rintro ⟨other, t, given, text', spells⟩
    obtain rfl := Option.some.inj (there.symm.trans ((gives other).2 given))
    obtain rfl := Option.some.inj (text.symm.trans text')
    exact (Uuid.read?_eq_some_iff.1 spelled).unique spells
  · rintro rfl
    exact ⟨field, s, (gives field).1 there, text, Uuid.read?_eq_some_iff.1 spelled⟩

/-- An entry spells no identifier that another one spells. -/
def Apart (first second : Yaml) : Prop := ∀ u, Spelled first u → ¬Spelled second u

/-- Entries and the publications that they describe. -/
def Described : List Yaml → List Publication → Prop :=
  List.Forall₂ fun entry publication => ∀ u, Spelled entry u ↔ publication.uuid = u

theorem described_of_mapM {entries : List Yaml} {publications : List Publication}
    (read : entries.mapM ofYaml? = some publications) : Described entries publications :=
  (Sequence.mapM_eq_some_iff.1 read).imp fun _ _ read _ => spelled_iff read

/-- Publications have different identifiers just if their entries are apart. -/
theorem nodup_iff_apart {entries : List Yaml} {publications : List Publication}
    (described : Described entries publications) :
    (publications.map uuid).Nodup ↔ entries.Pairwise Apart := by
  induction described with
  | nil => simp
  | @cons entry publication entries publications spelled later ih =>
    rw [List.map_cons, List.nodup_cons, List.pairwise_cons, ih]
    refine and_congr_left fun _ => ?_
    constructor
    · intro new second member u first again
      obtain ⟨other, listed, spells⟩ := Sequence.exists_of_mem_left later member
      refine new (List.mem_map.2 ⟨other, listed, ?_⟩)
      rw [(spelled u).1 first]
      exact (spells u).1 again
    · intro apart known
      obtain ⟨other, listed, same⟩ := List.mem_map.1 known
      obtain ⟨second, member, spells⟩ := Sequence.exists_of_mem_right later listed
      exact apart second member _ ((spelled _).2 rfl) ((spells _).2 same)

end Publication

namespace Config

/-! ### Identifiers that come twice -/

/-- An identifier comes back in a list, and is the first to do so. -/
def Repeats (uuids : List Uuid) (u : Uuid) : Prop :=
  ∃ before after, uuids = before ++ u :: after ∧ u ∈ before ∧ before.Nodup

section

variable {seen uuids : List Uuid}

theorem not_nodup_of_seen {u : Uuid} (again : u ∈ seen) : ¬(seen.reverse ++ u :: uuids).Nodup :=
  fun walked =>
    (List.nodup_append.1 walked).2.2 u (List.mem_reverse.2 again) u List.mem_cons_self rfl

-- The walk keeps what it has passed, newest first: with `seen` turned round the list is whole.
theorem firstRepeated_eq_none_iff (distinct : seen.Nodup) :
    firstRepeated seen uuids = none ↔ (seen.reverse ++ uuids).Nodup := by
  induction uuids generalizing seen with
  | nil => simp [firstRepeated, distinct]
  | cons v uuids ih =>
    by_cases again : v ∈ seen
    · simp [firstRepeated, again, not_nodup_of_seen again]
    · rw [firstRepeated, if_neg (by simpa using again), ih (List.nodup_cons.2 ⟨again, distinct⟩),
        List.reverse_cons, List.append_assoc, List.singleton_append]

theorem firstRepeated_eq_some_iff (distinct : seen.Nodup) {u : Uuid} :
    firstRepeated seen uuids = some u ↔ ∃ before after, uuids = before ++ u :: after ∧
      u ∈ seen.reverse ++ before ∧ (seen.reverse ++ before).Nodup := by
  induction uuids generalizing seen with
  | nil => simp [firstRepeated]
  | cons v uuids ih =>
    by_cases again : v ∈ seen
    · rw [firstRepeated, if_pos (by simpa using again), Option.some.injEq]
      constructor
      · rintro rfl
        exact ⟨[], uuids, rfl, by simpa using again, by simpa using distinct⟩
      · rintro ⟨before, after, same, -, walked⟩
        cases before with
        | nil => exact (List.cons.inj same).1
        | cons w before =>
          obtain ⟨rfl, -⟩ := List.cons.inj same
          exact absurd walked (not_nodup_of_seen again)
    · rw [firstRepeated, if_neg (by simpa using again), ih (List.nodup_cons.2 ⟨again, distinct⟩)]
      constructor
      · rintro ⟨before, after, rfl, found, walked⟩
        exact ⟨v :: before, after, rfl, by simpa using found, by simpa using walked⟩
      · rintro ⟨before, after, same, found, walked⟩
        cases before with
        | nil =>
          obtain ⟨rfl, -⟩ := List.cons.inj same
          exact absurd (by simpa using found) again
        | cons w before =>
          obtain ⟨rfl, rfl⟩ := List.cons.inj same
          exact ⟨before, after, rfl, by simpa using found, by simpa using walked⟩

end

/-! ### What a file says -/

def Holds (files : FileSystem) (path : String) (value : Yaml) : Prop :=
  ∃ bytes text, files.read path = .ok bytes ∧ Text.decode? bytes = some text ∧
    Yaml.parse? text = some value

/-- The entries that a configuration lists as publications. It lists none if it leaves them out. -/
inductive Lists (value : Yaml) : List Yaml → Prop
  | given {field : Yaml} {entries : List Yaml} (gives : value.Gives "open_data" field)
      (items : field.items? = some entries) : Lists value entries
  | omitted (missing : ∀ field, ¬value.Gives "open_data" field) : Lists value []

def names : List String := ["base_url", "data_dir", "open_data"]

/-- A configuration that says the same as another, but for the order of its publications. -/
structure Reorders (value other : Yaml) : Prop where
  record : ∃ found, other.fields? names = some found
  kept : ∀ name ∈ ["base_url", "data_dir"], ∀ field,
    value.Gives name field ↔ other.Gives name field
  moved : ∃ entries entries', Lists value entries ∧ Lists other entries' ∧ entries.Perm entries'

variable {value other : Yaml} {found : Keyed Yaml} {entries : List Yaml} {config : Config}

theorem lists_iff (fields : value.fields? names = some found) :
    Lists value entries ↔ Yaml.optional "open_data" [] Yaml.items? found = some entries := by
  have gives (field : Yaml) : found.get? "open_data" = some field ↔ value.Gives "open_data" field :=
    Yaml.get?_of_fields? fields (by decide)
  unfold Yaml.optional
  cases there : found.get? "open_data" with
  | none =>
    have missing (field : Yaml) : ¬value.Gives "open_data" field := by
      rw [← gives, there]
      simp
    constructor
    · rintro (⟨given, -⟩ | -)
      · exact absurd given (missing _)
      · rfl
    · rintro ⟨⟩
      exact .omitted missing
  | some field =>
    have given := (gives field).1 there
    constructor
    · rintro (⟨given', items⟩ | missing)
      · obtain rfl := Option.some.inj (there.symm.trans ((gives _).2 given'))
        exact items
      · exact absurd given (missing _)
    · exact .given given

theorem ofYaml?_eq_some_iff :
    ofYaml? value = some config ↔ ∃ found entries, value.fields? names = some found ∧
      Yaml.optional "base_url" "" Yaml.text? found = some config.baseUrl ∧
      Yaml.required "data_dir" Yaml.text? found = some config.dataDirectory ∧
      Lists value entries ∧ entries.mapM Publication.ofYaml? = some config.publications := by
  have split (found : Keyed Yaml) (publications : List Publication) :
      Yaml.optional "open_data" [] (·.items?.bind (·.mapM Publication.ofYaml?)) found =
          some publications ↔
        ∃ entries, Yaml.optional "open_data" [] Yaml.items? found = some entries ∧
          entries.mapM Publication.ofYaml? = some publications := by
    unfold Yaml.optional
    cases found.get? "open_data" with
    | none => simp [eq_comm]
    | some field => simp [Option.bind_eq_some_iff]
  constructor
  · intro read
    simp only [ofYaml?, bind, Option.bind_eq_some_iff] at read
    obtain ⟨found, fields, base, based, directory, placed, publications, listed, ⟨⟩⟩ := read
    obtain ⟨entries, items, each⟩ := (split found publications).1 listed
    exact ⟨found, entries, fields, based, placed, (lists_iff fields).2 items, each⟩
  · rintro ⟨found, entries, fields, based, placed, lists, each⟩
    have listed := (split found _).2 ⟨entries, (lists_iff fields).1 lists, each⟩
    simp only [names] at fields
    simp [ofYaml?, fields, based, placed, listed]

theorem Lists.unique {entries' : List Yaml} (read : ofYaml? value = some config)
    (lists : Lists value entries) (lists' : Lists value entries') : entries = entries' := by
  obtain ⟨found, -, fields, -⟩ := ofYaml?_eq_some_iff.1 read
  exact Option.some.inj (((lists_iff fields).1 lists).symm.trans ((lists_iff fields).1 lists'))

theorem described_of_lists (read : ofYaml? value = some config) (lists : Lists value entries) :
    Publication.Described entries config.publications := by
  obtain ⟨-, entries', -, -, -, lists', each⟩ := ofYaml?_eq_some_iff.1 read
  exact lists.unique read lists' ▸ Publication.described_of_mapM each

/-- Reordered entries are read as reordered publications, and nothing else changes. -/
theorem ofYaml?_of_reorders (read : ofYaml? value = some config) (reorders : Reorders value other) :
    ∃ others, config.publications.Perm others ∧
      ofYaml? other = some { config with publications := others } := by
  obtain ⟨found, entries, fields, based, placed, lists, each⟩ := ofYaml?_eq_some_iff.1 read
  obtain ⟨found', fields'⟩ := reorders.record
  obtain ⟨listed, entries', lists₁, lists', moved⟩ := reorders.moved
  obtain rfl := lists₁.unique read lists
  have same (name : String) (member : name ∈ ["base_url", "data_dir"]) :
      found.get? name = found'.get? name := by
    have asked : name ∈ names := by
      rcases List.mem_pair.1 member with rfl | rfl <;> decide
    ext field
    rw [Yaml.get?_of_fields? fields asked, Yaml.get?_of_fields? fields' asked,
      reorders.kept name member]
  obtain ⟨others, each', perm⟩ :=
    List.perm_comp_forall₂ moved.symm (Sequence.mapM_eq_some_iff.1 each)
  refine ⟨others, perm.symm, ofYaml?_eq_some_iff.2 ⟨found', entries', fields', ?_, ?_, lists',
    Sequence.mapM_eq_some_iff.2 each'⟩⟩
  · rwa [Yaml.optional, ← same "base_url" (by decide)]
  · rwa [Yaml.required, ← same "data_dir" (by decide)]

/-! ### What is accepted -/

variable {files : FileSystem} {path : String}

theorem check_eq_ok_iff {sound : Config} :
    check files config = .ok sound ↔ sound = config ∧
      files.isDirectory config.dataDirectory = true ∧
      (config.publications.map Publication.uuid).Nodup := by
  have none_iff : firstRepeated [] (config.publications.map Publication.uuid) = none ↔
      (config.publications.map Publication.uuid).Nodup :=
    firstRepeated_eq_none_iff List.nodup_nil
  rw [← none_iff, check]
  cases there : files.isDirectory config.dataDirectory
  · simp
  · cases firstRepeated [] (config.publications.map Publication.uuid) <;> simp [eq_comm]

theorem check_eq_duplicate_iff {u : Uuid} :
    check files config = .error (.duplicateUuid u) ↔
      files.isDirectory config.dataDirectory = true ∧
      Repeats (config.publications.map Publication.uuid) u := by
  have some_iff : firstRepeated [] (config.publications.map Publication.uuid) = some u ↔
      Repeats (config.publications.map Publication.uuid) u :=
    firstRepeated_eq_some_iff List.nodup_nil
  rw [← some_iff, check]
  cases there : files.isDirectory config.dataDirectory
  · simp
  · cases firstRepeated [] (config.publications.map Publication.uuid) <;> simp

theorem load_of_holds (holds : Holds files path value) (read : ofYaml? value = some config) :
    load files path = check files (config.locate path) := by
  obtain ⟨bytes, text, content, decoded, parsed⟩ := holds
  simp [load, content, decoded, read?, parsed, read, Except.toOption, bind, Except.bind]

theorem load_cases (files : FileSystem) (path : String) :
    load files path = .error (.unreadable path) ∨ load files path = .error (.invalid path) ∨
      ∃ value config, Holds files path value ∧ ofYaml? value = some config ∧
        load files path = check files (config.locate path) := by
  cases decoded : (files.read path).toOption.bind Text.decode? with
  | none => simp [load, decoded, bind, Except.bind]
  | some text =>
    cases read : read? text with
    | none => simp [load, decoded, read, bind, Except.bind]
    | some config =>
      obtain ⟨bytes, content, text'⟩ := Option.bind_eq_some_iff.1 decoded
      obtain ⟨value, parsed, written⟩ := Option.bind_eq_some_iff.1 read
      have content' : files.read path = .ok bytes := by
        cases there : files.read path <;> simp_all [Except.toOption]
      have holds : Holds files path value := ⟨bytes, text, content', text', parsed⟩
      exact .inr (.inr ⟨value, config, holds, written, load_of_holds holds written⟩)

theorem load_eq_ok_iff :
    load files path = .ok config ↔
      ∃ value written entries, Holds files path value ∧ ofYaml? value = some written ∧
        config = written.locate path ∧ files.isDirectory config.dataDirectory = true ∧
        Lists value entries ∧ entries.Pairwise Publication.Apart := by
  constructor
  · intro loaded
    rcases load_cases files path with failed | failed | ⟨value, written, holds, read, checked⟩
    · cases failed.symm.trans loaded
    · cases failed.symm.trans loaded
    · obtain ⟨rfl, there, nodup⟩ := check_eq_ok_iff.1 (checked.symm.trans loaded)
      obtain ⟨-, entries, -, -, -, lists, -⟩ := ofYaml?_eq_some_iff.1 read
      have apart := (Publication.nodup_iff_apart (described_of_lists read lists)).1 nodup
      exact ⟨value, written, entries, holds, read, rfl, there, lists, apart⟩
  · rintro ⟨value, written, entries, holds, read, rfl, there, lists, apart⟩
    have nodup := (Publication.nodup_iff_apart (described_of_lists read lists)).2 apart
    rw [load_of_holds holds read]
    exact check_eq_ok_iff.2 ⟨rfl, there, nodup⟩

theorem load_eq_duplicate_iff {u : Uuid} :
    load files path = .error (.duplicateUuid u) ↔
      ∃ value written, Holds files path value ∧ ofYaml? value = some written ∧
        files.isDirectory (written.locate path).dataDirectory = true ∧
        Repeats (written.publications.map Publication.uuid) u := by
  constructor
  · intro failed
    rcases load_cases files path with other | other | ⟨value, written, holds, read, checked⟩
    · cases other.symm.trans failed
    · cases other.symm.trans failed
    · exact ⟨value, written, holds, read, check_eq_duplicate_iff.1 (checked.symm.trans failed)⟩
  · rintro ⟨value, written, holds, read, twice⟩
    rw [load_of_holds holds read]
    exact check_eq_duplicate_iff.2 twice

theorem Holds.unique (holds : Holds files path value) (holds' : Holds files path other) :
    value = other := by
  obtain ⟨bytes, text, content, decoded, parsed⟩ := holds
  obtain ⟨bytes', text', content', decoded', parsed'⟩ := holds'
  obtain rfl := Except.ok.inj (content.symm.trans content')
  obtain rfl := Option.some.inj (decoded.symm.trans decoded')
  exact Option.some.inj (parsed.symm.trans parsed')

/-- The entries of an accepted file spell the identifiers of the publications, each its own. -/
theorem apart_of_load (loaded : load files path = .ok config) (holds : Holds files path value)
    (lists : Lists value entries) :
    Publication.Described entries config.publications ∧ entries.Pairwise Publication.Apart := by
  obtain ⟨value', written, entries', holds', read, rfl, -, lists', apart⟩ :=
    load_eq_ok_iff.1 loaded
  obtain rfl := holds'.unique holds
  obtain rfl := lists'.unique read lists
  have described : Publication.Described entries' written.publications :=
    described_of_lists read lists
  exact ⟨described, apart⟩

theorem check_of_load (loaded : load files path = .ok config) :
    check files config = .ok config := by
  rcases load_cases files path with other | other | ⟨_, written, -, -, checked⟩
  · cases other.symm.trans loaded
  · cases other.symm.trans loaded
  · rw [loaded] at checked
    obtain ⟨rfl, sound⟩ := check_eq_ok_iff.1 checked.symm
    exact checked.symm

theorem check_of_perm {others : List Publication} (sound : check files config = .ok config)
    (perm : config.publications.Perm others) :
    check files { config with publications := others } =
      .ok { config with publications := others } := by
  obtain ⟨-, there, nodup⟩ := check_eq_ok_iff.1 sound
  exact check_eq_ok_iff.2 ⟨rfl, there, (perm.map Publication.uuid).nodup_iff.1 nodup⟩

theorem opensListed_of_load (loaded : load files path = .ok config) :
    (config.store files).OpensListed :=
  Store.opensListed _ (check_eq_ok_iff.1 (check_of_load loaded)).2.2

theorem load_of_reorders {later : FileSystem} (loaded : load files path = .ok config)
    (holds : Holds files path value) (reorders : Reorders value other)
    (rewritten : Holds later path other) (there : later.isDirectory config.dataDirectory = true) :
    ∃ others, config.publications.Perm others ∧
      load later path = .ok { config with publications := others } := by
  obtain ⟨value', written, -, holds', read, rfl, -⟩ := load_eq_ok_iff.1 loaded
  obtain rfl := holds'.unique holds
  obtain ⟨others, perm, read'⟩ := ofYaml?_of_reorders read reorders
  have nodup := (check_eq_ok_iff.1 (check_of_load loaded)).2.2
  refine ⟨others, perm, ?_⟩
  rw [load_of_holds rewritten read']
  exact check_eq_ok_iff.2 ⟨rfl, there, (perm.map Publication.uuid).nodup_iff.1 nodup⟩

/-- What a configuration that is accepted holds, and what is refused. -/
structure Guards (files : FileSystem) (path : String) : Prop where
  accepted_iff : ∀ config, load files path = .ok config ↔
    ∃ value written entries, Holds files path value ∧ ofYaml? value = some written ∧
      config = written.locate path ∧ files.isDirectory config.dataDirectory = true ∧
      Lists value entries ∧ entries.Pairwise Publication.Apart
  distinct : ∀ config value entries, load files path = .ok config → Holds files path value →
    Lists value entries →
    Publication.Described entries config.publications ∧ entries.Pairwise Publication.Apart
  opened : ∀ config, load files path = .ok config → (config.store files).OpensListed
  permuted : ∀ config others, load files path = .ok config → config.publications.Perm others →
    let other := { config with publications := others }
    check files other = .ok other ∧
      ∀ u, (other.store files).publication u = (config.store files).publication u
  reordered : ∀ config value other later, load files path = .ok config →
    Holds files path value → Reorders value other → Holds later path other →
    later.isDirectory config.dataDirectory = true →
    ∃ config', load later path = .ok config' ∧
      ∀ u, (config'.store later).publication u = (config.store files).publication u
  refused : ∀ value before first between second after u, Holds files path value →
    Lists value (before ++ first :: between ++ second :: after) →
    Publication.Spelled first u → Publication.Spelled second u →
    ∃ error, load files path = .error error
  duplicate_iff : ∀ u, load files path = .error (.duplicateUuid u) ↔
    ∃ value written, Holds files path value ∧ ofYaml? value = some written ∧
      files.isDirectory (written.locate path).dataDirectory = true ∧
      Repeats (written.publications.map Publication.uuid) u

/-- Whatever a file holds, it is accepted only if an identifier opens at most one publication,
wherever the publications stand. -/
theorem load_guards (files : FileSystem) (path : String) : Guards files path where
  accepted_iff _ := load_eq_ok_iff
  distinct _ _ _ loaded holds lists := apart_of_load loaded holds lists
  opened _ loaded := opensListed_of_load loaded
  permuted config others loaded perm := by
    intro other
    have sound : check files other = .ok other := check_of_perm (check_of_load loaded) perm
    exact ⟨sound, (opensListed_of_load loaded).unordered (other.store files) perm⟩
  reordered config value other later loaded holds reorders rewritten there := by
    obtain ⟨others, perm, loaded'⟩ := load_of_reorders loaded holds reorders rewritten there
    exact ⟨_, loaded', (opensListed_of_load loaded).unordered _ perm⟩
  refused value before first between second after u holds lists spelled again := by
    cases loaded : load files path with
    | error error => exact ⟨error, rfl⟩
    | ok config =>
      have apart := (apart_of_load loaded holds lists).2
      rw [List.pairwise_append] at apart
      have met : first ∈ before ++ first :: between := by simp
      exact absurd again (apart.2.2 first met second List.mem_cons_self u spelled)
  duplicate_iff _ := load_eq_duplicate_iff

def wells : Uuid := ⟨0x67e5504410b1426f9247bb680e5fe0c8⟩

/-- A data directory whose configuration lists the wells, and after them something else. -/
def publishing (more : String) : FileSystem :=
  ⟨.directory [("opendata.yaml", .file (Text.encode ("data_dir: data\nopen_data:\n" ++
      "- uuid: 67e55044-10b1-426f-9247-bb680e5fe0c8\n  form: wells\n" ++ more))),
    ("data", .directory [])], []⟩

theorem load_publishing :
    let files := publishing "- uuid: 0b6b8f3e2a7b4d8e9b536f1b8c7c1d20\n  form: roads\n"
    let twice := publishing "- uuid: URN:UUID:67E55044-10B1-426F-9247-BB680E5FE0C8\n  form: roads\n"
    (∃ config, load files "opendata.yaml" = .ok config ∧
      (config.store files).publication wells = .ok ⟨wells, "", "wells", true⟩) ∧
    load twice "opendata.yaml" = .error (.duplicateUuid wells) := by
  intro files twice
  have loaded : load files "opendata.yaml" = .ok ⟨"", "data", [⟨wells, "", "wells", true⟩,
      ⟨⟨0x0b6b8f3e2a7b4d8e9b536f1b8c7c1d20⟩, "", "roads", true⟩]⟩ := by
    decide +kernel
  have opened := (load_guards files "opendata.yaml").opened _ loaded
  have listed := (opened.found_iff wells _).2 ⟨List.mem_cons_self, rfl, rfl⟩
  exact ⟨⟨_, loaded, listed⟩, by decide +kernel⟩

end Config

end SurveyTables
