import Chip8.Headless.Directory
import Mathlib.Data.List.Induction

/-!
# Walks through directories

A walk stays in folders up to its last name, and only the last name can lead to
an entry: a file, or a place where one could be. So a path that leads to an
entry is a walk to a folder and a name that is looked up there, and that name is
the one that the path shows as its file's.

Writing a file makes a difference to the lookup of its own names only. These are
never those of a folder that a walk goes through, so the walk to the file is the
same as before, and what is found at the path is what was written.
-/
namespace Chip8.Headless

/-- The names of a file or of a place where one could be. Folders have none. -/
def Place.names? : Place → Option (List String)
  | .file names _ | .vacant names => some names
  | .inside _ => none

namespace Directory

section

variable (directory : Directory)

theorem lookup_eq (folder : List String) (name : String) :
    directory.lookup folder name =
      if name = "." then .ok (.inside folder)
      else if name = ".." then .ok (.inside folder.dropLast)
      else if name.utf8ByteSize ≤ longestName then .ok (directory.place (folder ++ [name]))
      else .error .nameTooLong := by
  unfold lookup
  split <;> simp_all

theorem place_inside_or_names (names : List String) :
    directory.place names = .inside names ∨ (directory.place names).names? = some names := by
  unfold place
  split
  · exact Or.inr rfl
  · split
    · exact Or.inl rfl
    · exact Or.inr rfl

end

section

variable {directory : Directory} {names target : List String} {start place : Place}

/-- Only folders that do not refuse it can be entered. -/
theorem enter_iff {name : String} : directory.enter start name = .ok place ↔
    ∃ folder, start = .inside folder ∧ (directory.accessTo folder).search = none ∧
      directory.lookup folder name = .ok place := by
  cases start with
  | file | vacant => exact ⟨nofun, by rintro ⟨_, ⟨⟩, _⟩⟩
  | inside folder =>
    simp only [enter, Place.inside.injEq, exists_eq_left']
    cases (directory.accessTo folder).search with
    | none => simp
    | some fault => simp

/-- Of the names that are looked up, the two that stand for a folder lead to folders. -/
theorem lookup_entry {folder : List String} {name : String}
    (found : directory.lookup folder name = .ok place) (leads : place.names? = some target) :
    name ≠ "." ∧ name ≠ ".." ∧ name.utf8ByteSize ≤ longestName ∧
      directory.place (folder ++ [name]) = place ∧ target = folder ++ [name] := by
  rw [lookup_eq] at found
  by_cases here : name = "."
  · rw [if_pos here] at found
    cases found
    cases leads
  rw [if_neg here] at found
  by_cases above : name = ".."
  · rw [if_pos above] at found
    cases found
    cases leads
  rw [if_neg above] at found
  by_cases short : name.utf8ByteSize ≤ longestName
  · rw [if_pos short] at found
    cases found
    refine ⟨here, above, short, rfl, ?_⟩
    rcases directory.place_inside_or_names (folder ++ [name]) with inside | entry
    · rw [inside] at leads
      cases leads
    · exact Option.some.inj (leads.symm.trans entry)
  · rw [if_neg short] at found
    cases found

theorem walk_concat {folders : List String} {last : String} :
    (folders ++ [last]).foldlM directory.enter start = .ok place ↔
      ∃ reached, folders.foldlM directory.enter start = .ok reached ∧
        directory.enter reached last = .ok place := by
  rw [List.foldlM_append]
  cases folders.foldlM directory.enter start with
  | error fault => exact ⟨nofun, by rintro ⟨_, ⟨⟩, _⟩⟩
  | ok reached =>
    change (directory.enter reached last >>= pure) = _ ↔ _
    simp

/-- A walk to an entry is a walk to a folder, and a name that is looked up there. -/
theorem walk_entry (walked : names.foldlM directory.enter start = .ok place)
    (leads : place.names? = some target) (starts : start.names? = none) :
    ∃ folders last folder, names = folders ++ [last] ∧
      folders.foldlM directory.enter start = .ok (.inside folder) ∧
      (directory.accessTo folder).search = none ∧ last ≠ "." ∧ last ≠ ".." ∧
      last.utf8ByteSize ≤ longestName ∧
      directory.place (folder ++ [last]) = place ∧ target = folder ++ [last] := by
  cases names using List.reverseRecOn with
  | nil =>
    cases walked
    cases starts.symm.trans leads
  | append_singleton folders last =>
    obtain ⟨reached, first, entered⟩ := walk_concat.mp walked
    obtain ⟨folder, rfl, free, found⟩ := enter_iff.mp entered
    exact ⟨folders, last, folder, rfl, first, free, lookup_entry found leads⟩

theorem place_inside_iff : directory.place names = .inside names ↔
    (∀ file ∈ directory.files, names ≠ file.1) ∧
      ((∃ file ∈ directory.files, names <+: file.1) ∨
        (∃ folder ∈ directory.folders, names <+: folder) ∨ names <+: directory.working) := by
  have unlisted : directory.files.lookup names = none ↔
      ∀ file ∈ directory.files, names ≠ file.1 := by simp
  have known : directory.hasFolder names = true ↔
      (∃ file ∈ directory.files, names <+: file.1) ∨
        (∃ folder ∈ directory.folders, names <+: folder) ∨ names <+: directory.working := by
    simp [hasFolder, or_assoc]
  rw [← unlisted, ← known]
  unfold place
  cases directory.files.lookup names with
  | some bytes => simp
  | none => simp

theorem place_write_same (bytes : Array UInt8) :
    (directory.write names bytes).place names = .file names bytes := by
  simp [place, write]

/-- A file that is written takes no folder away, and only its own names lead to it. -/
theorem place_write_inside (bytes : Array UInt8) (inside : directory.place names = .inside names)
    (entry : (directory.place target).names? = some target) :
    (directory.write target bytes).place names = .inside names := by
  have other : names ≠ target := by
    rintro rfl
    rw [inside] at entry
    cases entry
  have written (file : List String × Array UInt8) :
      file ∈ (directory.write target bytes).files ↔
        file = (target, bytes) ∨ file ∈ directory.files ∧ file.1 ≠ target := by
    simp [write]
  obtain ⟨unlisted, known⟩ := place_inside_iff.mp inside
  refine place_inside_iff.mpr ⟨fun file member => ?_, known.imp_left ?_⟩
  · rcases (written file).mp member with rfl | ⟨old, -⟩
    · exact other
    · exact unlisted file old
  · rintro ⟨file, member, within⟩
    -- A file that is replaced was in the same folders as the new one.
    by_cases replaced : file.1 = target
    · exact ⟨(target, bytes), (written _).mpr (Or.inl rfl), replaced ▸ within⟩
    · exact ⟨file, (written file).mpr (Or.inr ⟨member, replaced⟩), within⟩

theorem lookup_write {folder : List String} {name : String} (bytes : Array UInt8)
    (found : directory.lookup folder name = .ok place) (stays : place.names? = none)
    (entry : (directory.place target).names? = some target) :
    (directory.write target bytes).lookup folder name = .ok place := by
  rw [lookup_eq] at found ⊢
  by_cases here : name = "."
  · rw [if_pos here] at found ⊢
    exact found
  rw [if_neg here] at found ⊢
  by_cases above : name = ".."
  · rw [if_pos above] at found ⊢
    exact found
  rw [if_neg above] at found ⊢
  rcases directory.place_inside_or_names (folder ++ [name]) with inside | other
  · rw [inside] at found
    rw [place_write_inside bytes inside entry]
    exact found
  · split at found <;> cases found
    cases stays.symm.trans other

/-- A walk to a folder is the same after a file was written. -/
theorem walk_write (bytes : Array UInt8)
    (walked : names.foldlM directory.enter start = .ok place) (stays : place.names? = none)
    (entry : (directory.place target).names? = some target) :
    names.foldlM (directory.write target bytes).enter start = .ok place := by
  -- From the end, so that it is known of each place before the last that it was entered.
  induction names using List.reverseRecOn generalizing place with
  | nil => exact walked
  | append_singleton folders last ih =>
    obtain ⟨reached, first, entered⟩ := walk_concat.mp walked
    obtain ⟨folder, rfl, free, found⟩ := enter_iff.mp entered
    exact walk_concat.mpr ⟨.inside folder, ih first rfl,
      enter_iff.mpr ⟨folder, rfl, free, lookup_write bytes found stays entry⟩⟩

end

section

variable {directory : Directory} {names : List String} {place : Place} {path : String}
  {bytes : Array UInt8}

/-- Where a walk along a path starts. -/
def origin (directory : Directory) (path : String) : Place :=
  .inside (if path.startsWith "/" then [] else directory.working)

theorem walk_iff : directory.walk path names = .ok place ↔
    path ≠ "" ∧ path.utf8ByteSize ≤ longestPath ∧
      names.foldlM directory.enter (directory.origin path) = .ok place := by
  unfold walk
  split
  next none => simp [none]
  next some =>
    split
    next short => simp [some, short, origin]
    next long => simp [long]

/-- A walk that ends in a dot ends in a folder. -/
theorem walk_dot (walked : directory.walk path (names ++ ["."]) = .ok place) :
    place.names? = none := by
  obtain ⟨-, -, walked⟩ := walk_iff.mp walked
  obtain ⟨reached, -, entered⟩ := walk_concat.mp walked
  obtain ⟨folder, -, -, found⟩ := enter_iff.mp entered
  cases found
  rfl

/-- A file can be created where the path leads to an entry that does not refuse it, unless the
path ends in a slash. -/
theorem creatable_iff : directory.creatable path = .ok names ↔
    path.endsWith "/" = false ∧ (directory.accessTo names).writing = none ∧
      ∃ place, directory.walk path (pathNames path) = .ok place ∧ place.names? = some names := by
  unfold creatable
  cases path.endsWith "/" with
  | false =>
    simp only [Bool.false_eq_true, if_false, true_and]
    rcases directory.walk path (pathNames path) with fault | (⟨target, bytes⟩ | target | folder)
    case error => simp
    case ok.inside => simp [Place.names?]
    -- There is no difference between a new file and one that is written over.
    all_goals
      constructor
      · intro created
        cases free : (directory.accessTo target).writing with
        | some fault =>
          simp only [free] at created
          cases created
        | none =>
          simp only [free] at created
          cases created
          exact ⟨free, _, rfl, rfl⟩
      · rintro ⟨free, _, ⟨⟩, ⟨⟩⟩
        simp only [free]
  | true =>
    simp only [if_true, Bool.true_eq_false, false_and, iff_false]
    cases walked : directory.walk path ((pathNames path).dropLast ++ ["."]) with
    | error fault => nofun
    | ok place =>
      have stays := walk_dot walked
      cases place with
      | file | vacant => cases stays
      | inside => nofun

theorem find_iff : directory.find path = .ok (names, bytes) ↔
    path.endsWith "/" = false ∧
      directory.walk path (pathNames path) = .ok (.file names bytes) := by
  unfold find
  rcases directory.walk path (pathNames path) with fault | (_ | _ | _) <;>
    cases path.endsWith "/" <;> simp

/-- What was written is what is found. -/
theorem find_write (created : directory.creatable path = .ok names) (bytes : Array UInt8) :
    (directory.write names bytes).find path = .ok (names, bytes) := by
  obtain ⟨unended, -, place, walked, leads⟩ := creatable_iff.mp created
  obtain ⟨some, short, walked⟩ := walk_iff.mp walked
  obtain ⟨folders, last, folder, split, first, free, here, above, fits, rfl, rfl⟩ :=
    walk_entry walked leads rfl
  -- Up to the folder the walk is the old one, and then it comes to the new file.
  have found : (directory.write (folder ++ [last]) bytes).lookup folder last =
      .ok (.file (folder ++ [last]) bytes) := by
    rw [lookup_eq, if_neg here, if_neg above, if_pos fits, place_write_same]
  refine find_iff.mpr ⟨unended, walk_iff.mpr ⟨some, short, ?_⟩⟩
  rw [split]
  exact walk_concat.mpr ⟨.inside folder, walk_write bytes first rfl leads,
    enter_iff.mpr ⟨folder, rfl, free, found⟩⟩

/-- The name of a file that can be read is the last one of its path. -/
theorem fileName_of_read (readable : directory.read path = .ok bytes) :
    (pathNames path).getLast? = some (fileName path) := by
  unfold read at readable
  split at readable
  next => cases readable
  next names bytes' found =>
    obtain ⟨-, walked⟩ := find_iff.mp found
    obtain ⟨-, -, walked⟩ := walk_iff.mp walked
    obtain ⟨folders, last, -, split, -, -, here, above, -⟩ := walk_entry walked rfl rfl
    have shown : ((pathNames path).filter (· ≠ ".")).getLast? = some last := by
      simp [split, here]
    rw [fileName, shown, split, List.getLast?_concat]
    simp

end

end Directory

end Chip8.Headless
