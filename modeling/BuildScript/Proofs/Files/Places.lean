import BuildScript.Files.System
import Mathlib.Data.List.Basic

/-!
# Places and writing

A write gives one file its content and leaves every other place as it is.  What is there stays
there and directories stay directories, so a path that leads to a place before a write leads to the
same place after it.
-/

namespace BuildScript.FileSystem

/-! ## Writing -/

theorem lookup_set_go (place other : Place) (node : Node) (nodes : List (Place × Node)) :
    (set.go place node nodes).lookup other =
      if other = place then some node else nodes.lookup other := by
  induction nodes with
  | nil =>
    by_cases same : other = place
    · simp [set.go, same]
    · have apart : (other == place) = false := by simpa using same
      simp [set.go, List.lookup_cons, apart, same]
  | cons entry nodes ih =>
    obtain ⟨p, n⟩ := entry
    by_cases taken : p = place
    · subst taken
      by_cases same : other = p
      · simp [set.go, same]
      · have apart : (other == p) = false := by simpa using same
        simp [set.go, List.lookup_cons, apart, same]
    · by_cases here : other = p
      · subst here
        simp [set.go, taken]
      · have apart : (other == p) = false := by simpa using here
        simp [set.go, List.lookup_cons, taken, apart, ih]

theorem node?_set (files : FileSystem) {place : Place} (node : Node) (below : place ≠ [])
    (other : Place) :
    (files.set place node).node? other =
      if other = place then some node else files.node? other := by
  by_cases root : other = []
  · simp [node?, root, Ne.symm below]
  · simp [node?, root, set, lookup_set_go]

/-! ## Following names -/

/-- Follow one name from a place. -/
def enter (files : FileSystem) (place : Place) (name : String) : Except FileError Place :=
  if files.node? place ≠ some .directory then .error .notDirectory
  else if name = "" || name = "." then .ok place
  else if name = ".." then .ok place.dropLast
  else if maxNameSize < name.utf8ByteSize then .error .nameTooLong
  else if (files.node? (place ++ [name])).isNone then .error .notFound
  else .ok (place ++ [name])

theorem follow_cons (files : FileSystem) (place : Place) (name : String) (names : List String) :
    files.follow place (name :: names) =
      (files.enter place name).bind fun next => files.follow next names := by
  simp only [follow, enter]
  split_ifs <;> rfl

theorem follow_singleton (files : FileSystem) (place : Place) (name : String) :
    files.follow place [name] = files.enter place name := by
  rw [follow_cons]
  cases files.enter place name <;> rfl

theorem follow_append (files : FileSystem) (place : Place) (names others : List String) :
    files.follow place (names ++ others) =
      (files.follow place names).bind fun reached => files.follow reached others := by
  induction names generalizing place with
  | nil => rfl
  | cons name names ih =>
    rw [List.cons_append, follow_cons, follow_cons]
    cases files.enter place name with
    | error reason => rfl
    | ok next => exact ih next

/-- From a directory a name leads to the directory itself, to the one above or to an entry. -/
theorem enter_eq_ok_iff {files : FileSystem} {place next : Place} {name : String} :
    files.enter place name = .ok next ↔ files.node? place = some .directory ∧
      ((name = "" ∨ name = ".") ∧ place = next ∨
        ¬(name = "" ∨ name = ".") ∧ (name = ".." ∧ place.dropLast = next ∨
          name ≠ ".." ∧ name.utf8ByteSize ≤ maxNameSize ∧
            files.node? (place ++ [name]) ≠ none ∧ place ++ [name] = next)) := by
  unfold enter
  split_ifs with outside stays up long absent
  · simp [outside]
  · have here : files.node? place = some .directory := not_not.mp outside
    have stays : name = "" ∨ name = "." := by simpa using stays
    simp [here, stays]
  all_goals
    have here : files.node? place = some .directory := not_not.mp outside
    have leaves : ¬(name = "" ∨ name = ".") := by simpa using stays
  · simp [here, up]
  · simp [here, leaves, up, Nat.not_le.mpr long]
  · simp [here, leaves, up, Option.isNone_iff_eq_none.mp absent]
  · have there : files.node? (place ++ [name]) ≠ none := mt Option.isNone_iff_eq_none.mpr absent
    simp [here, leaves, up, Nat.not_lt.mp long, there]

theorem enter_empty {files : FileSystem} {place : Place}
    (h : files.node? place = some .directory) : files.enter place "" = .ok place :=
  enter_eq_ok_iff.mpr ⟨h, .inl ⟨.inl rfl, rfl⟩⟩

/-- Names that lead on begin at a directory. -/
theorem directory_of_follow {files : FileSystem} {place last : Place} {name : String}
    {names : List String} (h : files.follow place (name :: names) = .ok last) :
    files.node? place = some .directory := by
  rw [follow_cons] at h
  cases entered : files.enter place name with
  | error reason => simp [entered, Except.bind] at h
  | ok next => exact (enter_eq_ok_iff.mp entered).1

/-- Empty names lead nowhere else, but only a directory has a name after it. -/
theorem follow_filter (files : FileSystem) {place last : Place} {names : List String}
    (h : files.node? last = some .directory) :
    files.follow place (names.filter (· ≠ "")) = .ok last ↔ files.follow place names = .ok last := by
  induction names generalizing place with
  | nil => rfl
  | cons name names ih =>
    by_cases empty : name = ""
    · subst empty
      rw [List.filter_cons_of_neg (by simp), ih]
      constructor
      · intro led
        have here : files.node? place = some .directory := by
          cases names with
          | nil => exact Except.ok.inj led ▸ h
          | cons => exact directory_of_follow led
        rwa [follow_cons, enter_empty here]
      · intro led
        have here := directory_of_follow led
        rwa [follow_cons, enter_empty here] at led
    · rw [List.filter_cons_of_pos (by simpa using empty), follow_cons, follow_cons]
      cases files.enter place name with
      | error reason => simp [Except.bind]
      | ok next => exact ih

/-! ## What stays -/

/-- Nothing is gone, and every directory is one still. -/
structure Retains (files after : FileSystem) : Prop where
  workingDirectory : after.workingDirectory = files.workingDirectory
  present : ∀ place, files.node? place ≠ none → after.node? place ≠ none
  directory : ∀ place, files.node? place = some .directory → after.node? place = some .directory

theorem Retains.refl (files : FileSystem) : Retains files files :=
  ⟨rfl, fun _ h => h, fun _ h => h⟩

theorem Retains.trans {files between after : FileSystem} (first : Retains files between)
    (second : Retains between after) : Retains files after where
  workingDirectory := second.workingDirectory.trans first.workingDirectory
  present place h := second.present place (first.present place h)
  directory place h := second.directory place (first.directory place h)

theorem retains_set {files : FileSystem} {place : Place} (content : Bytes)
    (below : place ≠ []) (free : files.node? place ≠ some .directory) :
    Retains files (files.set place (.file content)) where
  workingDirectory := rfl
  present other there := by
    rw [node?_set files _ below]
    split
    · exact Option.some_ne_none _
    · exact there
  directory other there := by
    rw [node?_set files _ below, if_neg]
    · exact there
    · rintro rfl
      exact free there

theorem Retains.enter {files after : FileSystem} (kept : Retains files after) {place next : Place}
    {name : String} (h : files.enter place name = .ok next) :
    after.enter place name = .ok next := by
  rw [enter_eq_ok_iff] at h ⊢
  obtain ⟨here, led⟩ := h
  refine ⟨kept.directory place here, ?_⟩
  rcases led with stays | ⟨named, up | ⟨down, short, there, reached⟩⟩
  · exact .inl stays
  · exact .inr ⟨named, .inl up⟩
  · exact .inr ⟨named, .inr ⟨down, short, kept.present _ there, reached⟩⟩

theorem Retains.follow {files after : FileSystem} (kept : Retains files after) {place last : Place}
    {names : List String} (h : files.follow place names = .ok last) :
    after.follow place names = .ok last := by
  induction names generalizing place with
  | nil => exact h
  | cons name names ih =>
    rw [follow_cons] at h ⊢
    cases entered : files.enter place name with
    | error reason => simp [entered, Except.bind] at h
    | ok next =>
      rw [entered] at h
      rw [kept.enter entered]
      exact ih h

theorem Retains.start {files after : FileSystem} (kept : Retains files after) (path : String) :
    after.start path = files.start path := by
  simp [FileSystem.start, kept.workingDirectory]

theorem Retains.locate {files after : FileSystem} (kept : Retains files after) {path : String}
    {place : Place} (h : files.locate path = .ok place) : after.locate path = .ok place := by
  unfold FileSystem.locate at h ⊢
  rw [kept.start]
  cases begun : files.start path with
  | error reason => simp [begun, bind, Except.bind] at h
  | ok found =>
    simp only [begun, bind, Except.bind] at h ⊢
    exact kept.follow h

/-! ## Targets -/

/-- A path whose names lead to a directory, and a last name that a file in it can have. -/
structure Aims (files : FileSystem) (path : String) (parent : Place) (name : String) : Prop where
  start : ∃ first before, files.start path = .ok (first, before ++ [name]) ∧
    files.follow first before = .ok parent
  directory : files.node? parent = some .directory
  named : name ≠ "" ∧ name ≠ "." ∧ name ≠ ".."
  short : name.utf8ByteSize ≤ maxNameSize
  free : files.node? (parent ++ [name]) ≠ some .directory

/-- The last name that is not empty is the last of all when the path does not end in a slash. -/
theorem exists_append_of_getLast?_filter {names : List String} {name : String}
    (noSlash : names.getLast? ≠ some "") (last : (names.filter (· ≠ "")).getLast? = some name) :
    ∃ before, names = before ++ [name] ∧ name ≠ "" ∧
      (names.filter (· ≠ "")).dropLast = before.filter (· ≠ "") := by
  obtain ⟨before, final, rfl⟩ : ∃ before final, names = before ++ [final] := by
    rcases List.eq_nil_or_concat names with rfl | ⟨before, final, rfl⟩
    · simp at last
    · exact ⟨before, final, by simp⟩
  have full : final ≠ "" := by
    rintro rfl
    simp at noSlash
  have kept : (before ++ [final]).filter (· ≠ "") = before.filter (· ≠ "") ++ [final] := by
    rw [List.filter_append, List.filter_cons_of_pos (by simpa using full), List.filter_nil]
  rw [kept, List.getLast?_concat, Option.some.injEq] at last
  subst last
  exact ⟨before, rfl, full, by rw [kept, List.dropLast_concat]⟩

theorem aims_of_target {files : FileSystem} {path : String} {place : Place}
    (h : files.target path = .ok place) :
    ∃ parent name, place = parent ++ [name] ∧ files.Aims path parent name := by
  unfold target at h
  cases begun : files.start path with
  | error reason => simp [begun, bind, Except.bind] at h
  | ok found =>
    obtain ⟨first, names⟩ := found
    simp only [begun, bind, Except.bind] at h
    split at h
    · contradiction
    rename_i parent led
    split at h
    · contradiction
    rename_i directory
    split at h
    · contradiction
    rename_i name last
    split at h
    · contradiction
    rename_i named
    split at h
    · contradiction
    rename_i short
    split at h
    · contradiction
    rename_i free
    simp only [Bool.or_eq_true, decide_eq_true_eq, not_or] at named
    obtain ⟨⟨single, double⟩, slash⟩ := named
    obtain ⟨before, rfl, full, earlier⟩ := exists_append_of_getLast?_filter slash last
    rw [earlier, follow_filter files (by simpa using directory)] at led
    exact ⟨parent, name, (Except.ok.inj h).symm, ⟨first, before, begun, led⟩,
      by simpa using directory, ⟨full, single, double⟩, by simpa using short, free⟩

theorem Aims.retains {files after : FileSystem} {path : String} {parent : Place} {name : String}
    (aims : files.Aims path parent name) (kept : Retains files after)
    (free : after.node? (parent ++ [name]) ≠ some .directory) :
    after.Aims path parent name := by
  obtain ⟨first, before, begun, led⟩ := aims.start
  exact ⟨⟨first, before, (kept.start path).trans begun, kept.follow led⟩,
    kept.directory parent aims.directory, aims.named, aims.short, free⟩

/-- The path leads to the file when it is there. -/
theorem Aims.locate {files : FileSystem} {path : String} {parent : Place} {name : String}
    (aims : files.Aims path parent name) (there : files.node? (parent ++ [name]) ≠ none) :
    files.locate path = .ok (parent ++ [name]) := by
  obtain ⟨first, before, begun, led⟩ := aims.start
  obtain ⟨full, single, double⟩ := aims.named
  have last : files.follow parent [name] = .ok (parent ++ [name]) := by
    rw [follow_singleton, enter_eq_ok_iff]
    exact ⟨aims.directory, .inr ⟨by simp [full, single], .inr ⟨double, aims.short, there, rfl⟩⟩⟩
  simp [FileSystem.locate, begun, bind, Except.bind, follow_append, led, last]

theorem retains_set_target {files : FileSystem} {path : String} {place : Place} (content : Bytes)
    (h : files.target path = .ok place) : Retains files (files.set place (.file content)) := by
  obtain ⟨parent, name, rfl, aims⟩ := aims_of_target h
  exact retains_set content (List.concat_ne_nil _ _) aims.free

theorem node?_set_target {files : FileSystem} {path : String} {place : Place} (content : Bytes)
    (h : files.target path = .ok place) (other : Place) :
    (files.set place (.file content)).node? other =
      if other = place then some (.file content) else files.node? other := by
  obtain ⟨parent, name, rfl, -⟩ := aims_of_target h
  exact node?_set files _ (by simp) other

/-- What is written to a path is read from it. -/
theorem read_set_target {files : FileSystem} {path : String} {place : Place} (content : Bytes)
    (h : files.target path = .ok place) :
    (files.set place (.file content)).read path = .ok content := by
  have there := node?_set_target content h place
  rw [if_pos rfl] at there
  obtain ⟨parent, name, rfl, aims⟩ := aims_of_target h
  have aims' := aims.retains (retains_set_target content h) (by simp [there])
  simp [read, aims'.locate (by simp [there]), there, bind, Except.bind]

end BuildScript.FileSystem
