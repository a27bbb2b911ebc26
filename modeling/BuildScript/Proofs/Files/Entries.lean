import BuildScript.Proofs.Files.Names
import BuildScript.Proofs.Files.Places
import Mathlib.Data.List.Nodup
import Mathlib.Data.String.Basic

/-!
# Entries of a directory

The path of an entry leads to the place of its name below the directory, whatever the path of the
directory looks like.  The entries of a directory have different names and come in order.
-/

namespace BuildScript

/-- A name that a file or directory can have. -/
structure IsName (name : String) : Prop where
  single : '/' ∉ name.toList
  nonempty : name ≠ ""
  not_here : name ≠ "."
  not_above : name ≠ ".."

instance : DecidablePred IsName := fun name =>
  decidable_of_iff ('/' ∉ name.toList ∧ name ≠ "" ∧ name ≠ "." ∧ name ≠ "..")
    ⟨fun ⟨single, nonempty, here, above⟩ => ⟨single, nonempty, here, above⟩,
      fun ⟨single, nonempty, here, above⟩ => ⟨single, nonempty, here, above⟩⟩

namespace FileSystem

/-- A file system holds one node at a place, below names that files can have. -/
structure IsProper (files : FileSystem) : Prop where
  nodup : (files.nodes.map Prod.fst).Nodup
  named : ∀ entry ∈ files.nodes, ∀ name ∈ entry.1, IsName name

instance : DecidablePred IsProper := fun files =>
  decidable_of_iff ((files.nodes.map Prod.fst).Nodup ∧
      ∀ entry ∈ files.nodes, ∀ name ∈ entry.1, IsName name)
    ⟨fun ⟨nodup, named⟩ => ⟨nodup, named⟩, fun ⟨nodup, named⟩ => ⟨nodup, named⟩⟩

/-! ## The path of an entry -/

/-- A path that leads to a directory. -/
structure Leads (files : FileSystem) (directory : String) (place : Place) : Prop where
  locate : files.locate directory = .ok place
  isDirectory : files.node? place = some .directory

theorem leads_of_isDirectory {files : FileSystem} {directory : String}
    (h : files.isDirectory directory = true) : ∃ place, files.Leads directory place := by
  unfold isDirectory at h
  split at h
  · rename_i place led
    exact ⟨place, led, by simpa using h⟩
  · contradiction

theorem Leads.retains {files after : FileSystem} {directory : String} {place : Place}
    (leads : files.Leads directory place) (kept : Retains files after) :
    after.Leads directory place :=
  ⟨kept.locate leads.locate, kept.directory place leads.isDirectory⟩

theorem Leads.start_inDirectory {files : FileSystem} {directory : String} {place : Place}
    (leads : files.Leads directory place) {name : String} (single : '/' ∉ name.toList) :
    ∃ first before, files.follow first before = .ok place ∧
      files.start (FileName.inDirectory directory name) =
        if maxPathSize < (FileName.inDirectory directory name).utf8ByteSize then
          .error .nameTooLong
        else .ok (first, before ++ [name]) := by
  obtain ⟨before, components, prior⟩ := FileName.components_inDirectory directory single
  have led := leads.locate
  unfold FileSystem.locate FileSystem.start at led
  split at led
  · contradiction
  · rename_i nonempty
    split at led
    · contradiction
    · simp only [bind, Except.bind] at led
      refine ⟨if directory.toList.head? = some '/' then [] else files.workingDirectory, before,
        ?_, ?_⟩
      · rcases prior with prior | prior
        · rwa [prior] at led
        · rw [prior, follow_append] at led
          cases reached : files.follow (if directory.toList.head? = some '/' then []
              else files.workingDirectory) before with
          | error reason => simp [reached, Except.bind] at led
          | ok last =>
            simp only [reached, Except.bind] at led
            have here := directory_of_follow led
            rw [follow_singleton, enter_empty here] at led
            exact congrArg _ (Except.ok.inj led)
      · have full : FileName.inDirectory directory name ≠ "" := by
          intro empty
          have := congrArg String.toList empty
          obtain ⟨before, slash⟩ := FileName.front_eq_append directory
          simp [FileName.toList_inDirectory, slash] at this
        rw [FileSystem.start, if_neg full, FileName.head?_inDirectory nonempty, components]

theorem Leads.locate_inDirectory {files : FileSystem} {directory : String} {place : Place}
    (leads : files.Leads directory place) {name : String} (named : IsName name) :
    files.locate (FileName.inDirectory directory name) =
      if maxPathSize < (FileName.inDirectory directory name).utf8ByteSize then .error .nameTooLong
      else if maxNameSize < name.utf8ByteSize then .error .nameTooLong
      else if (files.node? (place ++ [name])).isNone then .error .notFound
      else .ok (place ++ [name]) := by
  obtain ⟨first, before, led, started⟩ := leads.start_inDirectory named.single
  rw [FileSystem.locate, started]
  split
  · rfl
  · simp only [bind, Except.bind]
    rw [follow_append, led]
    simp only [Except.bind]
    rw [follow_singleton, enter, if_neg (not_not.mpr leads.isDirectory),
      if_neg (by simp [named.nonempty, named.not_here]), if_neg named.not_above]

theorem Leads.target_inDirectory {files : FileSystem} {directory : String} {place : Place}
    (leads : files.Leads directory place) {name : String} (single : '/' ∉ name.toList)
    (nonempty : name ≠ "") :
    files.target (FileName.inDirectory directory name) =
      if maxPathSize < (FileName.inDirectory directory name).utf8ByteSize then .error .nameTooLong
      else if name = "." ∨ name = ".." then .error .isDirectory
      else if maxNameSize < name.utf8ByteSize then .error .nameTooLong
      else if files.node? (place ++ [name]) = some .directory then .error .isDirectory
      else .ok (place ++ [name]) := by
  obtain ⟨first, before, led, started⟩ := leads.start_inDirectory single
  rw [target, started]
  split
  · rfl
  · have kept : (before ++ [name]).filter (· ≠ "") = before.filter (· ≠ "") ++ [name] := by
      rw [List.filter_append, List.filter_cons_of_pos (by simpa using nonempty), List.filter_nil]
    have parent := (follow_filter files leads.isDirectory).mpr led
    simp only [bind, Except.bind, kept, List.dropLast_concat, parent, leads.isDirectory,
      List.getLast?_concat]
    simp [nonempty]

theorem Leads.eq_of_locate {files : FileSystem} {directory : String} {place reached : Place}
    (leads : files.Leads directory place) {name : String} (named : IsName name)
    (h : files.locate (FileName.inDirectory directory name) = .ok reached) :
    reached = place ++ [name] := by
  rw [leads.locate_inDirectory named] at h
  split_ifs at h
  exact (Except.ok.inj h).symm

theorem Leads.eq_of_target {files : FileSystem} {directory : String} {place reached : Place}
    (leads : files.Leads directory place) {name : String} (single : '/' ∉ name.toList)
    (nonempty : name ≠ "") (h : files.target (FileName.inDirectory directory name) = .ok reached) :
    reached = place ++ [name] := by
  rw [leads.target_inDirectory single nonempty] at h
  split_ifs at h
  exact (Except.ok.inj h).symm

/-! ## What a change elsewhere leaves -/

/-- An entry that is what it was reads as it did. -/
theorem Leads.readText_congr {files after : FileSystem} {directory : String} {place : Place}
    (leads : files.Leads directory place) (kept : Retains files after) {name : String}
    (named : IsName name)
    (same : after.node? (place ++ [name]) = files.node? (place ++ [name])) :
    after.readText (FileName.inDirectory directory name) =
      files.readText (FileName.inDirectory directory name) := by
  have located : after.locate (FileName.inDirectory directory name) =
      files.locate (FileName.inDirectory directory name) := by
    rw [(leads.retains kept).locate_inDirectory named, leads.locate_inDirectory named, same]
  unfold readText read
  rw [located]
  cases found : files.locate (FileName.inDirectory directory name) with
  | error reason => rfl
  | ok reached =>
    rw [leads.eq_of_locate named found]
    simp [same, bind, Except.bind]

/-- A file can be written as before where nothing has changed. -/
theorem Leads.target_congr {files after : FileSystem} {directory : String} {place : Place}
    (leads : files.Leads directory place) (kept : Retains files after) {name : String}
    (single : '/' ∉ name.toList) (nonempty : name ≠ "")
    (same : after.node? (place ++ [name]) = files.node? (place ++ [name])) :
    after.target (FileName.inDirectory directory name) =
      files.target (FileName.inDirectory directory name) := by
  rw [(leads.retains kept).target_inDirectory single nonempty,
    leads.target_inDirectory single nonempty, same]

/-! ## Entries -/

/-- The last name of a place that is right below another. -/
def nameBelow? (place below : Place) : Option String :=
  match below.getLast? with
  | some name => if below = place ++ [name] then some name else none
  | none => none

theorem nameBelow?_eq_some_iff (place below : Place) (name : String) :
    nameBelow? place below = some name ↔ below = place ++ [name] := by
  unfold nameBelow?
  constructor
  · intro h
    split at h
    · split at h
      · rename_i split
        rwa [← Option.some.inj h]
      · contradiction
    · contradiction
  · rintro rfl
    simp

theorem Leads.entries_eq {files : FileSystem} {directory : String} {place : Place}
    (leads : files.Leads directory place) :
    files.entries directory =
      ((files.nodes.map Prod.fst).filterMap (nameBelow? place)).mergeSort (· ≤ ·) := by
  unfold FileSystem.entries
  rw [leads.locate, List.filterMap_map]
  rfl

theorem Leads.mem_entries {files : FileSystem} {directory : String} {place : Place}
    (leads : files.Leads directory place) {name : String} :
    name ∈ files.entries directory ↔ place ++ [name] ∈ files.nodes.map Prod.fst := by
  rw [leads.entries_eq, List.mem_mergeSort, List.mem_filterMap]
  constructor
  · rintro ⟨below, member, h⟩
    rwa [← (nameBelow?_eq_some_iff place below name).mp h]
  · intro member
    exact ⟨place ++ [name], member, (nameBelow?_eq_some_iff place _ name).mpr rfl⟩

theorem mem_places_iff {files : FileSystem} {place : Place} (below : place ≠ []) :
    place ∈ files.nodes.map Prod.fst ↔ files.node? place ≠ none := by
  rw [node?, if_neg below, Ne, List.lookup_eq_none_iff]
  constructor
  · intro member absent
    obtain ⟨entry, found, rfl⟩ := List.mem_map.mp member
    simpa using absent entry found
  · intro present
    by_contra absent
    refine present fun entry found => bne_iff_ne.mpr ?_
    rintro rfl
    exact absent (List.mem_map_of_mem found)

theorem Leads.entries_sorted {files : FileSystem} {directory : String} {place : Place}
    (leads : files.Leads directory place) (proper : files.IsProper) :
    (files.entries directory).Pairwise (· < ·) := by
  rw [leads.entries_eq]
  have unique : ((files.nodes.map Prod.fst).filterMap (nameBelow? place)).Nodup := by
    refine List.Nodup.filterMap ?_ proper.nodup
    intro below other name h h'
    rw [Option.mem_def, nameBelow?_eq_some_iff] at h h'
    rw [h, h']
  have transitive : ∀ a b c : String, decide (a ≤ b) → decide (b ≤ c) → decide (a ≤ c) := by
    simpa using fun a b c => String.le_trans
  have total : ∀ a b : String, decide (a ≤ b) || decide (b ≤ a) := by
    simpa using String.le_total
  have ordered := List.pairwise_mergeSort transitive total
    ((files.nodes.map Prod.fst).filterMap (nameBelow? place))
  refine (ordered.and (List.nodup_mergeSort.mpr unique)).imp ?_
  rintro a b ⟨le, ne⟩
  exact lt_of_le_of_ne (by simpa using le) ne

end FileSystem

end BuildScript
