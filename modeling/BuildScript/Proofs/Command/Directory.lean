import BuildScript.Proofs.Command.Conversion
import BuildScript.Proofs.Files.Entries

/-!
# Runs on a directory

The scripts of a directory are converted one after another in the same files.  What a script is
converted to is written beside it under a name that no script has and that no other script is
converted to, so that each conversion finds what it would find in the original directory.
-/

namespace BuildScript.Command

open FileSystem

/-! ## Scripts and their targets -/

/-- The extension of an output format contains no dot and is not that of scripts. -/
theorem extension_plain (format : Format) : '.' ∉ format.extension.toList := by
  cases format <;> decide

theorem extension_ne_gradle (format : Format) :
    format.extension.toList ≠ "gradle".toList := by
  cases format <;> decide

theorem gradle_plain : '.' ∉ "gradle".toList := by decide

/-- A name that a script in a directory can have. -/
structure IsScriptName (name : String) : Prop where
  named : IsName name
  extension : FileName.hasExtension "gradle" name = true

theorem IsScriptName.split {name : String} (script : IsScriptName name) :
    ∃ stem, FileName.splitExtension name.toList = (stem, some "gradle".toList) := by
  have h := script.extension
  rw [FileName.hasExtension, beq_iff_eq] at h
  exact ⟨_, Prod.ext rfl h⟩

/-- The name of the file that a script is converted to. -/
def targetName (settings : Settings) (name : String) : String :=
  String.ofList (FileName.renamed settings.format.extension.toList name.toList)

theorem targetName_injective (settings : Settings) {name other : String}
    (script : IsScriptName name) (script' : IsScriptName other)
    (h : targetName settings name = targetName settings other) : name = other := by
  obtain ⟨stem, split⟩ := script.split
  obtain ⟨stem', split'⟩ := script'.split
  have same := congrArg String.toList h
  simp only [targetName, String.toList_ofList] at same
  exact String.toList_injective
    (FileName.renamed_injective split split' (extension_plain settings.format) same)

theorem targetName_ne (settings : Settings) {name other : String} (script : IsScriptName name)
    (script' : IsScriptName other) : targetName settings name ≠ other := by
  obtain ⟨stem, split⟩ := script.split
  obtain ⟨stem', split'⟩ := script'.split
  intro h
  have same := congrArg String.toList h
  rw [targetName, String.toList_ofList] at same
  exact FileName.renamed_ne split split' (extension_plain settings.format) gradle_plain
    (extension_ne_gradle settings.format) same

theorem targetName_single (settings : Settings) {name : String} (script : IsScriptName name) :
    '/' ∉ (targetName settings name).toList := by
  obtain ⟨stem, split⟩ := script.split
  intro slash
  rw [targetName, String.toList_ofList] at slash
  rcases FileName.mem_renamed split slash with old | dot | new
  · exact script.named.single old
  · exact absurd dot (by decide)
  · cases format : settings.format <;> exact absurd new (by rw [format]; decide)

theorem targetName_nonempty (settings : Settings) (name : String) :
    targetName settings name ≠ "" := by
  intro empty
  have none := congrArg String.toList empty
  rw [targetName, String.toList_ofList] at none
  exact FileName.renamed_ne_nil _ _ none

theorem targetOf_inDirectory {settings : Settings} (beside : settings.output = none)
    (directory : String) {name : String} (script : IsScriptName name) :
    targetOf settings (FileName.inDirectory directory name) =
      if settings.write then some (FileName.inDirectory directory (targetName settings name))
      else none := by
  rw [targetOf, beside]
  simp only [FileName.withExtension_inDirectory _ _ script.named.single]
  rfl

/-! ## One script -/

/-- A run on one script alone. -/
def alone (settings : Settings) (files : FileSystem) (path : String) : Result :=
  .ofConversion files (convertFile settings path)

/-- The line that is reported when the conversion of a script fails. -/
def reported (settings : Settings) (files : FileSystem) (path : String) : String :=
  match (convertFile settings path).run ⟨[], files⟩ with
  | .ok _ _ => ""
  | .error failure _ => failure.line

/-- A conversion depends on the text of the script and on the place of its target. -/
theorem fileEffect_congr {settings : Settings} {files after : FileSystem} {path : String}
    (read : after.readText path = files.readText path)
    (target : ∀ output ∈ targetOf settings path, after.target output = files.target output) :
    fileEffect settings after path = fileEffect settings files path := by
  have same : ∀ bytes, deliverEffect after (targetOf settings path) bytes =
      deliverEffect files (targetOf settings path) bytes := by
    intro bytes
    cases found : targetOf settings path with
    | none => rfl
    | some output => simp [deliverEffect, target output found]
  simp only [fileEffect, read, textEffect, same]

section

variable {settings : Settings} {files : FileSystem} {directory : String} {place : Place}

/-- A script is converted as before while it and the place of its target are what they were. -/
theorem fileEffect_inDirectory_congr {after : FileSystem} (leads : files.Leads directory place)
    (beside : settings.output = none) (kept : Retains files after) {name : String}
    (script : IsScriptName name)
    (same : after.node? (place ++ [name]) = files.node? (place ++ [name]))
    (free : after.node? (place ++ [targetName settings name]) =
      files.node? (place ++ [targetName settings name])) :
    fileEffect settings after (FileName.inDirectory directory name) =
      fileEffect settings files (FileName.inDirectory directory name) := by
  refine fileEffect_congr (leads.readText_congr kept script.named same) ?_
  intro output target
  rw [targetOf_inDirectory beside directory script] at target
  split at target
  · cases target
    exact leads.target_congr kept (targetName_single settings script)
      (targetName_nonempty settings name) free
  · contradiction

/-- What a conversion writes is a target that can be written. -/
theorem target_of_fileEffect {path : String} {effect : Effect} {written : Place} {content : Bytes}
    (h : fileEffect settings files path = .ok effect)
    (wrote : effect.written = some (written, content)) :
    ∃ output, targetOf settings path = some output ∧ files.target output = .ok written := by
  unfold fileEffect at h
  split at h
  · contradiction
  · obtain ⟨doc, -, done⟩ := textEffect_ok h
    split at done
    · simp [done] at wrote
    · unfold deliverEffect at done
      split at done
      · cases done
        contradiction
      · rename_i output target
        split at done
        · rename_i reached found
          cases done
          cases wrote
          exact ⟨output, target, found⟩
        · contradiction

/-- The file that a script in the directory is converted to stands beside it. -/
theorem written_eq (leads : files.Leads directory place) (beside : settings.output = none)
    {name : String} (script : IsScriptName name) {effect : Effect} {written : Place}
    {content : Bytes}
    (h : fileEffect settings files (FileName.inDirectory directory name) = .ok effect)
    (wrote : effect.written = some (written, content)) :
    written = place ++ [targetName settings name] := by
  obtain ⟨output, target, found⟩ := target_of_fileEffect h wrote
  rw [targetOf_inDirectory beside directory script] at target
  split at target
  · cases target
    exact leads.eq_of_target (targetName_single settings script)
      (targetName_nonempty settings name) found
  · contradiction

/-- The files after the effect of a script, which is found in the files of another time. -/
theorem node?_on {world : World} (leads : files.Leads directory place)
    (beside : settings.output = none) {name : String} (script : IsScriptName name)
    {effect : Effect}
    (h : fileEffect settings files (FileName.inDirectory directory name) = .ok effect)
    (other : Place) :
    (effect.on world).files.node? other =
      match effect.written with
      | some (_, content) =>
        if other = place ++ [targetName settings name] then some (.file content)
        else world.files.node? other
      | none => world.files.node? other := by
  unfold Effect.on
  cases wrote : effect.written with
  | none => rfl
  | some found =>
    obtain ⟨written, content⟩ := found
    rw [written_eq leads beside script h wrote]
    exact node?_set world.files _ (List.concat_ne_nil _ _) other

theorem retains_on {path : String} {effect : Effect} {world : World}
    (h : fileEffect settings world.files path = .ok effect) :
    Retains world.files (effect.on world).files := by
  unfold Effect.on
  cases wrote : effect.written with
  | none => exact .refl world.files
  | some found =>
    obtain ⟨output, -, target⟩ := target_of_fileEffect h wrote
    exact retains_set_target found.2 target

theorem alone_of_ok {path : String} {effect : Effect}
    (h : fileEffect settings files path = .ok effect) :
    alone settings files path = ⟨0, effect.stdout, "", (effect.on ⟨[], files⟩).files⟩ := by
  rw [alone, Result.ofConversion, run_convertFile, h]
  rfl

theorem alone_of_error {path : String} {failure : Failure}
    (h : fileEffect settings files path = .error failure) :
    alone settings files path = ⟨1, [], failure.report, files⟩ := by
  rw [alone, Result.ofConversion, run_convertFile, h]
  rfl

/-- A run on one script of the directory leaves everything but its target as it is. -/
theorem node?_alone (leads : files.Leads directory place) (beside : settings.output = none)
    {name : String} (script : IsScriptName name) {other : Place}
    (elsewhere : other ≠ place ++ [targetName settings name]) :
    (alone settings files (FileName.inDirectory directory name)).files.node? other =
      files.node? other := by
  cases h : fileEffect settings files (FileName.inDirectory directory name) with
  | error failure => rw [alone_of_error h]
  | ok effect =>
    rw [alone_of_ok h]
    simp only [node?_on leads beside script h]
    split
    · rw [if_neg elsewhere]
    · rfl

/-! ## Several scripts -/

def succeeding (settings : Settings) (files : FileSystem) (paths : List String) : List String :=
  paths.filter fun path => (alone settings files path).code = 0

def failing (settings : Settings) (files : FileSystem) (paths : List String) : List String :=
  paths.filter fun path => (alone settings files path).code ≠ 0

/-- A run that has converted the scripts of some names has come as far as the runs on each of them
alone. -/
structure Reached (settings : Settings) (files : FileSystem) (directory : String) (place : Place)
    (names : List String) (progress : Progress) : Prop where
  stdout : progress.stdout =
    (succeeding settings files (names.map (FileName.inDirectory directory))).flatMap
      fun path => (alone settings files path).stdout
  stderr : progress.stderr =
    .join ((failing settings files (names.map (FileName.inDirectory directory))).map
      (reported settings files))
  failed : progress.failed =
    (failing settings files (names.map (FileName.inDirectory directory))).length
  kept : Retains files progress.files
  converted : ∀ name ∈ names, progress.files.node? (place ++ [targetName settings name]) =
    (alone settings files (FileName.inDirectory directory name)).files.node?
      (place ++ [targetName settings name])
  others : ∀ other, (∀ name ∈ names, other ≠ place ++ [targetName settings name]) →
    progress.files.node? other = files.node? other

theorem reached_nil : Reached settings files directory place [] ⟨⟨[], files⟩, "", 0⟩ where
  stdout := rfl
  stderr := rfl
  failed := rfl
  kept := .refl files
  converted := by simp
  others := fun _ _ => rfl

/-- A step prints and reports what the run on its script alone does. -/
theorem step_output {progress : Progress} {path : String}
    (same : fileEffect settings progress.files path = fileEffect settings files path) :
    (progress.step settings path).stdout = progress.stdout ++
        (succeeding settings files [path]).flatMap (fun path => (alone settings files path).stdout) ∧
      (progress.step settings path).stderr = progress.stderr ++
        .join ((failing settings files [path]).map (reported settings files)) ∧
      (progress.step settings path).failed = progress.failed +
        (failing settings files [path]).length := by
  unfold Progress.step
  rw [run_convertFile, same]
  cases h : fileEffect settings files path with
  | error failure =>
    have line : reported settings files path = failure.line := by
      rw [reported, run_convertFile, h]
      rfl
    simp [succeeding, failing, alone_of_error h, settled, line]
  | ok effect => simp [succeeding, failing, alone_of_ok h, settled, Effect.on]

/-- A step gives the target of its script what the run on the script alone does, and leaves the
rest. -/
theorem step_files (leads : files.Leads directory place) (beside : settings.output = none)
    {progress : Progress} {name : String} (script : IsScriptName name)
    (same : fileEffect settings progress.files (FileName.inDirectory directory name) =
      fileEffect settings files (FileName.inDirectory directory name))
    (free : progress.files.node? (place ++ [targetName settings name]) =
      files.node? (place ++ [targetName settings name])) :
    let after := (progress.step settings (FileName.inDirectory directory name)).files
    Retains progress.files after ∧
      after.node? (place ++ [targetName settings name]) =
        (alone settings files (FileName.inDirectory directory name)).files.node?
          (place ++ [targetName settings name]) ∧
      ∀ other, other ≠ place ++ [targetName settings name] →
        after.node? other = progress.files.node? other := by
  unfold Progress.step
  rw [run_convertFile, same]
  cases h : fileEffect settings files (FileName.inDirectory directory name) with
  | error failure =>
    rw [alone_of_error h]
    exact ⟨.refl _, free, fun _ _ => rfl⟩
  | ok effect =>
    rw [alone_of_ok h]
    refine ⟨retains_on (same.trans h), ?_, ?_⟩
    · simp only [settled, node?_on leads beside script h, if_true, free]
    · intro other elsewhere
      simp only [settled, node?_on leads beside script h, if_neg elsewhere]
      split <;> rfl

/-- One more script is converted as it would be alone: no target so far is the script or has its
place. -/
theorem Reached.step (leads : files.Leads directory place) (beside : settings.output = none)
    {names : List String} (scripts : ∀ name ∈ names, IsScriptName name) {progress : Progress}
    (reached : Reached settings files directory place names progress) {name : String}
    (script : IsScriptName name) (fresh : name ∉ names) :
    Reached settings files directory place (names ++ [name])
      (progress.step settings (FileName.inDirectory directory name)) := by
  have apart : ∀ other ∈ names,
      place ++ [targetName settings name] ≠ place ++ [targetName settings other] := by
    intro other member same
    have names := targetName_injective settings script (scripts other member) (by simpa using same)
    exact fresh (names ▸ member)
  have unread : ∀ other ∈ names, place ++ [name] ≠ place ++ [targetName settings other] := by
    intro other member same
    exact targetName_ne settings (scripts other member) script (by simpa using same.symm)
  -- Neither the script nor its target has been written so far: the effect is that of a run alone.
  have free := reached.others _ apart
  have same := fileEffect_inDirectory_congr leads beside reached.kept script
    (reached.others _ unread) free
  obtain ⟨stdout, stderr, failed⟩ := step_output same
  obtain ⟨kept, converted, others⟩ := step_files leads beside script same free
  refine ⟨?_, ?_, ?_, reached.kept.trans kept, ?_, ?_⟩
  · rw [stdout, reached.stdout]
    simp [succeeding]
  · rw [stderr, reached.stderr]
    simp [failing]
  · rw [failed, reached.failed]
    simp [failing]
  · intro other member
    rcases List.mem_append.mp member with earlier | last
    · rw [others _ (apart other earlier).symm]
      exact reached.converted other earlier
    · rw [List.mem_singleton.mp last]
      exact converted
  · intro other elsewhere
    rw [others other (elsewhere name (by simp))]
    exact reached.others other fun earlier member => elsewhere earlier (by simp [member])

theorem reached_foldl (leads : files.Leads directory place) (beside : settings.output = none)
    {names more : List String} (scripts : ∀ name ∈ names ++ more, IsScriptName name)
    (distinct : (names ++ more).Nodup) {progress : Progress}
    (reached : Reached settings files directory place names progress) :
    Reached settings files directory place (names ++ more)
      ((more.map (FileName.inDirectory directory)).foldl (Progress.step settings) progress) := by
  induction more generalizing names progress with
  | nil => simpa using reached
  | cons name more ih =>
    have fresh : name ∉ names := by
      intro member
      exact (List.nodup_append.mp distinct).2.2 name member name (by simp) rfl
    have next := reached.step leads beside (fun other member => scripts other (by simp [member]))
      (scripts name (by simp)) fresh
    rw [List.append_cons] at scripts distinct ⊢
    exact ih scripts distinct next

/-! ## Runs on a directory -/

/-- The names of the scripts in a directory. -/
def scriptNames (files : FileSystem) (directory : String) : List String :=
  (files.entries directory).filter (FileName.hasExtension "gradle")

theorem scripts_eq (files : FileSystem) (directory : String) :
    scripts files directory = (scriptNames files directory).map (FileName.inDirectory directory) :=
  rfl

theorem isScriptName_of_mem (leads : files.Leads directory place) (proper : files.IsProper)
    {name : String} (member : name ∈ scriptNames files directory) : IsScriptName name := by
  obtain ⟨entry, extension⟩ := List.mem_filter.mp member
  obtain ⟨found, present, split⟩ := List.mem_map.mp (leads.mem_entries.mp entry)
  exact ⟨proper.named found present name (by simp [split]), extension⟩

theorem scriptNames_sorted (leads : files.Leads directory place) (proper : files.IsProper) :
    (scriptNames files directory).Pairwise (· < ·) :=
  (leads.entries_sorted proper).filter _

/-- A run on a directory that is made of runs on its scripts alone, each on the original files. -/
structure IsComposition (settings : Settings) (files : FileSystem) (directory : String)
    (result : Result) : Prop where
  selected : ∀ path, path ∈ scripts files directory ↔ ∃ place name,
    files.locate directory = .ok place ∧ files.node? (place ++ [name]) ≠ none ∧
      FileName.hasExtension "gradle" name = true ∧ path = FileName.inDirectory directory name
  sorted : (scripts files directory).Pairwise (· < ·)
  stdout : result.stdout = (succeeding settings files (scripts files directory)).flatMap
    fun path => (alone settings files path).stdout
  code : result.code = if failing settings files (scripts files directory) = [] then 0 else 1
  stderr : result.stderr =
    .join ((failing settings files (scripts files directory)).map (reported settings files)) ++
      if failing settings files (scripts files directory) = [] then ""
      else (Failure.scriptsFailed (failing settings files (scripts files directory)).length
        (scripts files directory).length).report
  changed : ∀ path ∈ scripts files directory, ∀ place,
    (alone settings files path).files.node? place ≠ files.node? place →
      result.files.node? place = (alone settings files path).files.node? place
  unchanged : ∀ place, (∀ path ∈ scripts files directory,
    (alone settings files path).files.node? place = files.node? place) →
      result.files.node? place = files.node? place
  workingDirectory : result.files.workingDirectory = files.workingDirectory
  target_ne_target : settings.write = true → ∀ path ∈ scripts files directory,
    ∀ other ∈ scripts files directory, path ≠ other →
      targetOf settings path ≠ targetOf settings other
  target_ne_script : ∀ path ∈ scripts files directory, ∀ other ∈ scripts files directory,
    targetOf settings path ≠ some other
  place_ne_place : ∀ path ∈ scripts files directory, ∀ output place,
    targetOf settings path = some output → files.target output = .ok place →
      ∀ other ∈ scripts files directory, files.locate other ≠ .ok place ∧
        (path ≠ other → ∀ output', targetOf settings other = some output' →
          files.target output' ≠ .ok place)

theorem mem_scripts_iff (leads : files.Leads directory place) (path : String) :
    path ∈ scripts files directory ↔ ∃ place name,
      files.locate directory = .ok place ∧ files.node? (place ++ [name]) ≠ none ∧
        FileName.hasExtension "gradle" name = true ∧
          path = FileName.inDirectory directory name := by
  rw [scripts_eq, List.mem_map]
  constructor
  · rintro ⟨name, member, rfl⟩
    obtain ⟨entry, extension⟩ := List.mem_filter.mp member
    have present := (mem_places_iff (List.concat_ne_nil _ _)).mp (leads.mem_entries.mp entry)
    exact ⟨place, name, leads.locate, present, extension, rfl⟩
  · rintro ⟨reached, name, led, present, extension, rfl⟩
    cases led.symm.trans leads.locate
    have entry := leads.mem_entries.mpr ((mem_places_iff (List.concat_ne_nil _ _)).mpr present)
    exact ⟨name, List.mem_filter.mpr ⟨entry, extension⟩, rfl⟩

theorem scripts_sorted (leads : files.Leads directory place) (proper : files.IsProper) :
    (scripts files directory).Pairwise (· < ·) := by
  rw [scripts_eq, List.pairwise_map]
  refine (scriptNames_sorted leads proper).imp fun {name other} less => ?_
  rw [String.lt_iff_toList_lt, FileName.toList_inDirectory, FileName.toList_inDirectory]
  exact List.append_left_lt (String.lt_iff_toList_lt.mp less)

/-- A target stands in the directory under a name that only its script has a claim on. -/
theorem eq_of_targetOf (beside : settings.output = none) {name : String}
    (script : IsScriptName name) {output : String}
    (target : targetOf settings (FileName.inDirectory directory name) = some output) :
    output = FileName.inDirectory directory (targetName settings name) := by
  rw [targetOf_inDirectory beside directory script] at target
  split at target
  · exact (Option.some.inj target).symm
  · contradiction

theorem targetOf_ne_targetOf (beside : settings.output = none) (writes : settings.write = true)
    {name other : String} (script : IsScriptName name) (script' : IsScriptName other)
    (apart : name ≠ other) :
    targetOf settings (FileName.inDirectory directory name) ≠
      targetOf settings (FileName.inDirectory directory other) := by
  intro same
  rw [targetOf_inDirectory beside directory script, targetOf_inDirectory beside directory script',
    if_pos writes, if_pos writes] at same
  have targets := FileName.inDirectory_injective directory (Option.some.inj same)
  exact apart (targetName_injective settings script script' targets)

theorem targetOf_ne_script (beside : settings.output = none) {name other : String}
    (script : IsScriptName name) (script' : IsScriptName other) :
    targetOf settings (FileName.inDirectory directory name) ≠
      some (FileName.inDirectory directory other) := by
  intro target
  have same := FileName.inDirectory_injective directory (eq_of_targetOf beside script target)
  exact targetName_ne settings script script' same.symm

/-- The place of a target is neither that of a script nor that of another target. -/
theorem place_of_target_apart (leads : files.Leads directory place)
    (beside : settings.output = none) {name other : String} (script : IsScriptName name)
    (script' : IsScriptName other) {output : String} {reached : Place}
    (target : targetOf settings (FileName.inDirectory directory name) = some output)
    (found : files.target output = .ok reached) :
    files.locate (FileName.inDirectory directory other) ≠ .ok reached ∧
      (name ≠ other → ∀ output',
        targetOf settings (FileName.inDirectory directory other) = some output' →
          files.target output' ≠ .ok reached) := by
  rw [eq_of_targetOf beside script target] at found
  rw [leads.eq_of_target (targetName_single settings script) (targetName_nonempty settings name)
    found]
  constructor
  · intro led
    have same := leads.eq_of_locate script'.named led
    exact targetName_ne settings script script' (by simpa using same)
  · intro apart output' target' found'
    rw [eq_of_targetOf beside script' target'] at found'
    have same := leads.eq_of_target (targetName_single settings script')
      (targetName_nonempty settings other) found'
    exact apart (targetName_injective settings script script' (by simpa using same))

/-- What a run on one script alone changes is changed in the run on all of them. -/
theorem Reached.changed (leads : files.Leads directory place) (beside : settings.output = none)
    {names : List String} {progress : Progress}
    (reached : Reached settings files directory place names progress) {name : String}
    (member : name ∈ names) (script : IsScriptName name) {other : Place}
    (h : (alone settings files (FileName.inDirectory directory name)).files.node? other ≠
      files.node? other) :
    progress.files.node? other =
      (alone settings files (FileName.inDirectory directory name)).files.node? other := by
  by_cases here : other = place ++ [targetName settings name]
  · rw [here]
    exact reached.converted name member
  · exact absurd (node?_alone leads beside script here) h

theorem Reached.unchanged {names : List String} {progress : Progress}
    (reached : Reached settings files directory place names progress) {other : Place}
    (h : ∀ name ∈ names,
      (alone settings files (FileName.inDirectory directory name)).files.node? other =
        files.node? other) :
    progress.files.node? other = files.node? other := by
  by_cases elsewhere : ∀ name ∈ names, other ≠ place ++ [targetName settings name]
  · exact reached.others other elsewhere
  · push Not at elsewhere
    obtain ⟨name, member, here⟩ := elsewhere
    rw [here, reached.converted name member, ← here]
    exact h name member

theorem convertDirectory_eq (beside : settings.output = none) (files : FileSystem)
    (directory : String) {progress : Progress}
    (h : (scripts files directory).foldl (Progress.step settings) ⟨⟨[], files⟩, "", 0⟩ = progress) :
    convertDirectory settings files directory =
      ⟨if progress.failed = 0 then 0 else 1, progress.stdout,
        progress.stderr ++ if progress.failed = 0 then ""
          else (Failure.scriptsFailed progress.failed (scripts files directory).length).report,
        progress.files⟩ := by
  rw [convertDirectory, beside]
  simp only [Option.isSome_none, Bool.false_eq_true, if_false, h]
  split <;> simp

end

/-- A run on a directory is made of independent runs on its scripts: each of them finds what it
would find alone, and what they print and write is put together in order. -/
theorem convertDirectory_isComposition {settings : Settings} {files : FileSystem}
    {directory : String} (proper : files.IsProper) (there : files.isDirectory directory = true)
    (beside : settings.output = none) :
    IsComposition settings files directory (convertDirectory settings files directory) := by
  obtain ⟨place, leads⟩ := leads_of_isDirectory there
  have named : ∀ name ∈ scriptNames files directory, IsScriptName name := fun name member =>
    isScriptName_of_mem leads proper member
  have distinct : (scriptNames files directory).Nodup :=
    (scriptNames_sorted leads proper).imp ne_of_lt
  obtain ⟨progress, run⟩ : ∃ progress, progress =
      (scripts files directory).foldl (Progress.step settings) ⟨⟨[], files⟩, "", 0⟩ := ⟨_, rfl⟩
  have reached : Reached settings files directory place (scriptNames files directory) progress := by
    rw [run, scripts_eq]
    -- The run begins with no script converted.
    show Reached settings files directory place ([] ++ scriptNames files directory) _
    exact reached_foldl leads beside named distinct reached_nil
  rw [convertDirectory_eq beside files directory run.symm]
  have none_failed : progress.failed = 0 ↔
      failing settings files (scripts files directory) = [] := by
    rw [reached.failed, ← scripts_eq, List.length_eq_zero_iff]
  have paths : ∀ path ∈ scripts files directory, ∃ name ∈ scriptNames files directory,
      path = FileName.inDirectory directory name := by
    intro path member
    obtain ⟨name, named, same⟩ := List.mem_map.mp member
    exact ⟨name, named, same.symm⟩
  refine ⟨mem_scripts_iff leads, scripts_sorted leads proper, reached.stdout, ?_, ?_, ?_, ?_,
    reached.kept.workingDirectory, ?_, ?_, ?_⟩
  · simp only [none_failed]
  · simp only [none_failed]
    rw [reached.stderr, reached.failed, ← scripts_eq]
  · intro path member other h
    obtain ⟨name, listed, rfl⟩ := paths path member
    exact reached.changed leads beside listed (named name listed) h
  · intro other h
    exact reached.unchanged fun name member => h _ (List.mem_map_of_mem member)
  · intro writes path member path' member' apart
    obtain ⟨name, listed, rfl⟩ := paths path member
    obtain ⟨other, listed', rfl⟩ := paths path' member'
    exact targetOf_ne_targetOf beside writes (named name listed) (named other listed')
      fun same => apart (congrArg _ same)
  · intro path member path' member'
    obtain ⟨name, listed, rfl⟩ := paths path member
    obtain ⟨other, listed', rfl⟩ := paths path' member'
    exact targetOf_ne_script beside (named name listed) (named other listed')
  · intro path member output reached target found path' member'
    obtain ⟨name, listed, rfl⟩ := paths path member
    obtain ⟨other, listed', rfl⟩ := paths path' member'
    obtain ⟨read, written⟩ := place_of_target_apart leads beside (named name listed)
      (named other listed') target found
    exact ⟨read, fun apart => written fun same => apart (congrArg _ same)⟩

/-- A directory with two scripts, one of them with a target that is no file, and a directory that
has the name of a script. -/
def sampleDirectory : FileSystem where
  workingDirectory := []
  nodes := [(["d"], .directory), (["d", "b.gradle"], .directory),
    (["d", "a.gradle"], .file (encodeUtf8 "k 1")), (["d", "a.json"], .file []),
    (["d", "..gradle"], .file (encodeUtf8 "k 2")), (["d", "notes"], .file [])]

theorem sampleDirectory_isComposition :
    sampleDirectory.IsProper ∧ sampleDirectory.isDirectory "d" = true ∧
      sampleSettings.output = none ∧
      IsComposition sampleSettings sampleDirectory "d"
        (convertDirectory sampleSettings sampleDirectory "d") := by
  have proper : sampleDirectory.IsProper := by decide +kernel
  have there : sampleDirectory.isDirectory "d" = true := by decide +kernel
  exact ⟨proper, there, rfl, convertDirectory_isComposition proper there rfl⟩

end BuildScript.Command
