import BuildScript.Command.Run
import BuildScript.Proofs.Files.Places

/-!
# One conversion

What a conversion prints and writes is settled before it touches anything: it is an effect, found
from the text that is read and the place that the output goes to.  A conversion in any world has
that effect, or it fails and leaves the world as it was.
-/

namespace BuildScript.Command

/-! ## Effects -/

/-- What a conversion that succeeds does: the bytes that it prints and the file that it writes. -/
structure Effect where
  stdout : Bytes
  written : Option (Place × Bytes)

def Effect.on (effect : Effect) (world : World) : World :=
  ⟨world.stdout ++ effect.stdout,
    match effect.written with
    | none => world.files
    | some (place, content) => world.files.set place (.file content)⟩

/-- The effect of bytes that go to a file or are printed. -/
def deliverEffect (files : FileSystem) (target : Option String) (bytes : Bytes) :
    Except Failure Effect :=
  match target with
  | none => .ok ⟨bytes, none⟩
  | some path =>
    match files.target path with
    | .ok place => .ok ⟨[], some (place, bytes)⟩
    | .error reason => .error (.unwritable path reason)

/-- The effect of converting a text that goes by a name. -/
def textEffect (settings : Settings) (files : FileSystem) (name : String)
    (target : Option String) (text : String) : Except Failure Effect :=
  match parseText { settings.options with filename := some name } text with
  | .error error => .error (.parse error)
  | .ok doc =>
    if settings.check then .ok ⟨encodeUtf8 (name ++ ": ok\n"), none⟩
    else deliverEffect files target (settings.format.content doc)

/-- The effect of converting a file. -/
def fileEffect (settings : Settings) (files : FileSystem) (path : String) :
    Except Failure Effect :=
  match files.readText path with
  | .error reason => .error (.parse (.unreadable path reason))
  | .ok text => textEffect settings files path (targetOf settings path) text

/-- The effect of converting the standard input. -/
def inputEffect (settings : Settings) (files : FileSystem) (stdin : Bytes) :
    Except Failure Effect :=
  if settings.write then .error .writeNeedsFile
  else match decodeUtf8? stdin with
    | none => .error (.unreadableInput .notText)
    | some text => textEffect settings files "<stdin>" settings.output text

/-- How a conversion with the given outcome ends. -/
def settled (world : World) : Except Failure Effect → EStateM.Result Failure World Unit
  | .ok effect => .ok () (effect.on world)
  | .error failure => .error failure world

theorem run_deliver (target : Option String) (bytes : Bytes) (world : World) :
    (deliver target bytes).run world = settled world (deliverEffect world.files target bytes) := by
  cases target with
  | none => rfl
  | some path =>
    cases found : world.files.target path with
    | error reason =>
      have blocked : world.files.write path bytes = .error reason := by
        simp [FileSystem.write, found]
      simp [deliver, writeFile, blocked, deliverEffect, found, settled]
    | ok place =>
      have written : world.files.write path bytes = .ok (world.files.set place (.file bytes)) := by
        simp [FileSystem.write, found]
      simp [deliver, writeFile, written, deliverEffect, found, settled, Effect.on]

theorem run_finish (settings : Settings) (name : String) (target : Option String)
    (doc : Document) (world : World) :
    (finish settings name target doc).run world = settled world
      (if settings.check then .ok ⟨encodeUtf8 (name ++ ": ok\n"), none⟩
        else deliverEffect world.files target (settings.format.content doc)) := by
  unfold finish
  split
  · rfl
  · exact run_deliver target _ world

/-- A file is converted, or nothing is changed. -/
theorem run_convertFile (settings : Settings) (path : String) (world : World) :
    (convertFile settings path).run world =
      settled world (fileEffect settings world.files path) := by
  have unfolded : (convertFile settings path).run world =
      (match parseFile world.files settings.options path with
        | .error error => throw (.parse error)
        | .ok doc => finish settings path (targetOf settings path) doc : Conversion).run world := rfl
  rw [unfolded, fileEffect, parseFile]
  cases world.files.readText path with
  | error reason => rfl
  | ok text =>
    have named : settings.options.filename.getD path = path := rfl
    simp only [textEffect, named]
    cases parseText { settings.options with filename := some path } text with
    | error error => rfl
    | ok doc => exact run_finish settings path (targetOf settings path) doc world

/-- The standard input is converted, or nothing is changed. -/
theorem run_convertInput (settings : Settings) (stdin : Bytes) (world : World) :
    (convertInput settings stdin).run world =
      settled world (inputEffect settings world.files stdin) := by
  unfold convertInput inputEffect textEffect
  split
  · rfl
  · cases decodeUtf8? stdin with
    | none => rfl
    | some text =>
      simp only
      cases parseText { settings.options with filename := some "<stdin>" } text with
      | error error => rfl
      | ok doc => exact run_finish settings "<stdin>" settings.output doc world

/-! ## Texts -/

/-- The name of the input stands in errors only. -/
theorem parseText_eq_ok_iff (options : ParseOptions) (name : Option String) (text : String)
    (doc : Document) :
    parseText { options with filename := name } text = .ok doc ↔
      parseText options text = .ok doc := by
  unfold parseText
  split
  · simp
  · simp only
    split <;> simp

theorem parseText_fails_iff (options : ParseOptions) (name : Option String) (text : String) :
    (∃ error, parseText { options with filename := name } text = .error error) ↔
      ∃ error, parseText options text = .error error := by
  unfold parseText
  split
  · simp
  · simp only
    split <;> simp

/-- The line feed behind an encoding: a text has one at its end already or gets it. -/
def lineEnd (format : Format) (bytes : Bytes) : Bytes :=
  if format ≠ .cbor ∧ bytes.getLast? ≠ some 10 then [10] else []

theorem content_eq (format : Format) (doc : Document) :
    format.content doc = format.encode doc ++ lineEnd format (format.encode doc) := by
  have binary : format.isBinary = true ↔ format = .cbor := by cases format <;> simp [Format.isBinary]
  by_cases cbor : format = .cbor
  · simp [Format.content, lineEnd, cbor, Format.isBinary]
  · by_cases ended : (format.encode doc).getLast? = some 10
    · simp [Format.content, lineEnd, ended]
    · have text : format.isBinary = false := by rwa [← Bool.not_eq_true, binary]
      simp [Format.content, lineEnd, ended, cbor, text]

/-! ## Runs on one script -/

/-- What a run on one script reads, unless it cannot be read or is not text. -/
def input? (settings : Settings) (invocation : Invocation) : Option String :=
  if settings.path = "-" then decodeUtf8? invocation.stdin
  else (invocation.files.readText settings.path).toOption

def inputName (settings : Settings) : String :=
  if settings.path = "-" then "<stdin>" else settings.path

/-- What a run on one script can fail at. -/
inductive Fails (settings : Settings) (invocation : Invocation) : Prop where
  | unreadable (h : input? settings invocation = none)
  | overLimit {text : String} {error : ParseError} (read : input? settings invocation = some text)
      (h : parseText settings.options text = .error error)
  | writeWithoutFile (path : settings.path = "-") (h : settings.write = true)
  | unwritable {path : String} {reason : FileError} (converts : settings.check = false)
      (target : targetOf settings settings.path = some path)
      (h : invocation.files.target path = .error reason)

/-- The bytes have come to one place: to the standard output when there is no target, or else to
the file that the target names. -/
inductive Delivered (files : FileSystem) (bytes : Bytes) :
    Option String → Bytes → FileSystem → Prop where
  | printed : Delivered files bytes none bytes files
  | written {path : String} {place : Place} {after : FileSystem}
      (target : files.target path = .ok place) (content : after.read path = .ok bytes)
      (changed : after.node? place = some (.file bytes))
      (unchanged : ∀ other, other ≠ place → after.node? other = files.node? other)
      (workingDirectory : after.workingDirectory = files.workingDirectory) :
      Delivered files bytes (some path) [] after

/-- A run on one script converts it, to one place, or leaves everything as it is. -/
structure IsAllOrNothing (settings : Settings) (invocation : Invocation) (result : Result) :
    Prop where
  code : result.code = 0 ∨ result.code = 1
  code_eq_one : result.code = 1 ↔ Fails settings invocation
  failed : result.code = 1 → result.stdout = [] ∧ result.files = invocation.files
  checked : result.code = 0 → settings.check = true →
    result.stdout = encodeUtf8 (inputName settings ++ ": ok\n") ∧ result.files = invocation.files
  converted : result.code = 0 → settings.check = false →
    ∃ text doc, input? settings invocation = some text ∧
      parseText settings.options text = .ok doc ∧
      Delivered invocation.files
        (settings.format.encode doc ++ lineEnd settings.format (settings.format.encode doc))
        (targetOf settings settings.path) result.stdout result.files

/-- What is delivered is printed or written, never both. -/
theorem delivered_of_deliverEffect {files : FileSystem} {target : Option String} {bytes : Bytes}
    {effect : Effect} (h : deliverEffect files target bytes = .ok effect) :
    Delivered files bytes target (effect.on ⟨[], files⟩).stdout (effect.on ⟨[], files⟩).files := by
  cases target with
  | none =>
    cases h
    exact .printed
  | some path =>
    unfold deliverEffect at h
    cases found : files.target path with
    | error reason => simp [found] at h
    | ok place =>
      simp only [found, Except.ok.injEq] at h
      subst h
      refine .written found (FileSystem.read_set_target bytes found) ?_ ?_ rfl
      · simp [Effect.on, FileSystem.node?_set_target bytes found]
      · intro other elsewhere
        simp [Effect.on, FileSystem.node?_set_target bytes found, elsewhere]

theorem textEffect_fails {settings : Settings} {invocation : Invocation} {failure : Failure}
    {name text : String} (read : input? settings invocation = some text)
    (h : textEffect settings invocation.files name (targetOf settings settings.path) text =
      .error failure) : Fails settings invocation := by
  unfold textEffect at h
  cases parsed : parseText { settings.options with filename := some name } text with
  | error error =>
    obtain ⟨error, failed⟩ := (parseText_fails_iff settings.options _ text).mp ⟨error, parsed⟩
    exact .overLimit read failed
  | ok doc =>
    simp only [parsed] at h
    split at h
    · contradiction
    · rename_i unchecked
      unfold deliverEffect at h
      split at h
      · contradiction
      · rename_i path target
        split at h
        · contradiction
        · rename_i reason blocked
          exact .unwritable (by simpa using unchecked) target blocked

theorem textEffect_ok {settings : Settings} {files : FileSystem} {effect : Effect}
    {name text : String} {target : Option String}
    (h : textEffect settings files name target text = .ok effect) :
    ∃ doc, parseText settings.options text = .ok doc ∧
      if settings.check then effect = ⟨encodeUtf8 (name ++ ": ok\n"), none⟩
      else deliverEffect files target (settings.format.content doc) = .ok effect := by
  unfold textEffect at h
  cases parsed : parseText { settings.options with filename := some name } text with
  | error error => simp [parsed] at h
  | ok doc =>
    refine ⟨doc, (parseText_eq_ok_iff _ _ _ _).mp parsed, ?_⟩
    simp only [parsed] at h
    split at h
    · rename_i checked
      simpa [checked, eq_comm] using h
    · rename_i unchecked
      simpa [unchecked] using h

/-- No failure stands in the way of a conversion that has an effect. -/
theorem not_fails_of_effect {settings : Settings} {invocation : Invocation} {effect : Effect}
    {text : String} (read : input? settings invocation = some text)
    (fromFile : settings.path = "-" → settings.write = false)
    (h : textEffect settings invocation.files (inputName settings)
      (targetOf settings settings.path) text = .ok effect) : ¬ Fails settings invocation := by
  obtain ⟨doc, parsed, done⟩ := textEffect_ok h
  intro fails
  cases fails with
  | unreadable h => simp [h] at read
  | overLimit read' failed =>
    cases read.symm.trans read'
    simp [parsed] at failed
  | writeWithoutFile path write => simp [fromFile path] at write
  | unwritable converts target blocked => simp [converts, target, deliverEffect, blocked] at done

theorem isAllOrNothing_of_effect {settings : Settings} {invocation : Invocation}
    {conversion : Conversion} {outcome : Except Failure Effect}
    (run : conversion.run ⟨[], invocation.files⟩ = settled ⟨[], invocation.files⟩ outcome)
    (failure : ∀ failure, outcome = .error failure → Fails settings invocation)
    (success : ∀ effect, outcome = .ok effect → (settings.path = "-" → settings.write = false) ∧
      ∃ text, input? settings invocation = some text ∧
        textEffect settings invocation.files (inputName settings)
          (targetOf settings settings.path) text = .ok effect) :
    IsAllOrNothing settings invocation (.ofConversion invocation.files conversion) := by
  rw [Result.ofConversion, run]
  cases outcome with
  | error reason =>
    have fails := failure reason rfl
    exact {
      code := .inr rfl
      code_eq_one := ⟨fun _ => fails, fun _ => rfl⟩
      failed := fun _ => ⟨rfl, rfl⟩
      checked := by intro code; contradiction
      converted := by intro code; contradiction }
  | ok effect =>
    obtain ⟨fromFile, text, read, converted⟩ := success effect rfl
    obtain ⟨doc, parsed, done⟩ := textEffect_ok converted
    have sound := not_fails_of_effect read fromFile converted
    refine ⟨.inl rfl, ⟨?_, fun fails => absurd fails sound⟩, ?_, ?_, ?_⟩
    · intro code
      contradiction
    · intro code
      contradiction
    · intro _ checked
      rw [if_pos checked] at done
      subst done
      exact ⟨rfl, rfl⟩
    · intro _ unchecked
      rw [if_neg (by simp [unchecked]), content_eq] at done
      exact ⟨text, doc, read, parsed, delivered_of_deliverEffect done⟩

/-! ## Standard input and files -/

theorem targetOf_of_reads {settings : Settings} (path : String) (h : settings.write = false) :
    targetOf settings path = settings.output := by
  unfold targetOf
  cases settings.output with
  | none => simp [h]
  | some output => rfl

theorem inputEffect_fails {settings : Settings} {invocation : Invocation} {failure : Failure}
    (input : settings.path = "-")
    (h : inputEffect settings invocation.files invocation.stdin = .error failure) :
    Fails settings invocation := by
  unfold inputEffect at h
  split at h
  · rename_i write
    exact .writeWithoutFile input write
  · rename_i reads
    split at h
    · rename_i binary
      exact .unreadable (by rw [input?, if_pos input, binary])
    · rename_i text decoded
      rw [← targetOf_of_reads settings.path (by simpa using reads)] at h
      exact textEffect_fails (by rw [input?, if_pos input, decoded]) h

theorem inputEffect_ok {settings : Settings} {invocation : Invocation} {effect : Effect}
    (input : settings.path = "-")
    (h : inputEffect settings invocation.files invocation.stdin = .ok effect) :
    settings.write = false ∧ ∃ text, input? settings invocation = some text ∧
      textEffect settings invocation.files (inputName settings)
        (targetOf settings settings.path) text = .ok effect := by
  unfold inputEffect at h
  split at h
  · contradiction
  · rename_i reads
    have reads : settings.write = false := by simpa using reads
    split at h
    · contradiction
    · rename_i text decoded
      refine ⟨reads, text, by rw [input?, if_pos input, decoded], ?_⟩
      rwa [inputName, if_pos input, targetOf_of_reads settings.path reads]

theorem fileEffect_fails {settings : Settings} {invocation : Invocation} {failure : Failure}
    (file : settings.path ≠ "-")
    (h : fileEffect settings invocation.files settings.path = .error failure) :
    Fails settings invocation := by
  unfold fileEffect at h
  split at h
  · rename_i reason unread
    exact .unreadable (by rw [input?, if_neg file, unread]; rfl)
  · rename_i text read
    exact textEffect_fails (by rw [input?, if_neg file, read]; rfl) h

theorem fileEffect_ok {settings : Settings} {invocation : Invocation} {effect : Effect}
    (file : settings.path ≠ "-")
    (h : fileEffect settings invocation.files settings.path = .ok effect) :
    ∃ text, input? settings invocation = some text ∧
      textEffect settings invocation.files (inputName settings)
        (targetOf settings settings.path) text = .ok effect := by
  unfold fileEffect at h
  split at h
  · contradiction
  · rename_i text read
    refine ⟨text, by rw [input?, if_neg file, read]; rfl, ?_⟩
    rwa [inputName, if_neg file]

/-- A run on standard input or on a file is all or nothing: when it fails, it prints nothing and
leaves every file as it was; when it succeeds, the encoding of the document is in one place. -/
theorem run_isAllOrNothing {settings : Settings} {invocation : Invocation}
    (accepted : Command.settings invocation.arguments invocation.environment = .ok settings)
    (single : settings.path = "-" ∨ invocation.files.isDirectory settings.path = false) :
    IsAllOrNothing settings invocation (run invocation) := by
  simp only [run, accepted, convert]
  by_cases input : settings.path = "-"
  · rw [if_pos input]
    apply isAllOrNothing_of_effect (run_convertInput settings invocation.stdin _)
    · intro failure h
      exact inputEffect_fails input h
    · intro effect h
      obtain ⟨reads, converted⟩ := inputEffect_ok input h
      exact ⟨fun _ => reads, converted⟩
  · have file := single.resolve_left input
    rw [if_neg input, if_neg (by simp [file])]
    apply isAllOrNothing_of_effect (run_convertFile settings settings.path _)
    · intro failure h
      exact fileEffect_fails input h
    · intro effect h
      exact ⟨fun path => absurd path input, fileEffect_ok input h⟩

/-- A script beside the file that its conversion replaces. -/
def sampleInvocation : Invocation where
  arguments := ["-w", "a.gradle"]
  environment := fun _ => none
  stdin := []
  files := ⟨["work"], [(["work"], .directory), (["work", "a.gradle"], .file (encodeUtf8 "k 1")),
    (["work", "a.json"], .file [])]⟩

def sampleSettings : Settings :=
  ⟨"a.gradle", .json, none, true, false, 128, 16777216⟩

theorem sampleInvocation_isAllOrNothing :
    settings sampleInvocation.arguments sampleInvocation.environment = .ok sampleSettings ∧
      sampleInvocation.files.isDirectory "a.gradle" = false ∧
      IsAllOrNothing sampleSettings sampleInvocation (run sampleInvocation) := by
  have accepted : settings sampleInvocation.arguments sampleInvocation.environment =
      .ok sampleSettings := by rfl
  have file : sampleInvocation.files.isDirectory "a.gradle" = false := by decide +kernel
  exact ⟨accepted, file, run_isAllOrNothing accepted (.inr file)⟩

end BuildScript.Command
