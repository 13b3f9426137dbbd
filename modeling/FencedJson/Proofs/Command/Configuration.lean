import FencedJson.Command.Run
import FencedJson.Proofs.Files.Direct
import FencedJson.Proofs.Yaml.Values

/-! # Configurations that cannot be used

A configuration that is at fault is reported, with its own exit status and
nothing on the output. What breaks a run off without a report are obstacles:
something else than a file, bytes that are no text, and texts at which the
reader of YAML fails without finding a problem with them.
-/

namespace FencedJson

def ConfigFailure.isFault : ConfigFailure → Bool
  | fault _ _ => true
  | _ => false

namespace ConfigFile

variable {reader : Yaml.Reader} {disk : Disk} {path : Path}
  {failure : ConfigFailure}

/-- What keeps the configuration at a path from being looked into. -/
inductive IsObstructedBy (reader : Yaml.Reader) (disk : Disk) (path : Path) :
    ConfigFailure → Prop
  | kind {found : FileTree} (there : disk.find (disk.fromRoot path) = .ok found)
      (noFile : found.isFile = false) :
      IsObstructedBy reader disk path (.path .isADirectory)
  | encoding {content : List UInt8} {fault : Utf8.Fault}
      (read : disk.read path = .ok content)
      (failed : decode content = .error fault) :
      IsObstructedBy reader disk path (.encoding fault)
  | conversion {content : List UInt8} {text : List Char}
      {failure : Yaml.Failure} (read : disk.read path = .ok content)
      (decoded : decode content = .ok text)
      (failed : reader text = .error failure)
      (foreign : failure.isProblem = false) :
      IsObstructedBy reader disk path (.conversion failure)

theorem holds_of_find {found : FileTree}
    (there : disk.find (disk.fromRoot path) = .ok found) :
    disk.holds (disk.fromRoot path) = true := by
  simp [Disk.holds, Disk.find?, there, Except.toOption]

private theorem exists_find_of_holds
    (holds : disk.holds (disk.fromRoot path) = true) :
    ∃ found, disk.find (disk.fromRoot path) = .ok found := by
  cases there : disk.find (disk.fromRoot path) with
  | ok found => exact ⟨found, rfl⟩
  | error problem =>
      simp [Disk.holds, Disk.find?, there, Except.toOption] at holds

theorem holds_of_read {content : List UInt8}
    (read : disk.read path = .ok content) :
    disk.holds (disk.fromRoot path) = true := by
  unfold Disk.read at read
  split at read
  · cases read
  · next there => exact holds_of_find there
  · cases read

theorem noFile_of_read {problem : PathProblem}
    (holds : disk.holds (disk.fromRoot path) = true)
    (failed : disk.read path = .error problem) :
    problem = .isADirectory ∧
      ∃ found, disk.find (disk.fromRoot path) = .ok found ∧
      found.isFile = false := by
  rcases exists_find_of_holds holds with ⟨found, there⟩
  unfold Disk.read at failed
  rw [there] at failed
  cases found with
  | file content => cases failed
  | link target =>
      cases failed
      exact ⟨rfl, _, there, rfl⟩
  | directory entries =>
      cases failed
      exact ⟨rfl, _, there, rfl⟩

private theorem read_of_noFile {found : FileTree}
    (there : disk.find (disk.fromRoot path) = .ok found)
    (noFile : found.isFile = false) :
    disk.read path = .error .isADirectory := by
  unfold Disk.read
  rw [there]
  cases found with
  | file content => cases noFile
  | link target => rfl
  | directory entries => rfl

theorem IsObstructedBy.load_eq
    (obstructed : IsObstructedBy reader disk path failure) :
    load reader disk path = .error failure := by
  unfold load
  cases obstructed with
  | kind there noFile =>
      simp only [holds_of_find there, read_of_noFile there noFile, if_pos]
  | encoding read failed => simp only [holds_of_read read, read, failed, if_pos]
  | conversion read decoded failed foreign =>
      simp only [holds_of_read read, read, decoded, failed, if_pos]
      split
      · next same => cases same; cases foreign
      · next same => cases same; rfl
      · next same => cases same

theorem IsObstructedBy.isFault_eq
    (obstructed : IsObstructedBy reader disk path failure) :
    failure.isFault = false := by
  cases obstructed <;> rfl

theorem isObstructedBy_of_load (failed : load reader disk path = .error failure)
    (foreign : failure.isFault = false) :
    IsObstructedBy reader disk path failure := by
  unfold load at failed
  split at failed
  · next holds =>
      split at failed
      · next problem stopped =>
          cases failed
          rcases noFile_of_read holds stopped with ⟨rfl, found, there, noFile⟩
          exact .kind there noFile
      · next content read =>
          split at failed
          · next stopped =>
              cases failed
              exact .encoding read stopped
          · next text decoded =>
              split at failed
              · cases failed
                cases foreign
              · next stop other stopped =>
                  cases failed
                  have noProblem : stop.isProblem = false := by
                    cases stop with
                    | problem problem => exact (other problem rfl).elim
                    | _ => rfl
                  exact .conversion read decoded stopped noProblem
              · rcases mapError_eq_error_iff.1 failed with ⟨fault, -, rfl⟩
                cases foreign
  · cases failed

theorem path_of_load {other : Path} {fault : ConfigFault}
    (failed : load reader disk path = .error (.fault other fault)) :
    other = path := by
  unfold load at failed
  split at failed
  · split at failed
    · cases failed
    · split at failed
      · cases failed
      · split at failed
        · cases failed
          rfl
        · cases failed
        · rcases mapError_eq_error_iff.1 failed with ⟨cause, -, same⟩
          cases same
          rfl
  · cases failed

theorem load_cases (reader : Yaml.Reader) (disk : Disk) (path : Path) :
    (∃ config, load reader disk path = .ok config) ∨
      (∃ fault, load reader disk path = .error (.fault path fault)) ∨
      ∃ failure, IsObstructedBy reader disk path failure := by
  cases outcome : load reader disk path with
  | ok config => exact .inl ⟨config, rfl⟩
  | error failure =>
      cases foreign : failure.isFault with
      | false =>
          exact .inr (.inr ⟨failure, isObstructedBy_of_load outcome foreign⟩)
      | true =>
          cases failure with
          | fault other fault =>
              rw [path_of_load outcome]
              exact .inr (.inl ⟨fault, rfl⟩)
          | _ => cases foreign

theorem isHinderedBy_of_isObstructedBy {levels : Nat} {stop : Yaml.Failure}
    (obstructed : IsObstructedBy (Yaml.load levels) disk path
      (.conversion stop)) :
    ∃ content text, disk.read path = .ok content ∧ decode content = .ok text ∧
      Yaml.IsHinderedBy levels text stop := by
  cases obstructed with
  | conversion read decoded failed foreign =>
      exact ⟨_, _, read, decoded, Yaml.isHinderedBy_of_load failed foreign⟩

end ConfigFile

namespace Command

open ConfigFile (IsObstructedBy)

theorem run_eq_runWith {reader : Yaml.Reader} {stack : Stack} {disk : Disk}
    {environment : Environment} {words : List String} {settings : Settings}
    {arguments : Arguments} {level : Level}
    (settled : Settings.load disk environment = .ok settings)
    (asked : request (standardArguments settings) words = .ok (.run arguments))
    (known :
      Level.ofName? (String.ofList (Caseless.upper settings.logLevel.toList)) =
        some level) :
    run reader stack disk environment words =
      runWith reader stack disk level arguments := by
  simp only [run, settled, asked, known]

/-- Loading a configuration comes out well or finds it at fault exactly where
there is no obstacle. A run whose settings, arguments and level are in order
then checks the files or reports the fault, and breaks off at an obstacle. -/
theorem run_configuration (reader : Yaml.Reader) (stack : Stack) (disk : Disk) :
    (∀ path, (∀ failure, ¬ IsObstructedBy reader disk path failure) ↔
      (∃ config, ConfigFile.load reader disk path = .ok config) ∨
        ∃ fault, ConfigFile.load reader disk path =
          .error (.fault path fault)) ∧
    (∀ path failure, IsObstructedBy reader disk path failure →
      ConfigFile.load reader disk path = .error failure) ∧
    ∀ environment words settings arguments level,
      Settings.load disk environment = .ok settings →
      request (standardArguments settings) words = .ok (.run arguments) →
      Level.ofName? (String.ofList (Caseless.upper settings.logLevel.toList)) =
        some level →
      (∀ config, ConfigFile.load reader disk
        (configPath arguments) = .ok config →
        run reader stack disk environment words =
          check stack disk level arguments config) ∧
      (∀ fault, ConfigFile.load reader disk (configPath arguments) =
          .error (.fault (configPath arguments) fault) →
        ∃ report, run reader stack disk environment words = .ok report ∧
          report.status.code = 2 ∧ report.outputText = "" ∧
          report.complaint = some (.config (configPath arguments) fault)) ∧
      ∀ failure, IsObstructedBy reader disk (configPath arguments) failure →
        run reader stack disk environment words = .error (.config failure) := by
  refine ⟨fun path => ⟨fun free => ?_, fun outcome failure obstructed => ?_⟩,
    fun path failure obstructed => obstructed.load_eq, ?_⟩
  · rcases ConfigFile.load_cases reader disk path with
      loaded | faulty | ⟨failure, obstructed⟩
    · exact .inl loaded
    · exact .inr faulty
    · exact (free failure obstructed).elim
  · rcases outcome with ⟨config, loaded⟩ | ⟨fault, faulty⟩
    · rw [obstructed.load_eq] at loaded
      cases loaded
    · rw [obstructed.load_eq] at faulty
      cases faulty
      cases obstructed.isFault_eq
  · intro environment words settings arguments level settled asked known
    rw [run_eq_runWith settled asked known]
    unfold runWith
    refine ⟨fun config loaded => ?_, fun fault faulty => ?_,
      fun failure obstructed => ?_⟩
    · simp only [loaded]
    · simp only [faulty]
      exact ⟨_, rfl, rfl, rfl, rfl⟩
    · have foreign := obstructed.isFault_eq
      simp only [obstructed.load_eq]
      split
      · next same => cases same
      · next same =>
          cases same
          cases foreign
      · next same =>
          cases same
          rfl

theorem settings_of_missing {disk : Disk}
    (missing : disk.find? (disk.fromRoot (.ofString Settings.fileName)) =
      none) :
    Settings.load disk [] = .ok .standard := by
  rw [Settings.load, Settings.fileTable, missing]
  rfl

def diskOf (content : List UInt8) : Disk :=
  ⟨.directory [(".mdjsonlint.yaml", .file content)], []⟩

theorem settings_diskOf (content : List UInt8) :
    Settings.load (diskOf content) [] = .ok .standard := by
  have unlinked : (diskOf content).IsUnlinked := .of_tree rfl rfl
  have missing := unlinked.find?_eq (show ".." ∉ [".env"] by decide)
  exact settings_of_missing missing

theorem request_standard :
    request (standardArguments .standard) [] =
      .ok (.run (standardArguments .standard)) := rfl

theorem level_standard :
    Level.ofName?
      (String.ofList (Caseless.upper Settings.standard.logLevel.toList)) =
        some .info := by
  decide +kernel

theorem configPath_standard :
    configPath (standardArguments .standard) = ⟨"", [".mdjsonlint.yaml"]⟩ := by
  decide +kernel

private theorem ofDatum_of_list {datum : Datum} (kind : datum.kind = "list") :
    ConfigFile.ofDatum datum = .error (.notAMapping "list") := by
  cases datum <;> first | rfl | simp [Datum.kind] at kind

/-- A list is no configuration, which is reported. -/
theorem run_configuration_list :
    ∃ report, run (Yaml.load 480) .standard (diskOf [0x2d, 0x20, 0x61]) [] [] =
      .ok report ∧ report.status.code = 2 ∧ report.outputText = "" ∧
      report.complaint =
        some (.config ⟨"", [".mdjsonlint.yaml"]⟩ (.notAMapping "list")) := by
  have read : (diskOf [0x2d, 0x20, 0x61]).read ⟨"", [".mdjsonlint.yaml"]⟩ =
      .ok [0x2d, 0x20, 0x61] := by decide +kernel
  have decoded : ConfigFile.decode [0x2d, 0x20, 0x61] =
      .ok ['-', ' ', 'a'] := by decide +kernel
  have loaded : (Yaml.load 480 ['-', ' ', 'a']).map Datum.kind =
      .ok "list" := by decide +kernel
  rcases map_eq_ok_iff.1 loaded with ⟨datum, given, kind⟩
  have faulty : ConfigFile.load (Yaml.load 480) (diskOf [0x2d, 0x20, 0x61])
      ⟨"", [".mdjsonlint.yaml"]⟩ =
        .error (.fault ⟨"", [".mdjsonlint.yaml"]⟩ (.notAMapping "list")) := by
    simp only [ConfigFile.load, ConfigFile.holds_of_read read, if_true, read,
      decoded, given, ofDatum_of_list kind]
    rfl
  rw [← configPath_standard] at faulty ⊢
  have outcome :=
    (run_configuration (Yaml.load 480) .standard
      (diskOf [0x2d, 0x20, 0x61])).2.2 [] [] _ _ .info
        (settings_diskOf _) request_standard level_standard
  exact outcome.2.1 _ faulty

/-- A byte that is no text breaks loading and the run off, though there is a
file. -/
theorem run_configuration_broken_byte :
    ConfigFile.load (Yaml.load 480) (diskOf [0xff]) ⟨"", [".mdjsonlint.yaml"]⟩ =
        .error (.encoding ⟨.badStart, 0, 1, 0xff⟩) ∧
      run (Yaml.load 480) .standard (diskOf [0xff]) [] [] =
        .error (.config (.encoding ⟨.badStart, 0, 1, 0xff⟩)) := by
  have broken : ConfigFile.load (Yaml.load 480) (diskOf [0xff])
      ⟨"", [".mdjsonlint.yaml"]⟩ =
        .error (.encoding ⟨.badStart, 0, 1, 0xff⟩) := by
    have read : (diskOf [0xff]).read ⟨"", [".mdjsonlint.yaml"]⟩ =
        .ok [0xff] := by decide +kernel
    exact (ConfigFile.IsObstructedBy.encoding read (by decide +kernel)).load_eq
  refine ⟨broken, ?_⟩
  rw [run_eq_runWith (settings_diskOf [0xff]) request_standard level_standard]
  simp only [runWith, configPath_standard, broken]

end Command
end FencedJson
