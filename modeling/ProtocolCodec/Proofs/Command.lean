import ProtocolCodec.Command
import ProtocolCodec.Proofs.Load

/-!
# Generating code from the command line

What the command that generates code comes to, for every file tree and all options. Everything is
read before anything is written, so a run that fails to load its files leaves the tree as it was; a
run that writes a file adds directories above it and touches nothing else.
-/

namespace ProtocolCodec

namespace FileTree

variable {tree later : FileTree} {path text : String}

/-! ## Delivering a text -/

/-- The later tree is the tree with a text under a path. At any other place there is what was there
before, or a directory on the way to the path. -/
structure Delivers (tree : FileTree) (path text : String) (later : FileTree) : Prop where
  reads : later.Reads path (.ok text)
  elsewhere : ∃ location, later.locate path = .ok (later.place location) ∧
    ∀ other, other ≠ location → later.sight other = tree.sight other ∨
      tree.sight other = .nothing ∧ later.sight other = .directory ∧
        ∃ ancestor ∈ Files.ancestors ((Files.parent? path).getD ""),
          later.locate ancestor = .ok (later.place other)

/-- What is made before the text is written stays in the tree that it is written into. -/
theorem Grows.delivers {grown : FileTree}
    (hgrows : tree.Grows (Files.ancestors ((Files.parent? path).getD "")) grown)
    (hwrite : grown.writeText path text = .ok later) : tree.Delivers path text later := by
  obtain ⟨location, hkeeps, hlocate, hsight⟩ := sight_writeBytes hwrite
  refine ⟨.text hlocate (by rw [hsight, if_pos rfl]), location, hlocate, ?_⟩
  intro other hother
  rw [hsight, if_neg hother]
  rcases hgrows.sight other with hsame | ⟨hnothing, hdirectory, ancestor, hancestor, hleads⟩
  · exact .inl hsame
  · have hlater := hkeeps.locate hleads
    rw [location_place] at hlater
    exact .inr ⟨hnothing, hdirectory, ancestor, hancestor, hlater⟩

/-- Delivery either succeeds or has done no more than make directories. -/
theorem deliver_cases (tree : FileTree) (path text : String) :
    (tree.deliver path text).1 = none ∧ tree.Delivers path text (tree.deliver path text).2 ∨
      (tree.deliver path text).1.isSome = true ∧
        tree.Grows (Files.ancestors ((Files.parent? path).getD "")) (tree.deliver path text).2 := by
  have hgrows : tree.Grows _ (tree.makeDirectories ((Files.parent? path).getD "")).2 :=
    grows_makeDirectories
  -- by its definition and not by an equation, so that no directories are made in the process
  delta deliver
  dsimp only
  split
  next hmade =>
    rw [hmade] at hgrows
    exact .inr ⟨rfl, hgrows⟩
  next hmade =>
    rw [hmade] at hgrows
    split
    next => exact .inr ⟨rfl, hgrows⟩
    next hwrite => exact .inl ⟨rfl, hgrows.delivers hwrite⟩

end FileTree

/-! ## Runs -/

namespace GenerateOptions

variable {options : GenerateOptions} {tree : FileTree}

/-- What getting the settings of a run comes to: the standard ones when no file is named, otherwise
what loading the file comes to. -/
inductive Configures (options : GenerateOptions) (tree : FileTree) :
    Except RunError Settings → Prop where
  | standard (hconfig : options.config = none) : Configures options tree (.ok .standard)
  | loaded {path : String} {settings : Settings} (hconfig : options.config = some path)
      (hload : tree.Loads Settings.ofText path (.ok settings)) :
      Configures options tree (.ok settings)
  | failed {path : String} {error : LoadError} (hconfig : options.config = some path)
      (hload : tree.Loads Settings.ofText path (.error error)) :
      Configures options tree (.error (.settings path error))

/-- What the settings come to is what the run gets. -/
theorem Configures.settings_eq {outcome : Except RunError Settings}
    (h : options.Configures tree outcome) : options.settings tree.readText = outcome := by
  unfold GenerateOptions.settings
  cases h with
  | standard hconfig => simp only [hconfig]
  | loaded hconfig hload => simp only [hconfig, Settings.load, hload.load_eq, Except.mapError]
  | failed hconfig hload => simp only [hconfig, Settings.load, hload.load_eq, Except.mapError]

theorem exists_configures (options : GenerateOptions) (tree : FileTree) :
    ∃ outcome, options.Configures tree outcome := by
  cases hconfig : options.config with
  | none => exact ⟨_, .standard hconfig⟩
  | some path =>
      obtain ⟨outcome, hload⟩ := tree.exists_loads Settings.ofText path
      cases outcome with
      | error error => exact ⟨_, .failed hconfig hload⟩
      | ok settings => exact ⟨_, .loaded hconfig hload⟩

/-- Where the generated text is to go. -/
def answer (options : GenerateOptions) (text : String) : Answer :=
  match options.out with
  | some path => { file := some (path, text) }
  | none => { stdout := text }

/-- Showing the options takes no file. -/
theorem run_of_dump (hdump : options.dump = true) (source : TextSource) :
    options.run source = .ok { stderr := Line.renderAll options.layout } := by
  rw [run, if_pos hdump]

/-- A metamodel that cannot be loaded ends a run before the settings are looked at. -/
theorem run_of_model_error {error : LoadError} (hdump : options.dump = false)
    (hmodel : tree.Loads Model.ofText options.input (.error error)) :
    options.run tree.readText = .error (.model options.input error) := by
  rw [run, hdump, Model.load, hmodel.load_eq]
  rfl

section

variable {model : Model} (hdump : options.dump = false)
  (hmodel : tree.Loads Model.ofText options.input (.ok model))

include hdump hmodel

/-- Settings that cannot be loaded end a run that has its metamodel. -/
theorem run_of_settings_error {error : RunError}
    (hsettings : options.Configures tree (.error error)) :
    options.run tree.readText = .error error := by
  rw [run, hdump, Model.load, hmodel.load_eq]
  simp only [Except.mapError, bind, Except.bind, hsettings.settings_eq, Bool.false_eq_true,
    if_false]

/-- When both are loaded, the answer is the text that is generated from them. -/
theorem run_of_loaded {settings : Settings} (hsettings : options.Configures tree (.ok settings)) :
    options.run tree.readText = .ok (options.answer (generate model settings)) := by
  rw [run, hdump, Model.load, hmodel.load_eq, answer]
  simp only [Except.mapError, bind, Except.bind, hsettings.settings_eq, Bool.false_eq_true,
    if_false]
  cases options.out <;> rfl

end

end GenerateOptions

namespace FileTree

variable {tree : FileTree} {command : Command} {arguments : List String}

/-- A command that fails leaves the tree alone. -/
theorem execute_of_error {error : RunError} (h : command.run tree.readText false = .error error) :
    tree.execute false command = ⟨"", "", some error, tree⟩ := by
  rw [execute, h]

/-- A command without a file prints its answer. -/
theorem execute_of_print {answer : Answer} (h : command.run tree.readText false = .ok answer)
    (hfile : answer.file = none) :
    tree.execute false command = ⟨answer.stdout, answer.stderr, none, tree⟩ := by
  simp only [execute, h, hfile]

/-- A command with a file delivers the text to it. -/
theorem execute_of_file {answer : Answer} {path text : String}
    (h : command.run tree.readText false = .ok answer) (hfile : answer.file = some (path, text)) :
    tree.execute false command =
      ⟨answer.stdout, answer.stderr, (tree.deliver path text).1, (tree.deliver path text).2⟩ := by
  simp only [execute, h, hfile]

theorem runProgram_of_parse (h : CommandLine.parse arguments = .ok command) :
    tree.runProgram arguments =
      ⟨if (tree.execute false command).error.isSome then 1 else 0,
        (tree.execute false command).stdout, (tree.execute false command).tree⟩ := by
  rw [runProgram, h]

/-- A command that fails before it answers prints nothing and changes nothing. -/
theorem runProgram_of_error {error : RunError} (hparse : CommandLine.parse arguments = .ok command)
    (h : command.run tree.readText false = .error error) :
    tree.runProgram arguments = ⟨1, "", tree⟩ ∧
      (tree.execute false command).error = some error := by
  rw [runProgram_of_parse hparse, execute_of_error h]
  exact ⟨rfl, rfl⟩

/-- A command that asks for no file prints its answer and changes nothing. -/
theorem runProgram_of_print {answer : Answer} (hparse : CommandLine.parse arguments = .ok command)
    (h : command.run tree.readText false = .ok answer) (hfile : answer.file = none) :
    tree.runProgram arguments = ⟨0, answer.stdout, tree⟩ := by
  rw [runProgram_of_parse hparse, execute_of_print h hfile]
  rfl

/-- A command that asks for a file either delivers the text or has made directories at most. -/
theorem runProgram_of_file {answer : Answer} {path text : String}
    (hparse : CommandLine.parse arguments = .ok command)
    (h : command.run tree.readText false = .ok answer) (hfile : answer.file = some (path, text)) :
    (tree.runProgram arguments).stdout = answer.stdout ∧
      ((tree.runProgram arguments).exitCode = 0 →
        tree.Delivers path text (tree.runProgram arguments).tree) ∧
      ((tree.runProgram arguments).exitCode ≠ 0 →
        tree.Grows (Files.ancestors ((Files.parent? path).getD ""))
          (tree.runProgram arguments).tree) := by
  rw [runProgram_of_parse hparse, execute_of_file h hfile]
  have hcases := tree.deliver_cases path text
  generalize tree.deliver path text = delivered at hcases ⊢
  refine ⟨rfl, ?_⟩
  dsimp only
  rcases hcases with ⟨hnone, hdelivers⟩ | ⟨hsome, hgrows⟩
  · rw [hnone]
    exact ⟨fun _ => hdelivers, fun hfails => absurd rfl hfails⟩
  · rw [hsome]
    exact ⟨nofun, fun _ => hgrows⟩

/-- What the command line for generating code comes to. Showing the options takes no file and
changes none. Otherwise the metamodel and the settings are loaded, each of which comes to something:
one that cannot be read or parsed makes the run fail, the metamodel first, with nothing printed and
nothing changed. When both are loaded, the text generated from them is printed, or delivered to the
file that is asked for and nowhere else. -/
theorem runProgram_generate (tree : FileTree) (arguments : List String) (options : GenerateOptions)
    (hparse : CommandLine.parse arguments = .ok (.generate options)) :
    (options.dump = true →
      tree.runProgram arguments = ⟨0, "", tree⟩ ∧ (Command.generate options).inputs = [] ∧
        ∀ source other : TextSource, options.run source = options.run other) ∧
    (options.dump = false →
      ((∃ outcome, tree.Loads Model.ofText options.input outcome) ∧
        ∃ outcome, options.Configures tree outcome) ∧
      (∀ error, tree.Loads Model.ofText options.input (.error error) →
        tree.runProgram arguments = ⟨1, "", tree⟩ ∧
          (tree.execute false (.generate options)).error = some (.model options.input error)) ∧
      ∀ model, tree.Loads Model.ofText options.input (.ok model) →
        (∀ error, options.Configures tree (.error error) →
          tree.runProgram arguments = ⟨1, "", tree⟩ ∧
            (tree.execute false (.generate options)).error = some error) ∧
        ∀ settings, options.Configures tree (.ok settings) →
          (options.out = none → tree.runProgram arguments = ⟨0, generate model settings, tree⟩) ∧
          ∀ path, options.out = some path →
            (tree.runProgram arguments).stdout = "" ∧
            ((tree.runProgram arguments).exitCode = 0 →
              tree.Delivers path (generate model settings) (tree.runProgram arguments).tree) ∧
            ((tree.runProgram arguments).exitCode ≠ 0 →
              tree.Grows (Files.ancestors ((Files.parent? path).getD ""))
                (tree.runProgram arguments).tree)) := by
  refine ⟨fun hdump => ?_, fun hdump => ⟨?_, fun error hmodel => ?_, fun model hmodel => ⟨?_, ?_⟩⟩⟩
  · refine ⟨?_, if_pos hdump, fun source other => ?_⟩
    · exact runProgram_of_print hparse (options.run_of_dump hdump tree.readText) rfl
    · rw [options.run_of_dump hdump, options.run_of_dump hdump]
  · exact ⟨tree.exists_loads Model.ofText options.input, options.exists_configures tree⟩
  · exact runProgram_of_error hparse (options.run_of_model_error hdump hmodel)
  · intro error hsettings
    exact runProgram_of_error hparse (options.run_of_settings_error hdump hmodel hsettings)
  · intro settings hsettings
    have hrun : (Command.generate options).run tree.readText false =
        .ok (options.answer (generate model settings)) :=
      options.run_of_loaded hdump hmodel hsettings
    constructor
    · intro hout
      rw [GenerateOptions.answer, hout] at hrun
      exact runProgram_of_print hparse hrun rfl
    · intro path hout
      rw [GenerateOptions.answer, hout] at hrun
      exact runProgram_of_file hparse hrun rfl

/-- A metamodel with one structure, and its text. -/
def pointModel : Model where
  version := "1"
  structures := [{ name := "Point" }]

def pointText : String :=
  "\x7b\"metaData\":\x7b\"version\":\"1\"\x7d,\"structures\":[\x7b\"name\":\"Point\"\x7d]\x7d"

/-- Settings that exclude the structure, and their text. -/
def pointSettings : Settings :=
  { Settings.standard with excluded := .ofList ["Point"] }

def pointSettingsText : String :=
  "\x7b\"excluded\":[\"Point\"]\x7d"

/-- A tree with the metamodel and the settings, a file whose bytes are no text, and a file whose
text breaks off. -/
def pointTree : FileTree where
  root := .directory [("work", .directory
    [("point.json", .file pointText.toUTF8),
     ("settings.json", .file pointSettingsText.toUTF8),
     ("bytes.json", .file ⟨#[0xff]⟩),
     ("broken.json", .file "\x7b".toUTF8)])]
  workingDirectory := ["work"]

/-- One run for each way to fail, one that prints what the settings leave of the metamodel, and one
that writes a file. -/
theorem runProgram_generate_pointTree :
    pointTree.runProgram ["rust", "-i", "nowhere.json", "--no-op"] = ⟨0, "", pointTree⟩ ∧
    -- the metamodel is missing, is no text, or is no metamodel
    (pointTree.runProgram ["rust", "-i", "nowhere.json"] = ⟨1, "", pointTree⟩ ∧
      (pointTree.execute false (.generate { input := "nowhere.json" })).error =
        some (.model "nowhere.json" (.unreadable "nowhere.json" .notFound))) ∧
    (pointTree.runProgram ["rust", "-i", "bytes.json", "--config", "broken.json"] =
        ⟨1, "", pointTree⟩ ∧
      (pointTree.execute false
          (.generate { input := "bytes.json", config := some "broken.json" })).error =
        some (.model "bytes.json" (.unreadable "bytes.json" .notText))) ∧
    (∃ failure, Model.ofText "\x7b" = .error failure ∧
      pointTree.runProgram ["rust", "-i", "broken.json"] = ⟨1, "", pointTree⟩ ∧
      (pointTree.execute false (.generate { input := "broken.json" })).error =
        some (.model "broken.json" (.malformed "broken.json" "\x7b" failure))) ∧
    -- the settings are no settings
    (∃ failure, Settings.ofText "\x7b" = .error failure ∧
      pointTree.runProgram ["rust", "-i", "point.json", "--config", "broken.json"] =
        ⟨1, "", pointTree⟩ ∧
      (pointTree.execute false
          (.generate { input := "point.json", config := some "broken.json" })).error =
        some (.settings "broken.json" (.malformed "broken.json" "\x7b" failure))) ∧
    -- both are loaded
    pointTree.runProgram ["rust", "-i", "point.json", "--config", "settings.json"] =
      ⟨0, "// Generated from protocol metamodel version 1. Do not edit.\n", pointTree⟩ ∧
    pointTree.Delivers "gen/out.rs" (generate pointModel .standard)
      (pointTree.runProgram ["rust", "-i", "point.json", "-o", "gen/out.rs"]).tree := by
  have hnowhere : pointTree.Reads "nowhere.json" (.error .notFound) :=
    reads_iff.mpr (by decide +kernel)
  have hbytes : pointTree.Reads "bytes.json" (.error .notText) := reads_iff.mpr (by decide +kernel)
  have hbroken : pointTree.Reads "broken.json" (.ok "\x7b") := reads_iff.mpr (by decide +kernel)
  have hpointText : pointTree.Reads "point.json" (.ok pointText) :=
    reads_iff.mpr (by decide +kernel)
  have hsettingsText : pointTree.Reads "settings.json" (.ok pointSettingsText) :=
    reads_iff.mpr (by decide +kernel)
  have hpoint : pointTree.Loads Model.ofText "point.json" (.ok pointModel) :=
    .wellFormed hpointText (by with_unfolding_all rfl)
  have hsettings : pointTree.Loads Settings.ofText "settings.json" (.ok pointSettings) :=
    .wellFormed hsettingsText (by decide +kernel)
  obtain ⟨modelFailure, hmodelFailure⟩ : ∃ failure, Model.ofText "\x7b" = .error failure := ⟨_, rfl⟩
  obtain ⟨settingsFailure, hsettingsFailure⟩ : ∃ failure, Settings.ofText "\x7b" = .error failure :=
    ⟨_, rfl⟩
  have hbadSettings : CommandLine.parse
      ["rust", "-i", "point.json", "--config", "broken.json"] =
      .ok (.generate { input := "point.json", config := some "broken.json" }) := rfl
  have hprint : CommandLine.parse ["rust", "-i", "point.json", "--config", "settings.json"] =
      .ok (.generate { input := "point.json", config := some "settings.json" }) := rfl
  have hwrite : CommandLine.parse ["rust", "-i", "point.json", "-o", "gen/out.rs"] =
      .ok (.generate { input := "point.json", out := some "gen/out.rs" }) := rfl
  refine ⟨?_, ?_, ?_, ⟨modelFailure, hmodelFailure, ?_⟩, ⟨settingsFailure, hsettingsFailure, ?_⟩,
    ?_, ?_⟩
  · exact ((runProgram_generate pointTree _ { input := "nowhere.json", dump := true } rfl).1 rfl).1
  · exact ((runProgram_generate pointTree _ { input := "nowhere.json" } rfl).2 rfl).2.1 _
      (.unreadable hnowhere)
  · exact ((runProgram_generate pointTree _
      { input := "bytes.json", config := some "broken.json" } rfl).2 rfl).2.1 _ (.unreadable hbytes)
  · exact ((runProgram_generate pointTree _ { input := "broken.json" } rfl).2 rfl).2.1 _
      (.malformed hbroken hmodelFailure)
  · obtain ⟨_, _, hloaded⟩ := (runProgram_generate pointTree _ _ hbadSettings).2 rfl
    exact (hloaded pointModel hpoint).1 _ (.failed rfl (.malformed hbroken hsettingsFailure))
  · obtain ⟨_, _, hloaded⟩ := (runProgram_generate pointTree _ _ hprint).2 rfl
    have hgenerate : generate pointModel pointSettings =
        "// Generated from protocol metamodel version 1. Do not edit.\n" := by
      decide +kernel
    rw [← hgenerate]
    exact ((hloaded pointModel hpoint).2 pointSettings (.loaded rfl hsettings)).1 rfl
  · obtain ⟨_, _, hloaded⟩ := (runProgram_generate pointTree _ _ hwrite).2 rfl
    obtain ⟨_, hwrites⟩ := (hloaded pointModel hpoint).2 .standard (.standard rfl)
    exact (hwrites "gen/out.rs" rfl).2.1 (by decide +kernel)

end FileTree

end ProtocolCodec
