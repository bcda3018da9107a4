import Extraction.Proofs.Command.Pipeline
import Extraction.Proofs.Files.Saved

/-!
# Extraction.Proofs.Command.Settings

What the settings have no say in.

Of all the files a run looks at those that its arguments name, and at that of the settings.
What the stages come to depends on the former alone, and the settings decide how it is printed.
So two runs that see the same except in the directory where the settings are kept come to the
same, and print the same where the arguments leave the settings nothing to decide:

* `collect_congr` — the stages depend on the files that the arguments name;
* `output_congr` — the printed text, where the arguments settle how to print;
* `alike_of_collect` — two runs whose stages come to the same;
* `run_agreeOutside` — two runs that see the same, except in one directory.
-/

namespace Extraction.Command

open Document (Value)
open Files (Tree View)

/-! ## files that are read -/

variable {view view' : View}

/-- `readText` asks a view for its own path only. -/
theorem readText_congr {path : String} (h : view path = view' path) :
    Files.readText view path = Files.readText view' path := by
  rw [Files.readText, Files.readText, h]

/-- `loadSource` asks a view for its own path only. -/
theorem loadSource_congr {path : String} (h : view path = view' path) :
    Files.loadSource view path = Files.loadSource view' path := by
  rw [Files.loadSource, Files.loadSource, readText_congr h]

/-- `loadTransitions` asks a view for its own path only. -/
theorem loadTransitions_congr {path : String} (h : view path = view' path) :
    Files.loadTransitions view path = Files.loadTransitions view' path := by
  rw [Files.loadTransitions, Files.loadTransitions, readText_congr h]

/-! ## stages -/

variable {home : String} {input : Option ByteArray} {o : Options}

/-- The files that the arguments name. -/
def Options.paths (o : Options) : List String := o.file.toList ++ o.transitionsFile.toList

/-- `transitions` asks a view for nothing but the transitions file. -/
theorem transitions_congr (h : ∀ path ∈ o.transitionsFile, view path = view' path) :
    transitions view o = transitions view' o := by
  rw [transitions, transitions]
  cases hpath : o.transitionsFile with
  | none => rfl
  | some path => dsimp only; rw [loadTransitions_congr (h path hpath)]

/-- `source` asks a view for nothing but the document. -/
theorem source_congr (h : ∀ path ∈ o.file, view path = view' path) :
    source ⟨view, home, input⟩ o = source ⟨view', home, input⟩ o := by
  rw [source, source]
  cases hpath : o.file with
  | none => cases input <;> rfl
  | some path => dsimp only; rw [loadSource_congr (h path hpath)]

/-- What the stages come to depends only on the files that the arguments name. -/
theorem collect_congr (h : ∀ path ∈ o.paths, view path = view' path) :
    collect ⟨view, home, input⟩ o = collect ⟨view', home, input⟩ o := by
  have htransitions : transitions view o = transitions view' o :=
    transitions_congr fun path hpath => h path (by simp [Options.paths, Option.mem_def.1 hpath])
  have hsource : source ⟨view, home, input⟩ o = source ⟨view', home, input⟩ o :=
    source_congr fun path hpath => h path (by simp [Options.paths, Option.mem_def.1 hpath])
  rw [collect, collect, htransitions, hsource]

/-! ## printing -/

/-- The arguments settle how to print: as YAML, or in a given format on a single line. -/
def Options.SettlesOutput (o : Options) : Prop :=
  (o.format.isSome ∧ o.compact) ∨ o.format = some .yaml

/-- Under `SettlesOutput` the settings make no difference to the output. -/
theorem output_congr (h : o.SettlesOutput) (c c' : Config) (r : Transition.Results) :
    output o c r = output o c' r := by
  rw [output, output]
  rcases h with ⟨hformat, hcompact⟩ | hyaml
  · obtain ⟨f, hf⟩ := Option.isSome_iff_exists.1 hformat
    simp [hf, hcompact]
  · simp [hyaml, render]

/-- The settings are not needed before the output is made. -/
theorem result_run (s : Surroundings) (o : Options) :
    (run s o).result = (collect s o).2.map (output o (settings s).1) := rfl

/-! ## two runs -/

/-- Two runs with the same arguments come to the same: the exit code, the error, and what is
printed where the arguments settle how to print. -/
structure Alike (o : Options) (r r' : Report) : Prop where
  code : r.code = r'.code
  failure? : r.failure? = r'.failure?
  printed : o.SettlesOutput → r.printed = r'.printed

/-- Runs that collect the same are `Alike`, whatever settings they go by. -/
theorem alike_of_collect {s s' : Surroundings} (h : collect s o = collect s' o) :
    Alike o (run s o) (run s' o) := by
  have hresult : (run s o).result = (collect s' o).2.map (output o (settings s).1) := by
    rw [result_run, h]
  have hresult' : (run s' o).result = (collect s' o).2.map (output o (settings s').1) :=
    result_run s' o
  refine ⟨?_, ?_, fun hsettles => ?_⟩
  · rw [Report.code, Report.code, hresult, hresult']
    cases (collect s' o).2 <;> rfl
  · rw [Report.failure?, Report.failure?, hresult, hresult']
    cases (collect s' o).2 <;> rfl
  · have houtput : output o (settings s).1 = output o (settings s').1 :=
      funext fun r => output_congr hsettles _ _ r
    rw [Report.printed, Report.printed, hresult, hresult', houtput]

/-- **Settings**: two runs with the same arguments and standard input come to the same, if the
files that the arguments name are the same, whatever any other file holds, that of the settings
among them.  They are the same in two trees that differ in one directory only, such as the one
that the settings are kept in, if no way to them leads through that directory. -/
theorem run_agreeOutside (home : String) (input : Option ByteArray) (o : Options) :
    (∀ view view' : View, (∀ path ∈ o.paths, view path = view' path) →
      Alike o (run ⟨view, home, input⟩ o) (run ⟨view', home, input⟩ o)) ∧
    ∀ (dir : List String) (root root' : Tree), Tree.AgreeOutside dir root root' →
      (∀ path ∈ o.paths, ¬ root.PassesThrough dir path) →
      Alike o (run ⟨root.view, home, input⟩ o) (run ⟨root'.view, home, input⟩ o) := by
  refine ⟨fun view view' hview => alike_of_collect (collect_congr hview),
    fun dir root root' hroot hpaths => alike_of_collect (collect_congr fun path hpath => ?_)⟩
  exact Tree.view_of_agreeOutside hroot (hpaths path hpath)

/-- The directory of a user, with a document and an empty directory for settings. -/
def unconfigured : Tree := .directory [("home", .directory [("u", .directory
  [("a.json", .file "[6]".toUTF8), (".config", .directory [("datatransit", .directory [])])])])]

/-- The same directory with settings in it. -/
def configured : Tree := .directory [("home", .directory [("u", .directory
  [("a.json", .file "[6]".toUTF8), (".config", .directory [("datatransit", .directory
    [("config.toml", .file yamlConfig.write.toUTF8)])])])])]

/-- The arguments `home/../home/u/a.json -t 0 -f json --compact`. -/
def settled : Options := ⟨some "home/../home/u/a.json", ["0"], none, some .json, true, 0⟩

/-- A document that leads to the same, before settings that ask for YAML were written and after
that. -/
theorem run_agreeOutside_settled :
    InEffect unconfigured.view "/home/u" .default ∧
    InEffect configured.view "/home/u" yamlConfig ∧
    Tree.AgreeOutside ["home", "u", ".config"] unconfigured configured ∧
    (∀ path ∈ settled.paths, ¬ unconfigured.PassesThrough ["home", "u", ".config"] path) ∧
    Alike settled (run ⟨unconfigured.view, "/home/u", none⟩ settled)
      (run ⟨configured.view, "/home/u", none⟩ settled) ∧
    (run ⟨unconfigured.view, "/home/u", none⟩ settled).printed =
      (run ⟨configured.view, "/home/u", none⟩ settled).printed := by
  have hpath : Config.pathIn "/home/u" = "/home/u/.config/datatransit/config.toml" := by
    decide +kernel
  have hplace : unconfigured.place? "/home/u/.config/datatransit/config.toml" =
      some ["home", "u", ".config", "datatransit", "config.toml"] := by decide
  have hwrite : unconfigured.write? "/home/u/.config/datatransit/config.toml"
      yamlConfig.write.toUTF8 = some configured := by
    rw [Tree.write?, hplace]
    rfl
  have habsent : unconfigured.view (Config.pathIn "/home/u") = .absent := by
    rw [hpath, Tree.view_eq, hplace]
    rfl
  have hfile : configured.view (Config.pathIn "/home/u") = .file yamlConfig.write.toUTF8 := by
    rw [hpath]
    exact Tree.view_write hwrite
  have hroot : Tree.AgreeOutside ["home", "u", ".config"] unconfigured configured :=
    Tree.agreeOutside_write hwrite hplace (List.prefix_append _ ["datatransit", "config.toml"])
  have hpaths : ∀ path ∈ settled.paths,
      ¬ unconfigured.PassesThrough ["home", "u", ".config"] path := by decide
  have halike := (run_agreeOutside "/home/u" none settled).2 ["home", "u", ".config"]
    unconfigured configured hroot hpaths
  exact ⟨.absent habsent, inEffect_of_saved hfile, hroot, hpaths, halike,
    halike.printed (.inl ⟨rfl, rfl⟩)⟩

end Extraction.Command
